import Diskette.Proofs.Catalog.Content
import Diskette.Proofs.Catalog.RoundTrip
import Diskette.Zip.Reader

/-!
# Unmodified disks

A drive works on a copy of the disk of a slot. As long as the copy is not modified, the slot has the
same data, and nothing is lost when the copy is thrown away. A snapshot may bring back a copy from
before the slot was written to; but a slot that is written to becomes a saved copy and remains one,
and over a saved copy every restored disk counts as modified.
-/

set_option autoImplicit false

namespace Diskette

/-- A disk in the drive comes from a slot, and has its data unless it is modified. -/
def Drive.InStep (d : Drive) (slots : List DiskImage) : Prop :=
  ∀ i, d.inserted = some i → ∃ s image, d.slot = some s ∧ slots[s]? = some image ∧
    (i.isModified = false → image.data = i.disk.data)

theorem Drive.inStep_of_empty {d : Drive} (h : d.inserted = none) (slots : List DiskImage) :
    d.InStep slots := by
  intro i hi
  rw [h] at hi
  cases hi

namespace Catalog

variable {σ : Type}

def InStep (c : Catalog σ) : Prop := ∀ id, (c.drive id).InStep c.slots

namespace InStep

variable {c c' : Catalog σ}

theorem new (policy : Policy) (store : σ) : (Catalog.new policy store).InStep := by
  intro id
  cases id <;> exact Drive.inStep_of_empty rfl []

theorem setDrive (h : c.InStep) {id : DriveId} {d : Drive} (hd : d.InStep c.slots) :
    (c.setDrive id d).InStep := by
  intro j
  rw [slots_setDrive, drive_setDrive]
  split
  · exact hd
  · exact h j

theorem setSlots (h : c.InStep) {slots : List DiskImage}
    (hs : ∀ id s image, (c.drive id).presents s = true → c.slots[s]? = some image →
      slots[s]? = some image) :
    ({ c with slots := slots } : Catalog σ).InStep := by
  intro id i hi
  obtain ⟨s, image, hslot, himage, hdata⟩ := h id i hi
  exact ⟨s, image, hslot, hs id s image (presents_eq_true_of hslot hi) himage, hdata⟩

variable [SaveStore σ] {op : Operation}

theorem eject (h : c.InStep) (hm : c.Mapped) (id : DriveId) (keep : Bool) :
    (c.eject id keep).InStep := by
  intro j i hi
  obtain ⟨hj, hi⟩ := inserted_of_eject hi
  obtain ⟨s, image, hs, himage, hdata⟩ := h j i hi
  have hid : c.shown s id = none :=
    Option.eq_none_iff_forall_ne_some.mpr
      (hm.shown_ne (shown_eq_some_iff.mpr ⟨hs, hi⟩) (Ne.symm hj))
  refine ⟨s, image, ?_, ?_, hdata⟩
  · rw [slot_eject, hs]
  · rw [Holds.slots_eject_of_hidden hm hid, himage]

theorem change [Zip.Library] (hc : Change op c c') (hr : ¬op.Restores) (hm : c.Mapped)
    (h : c.InStep) :
    c'.InStep := by
  cases hc with
  | eject id keep hk => exact h.eject hm id keep
  | add hl =>
    apply h.setSlots
    intro id s image _ hi
    rw [List.getElem?_append_left (List.getElem?_eq_some_iff.mp hi).1, hi]
  | fill slot image ho hi hl hf =>
    apply h.setSlots
    intro id s image' hp hi'
    have hne : slot ≠ s := by
      rintro rfl
      exact Bool.eq_false_iff.mp (hf id) hp
    rw [List.getElem?_set_ne hne, hi']
  | point id slot he hl =>
    apply h.setDrive
    exact Drive.inStep_of_empty (by simpa using he) c.slots
  | insert id slot image disk he hs hf hi hd hp =>
    apply h.setDrive
    intro i hi'
    cases hi'
    refine ⟨slot, image, rfl, hi, fun _ => ?_⟩
    simp [DiskImage.data, hd, InsertedDisk.ofDisk]
  | write id a data d ho hd =>
    obtain ⟨-, i, hi, -, -, rfl⟩ := Drive.write_eq_ok hd
    apply h.setDrive
    intro j hj
    cases hj
    obtain ⟨s, image, hs, himage, -⟩ := h id i hi
    exact ⟨s, image, hs, himage, fun hu => by cases hu⟩
  | adjust id timer on => exact h.setDrive (h id)
  | host policy codec tick => exact h
  | discard ho he hs => exact fun id => Drive.inStep_of_empty (he id) []
  | restore id file s taken slot ho hs he hm hf => exact absurd (ho ▸ trivial) hr

theorem changes [Zip.Library] (hc : Changes op c c') (hr : ¬op.Restores) (hm : c.Mapped)
    (h : c.InStep) :
    c'.InStep := by
  have hk := hc.keeps (I := fun d => d.Mapped ∧ d.InStep) (by
    rintro d d' hc ⟨hd, hi⟩
    exact ⟨hd.change hc, hi.change hc hr hd⟩) ⟨hm, h⟩
  exact hk.2

theorem run [Zip.Library] (h : c.InStep) (hm : c.Mapped) (ops : List Operation)
    (ho : ∀ op ∈ ops, ¬op.Restores) : (c.run ops).InStep := by
  induction ops generalizing c with
  | nil => exact h
  | cons op ops ih =>
    have hstep := h.changes (changes_step c op) (ho op (by simp)) hm
    exact ih hstep (hm.step op) fun o hmem => ho o (by simp [hmem])

end InStep

/-! ## Slots of a title -/

def Operation.KeepsTitle : Operation → Prop
  | .add | .replace _ _ _ | .loadTitle _ _ | .loadPlaylist _ _ | .clear => False
  | _ => True

theorem Operation.KeepsTitle.not_resizes {op : Operation} (h : op.KeepsTitle) : ¬op.Resizes := by
  cases op <;> simp_all [KeepsTitle, Resizes]

theorem Operation.KeepsTitle.not_fills {op : Operation} (h : op.KeepsTitle) (s : Nat) :
    ¬op.Fills s := by
  cases op <;> simp_all [KeepsTitle, Fills]

/-- The slots have kept their names, and a slot that has changed is a saved copy. -/
structure Aged (c c' : Catalog σ) : Prop where
  names : c'.names = c.names
  images : ∀ (s : Nat) image, c.slots[s]? = some image →
    ∃ image', c'.slots[s]? = some image' ∧ (image' = image ∨ image'.isSaved = true)

namespace Aged

variable {c c' c'' : Catalog σ}

theorem of_slots (h : c'.slots = c.slots) : c.Aged c' where
  names := by rw [Catalog.names, h, Catalog.names]
  images s image hi := ⟨image, h ▸ hi, .inl rfl⟩

theorem trans (h : c.Aged c') (h' : c'.Aged c'') : c.Aged c'' where
  names := h'.names.trans h.names
  images s image hi := by
    obtain ⟨image', hi', hs'⟩ := h.images s image hi
    obtain ⟨image'', hi'', hs''⟩ := h'.images s image' hi'
    refine ⟨image'', hi'', ?_⟩
    rcases hs'' with rfl | hs''
    · exact hs'
    · exact .inr hs''

variable [SaveStore σ] {op : Operation}

theorem eject (hm : c.Mapped) (id : DriveId) (keep : Bool) : c.Aged (c.eject id keep) where
  names := names_eject c id keep
  images s image hi := by
    rcases hm.getElem?_slots_eject id keep s with h | ⟨i, -, -, -, h⟩
    · exact ⟨image, h.trans hi, .inl rfl⟩
    · exact ⟨_, h, .inr rfl⟩

theorem move [Zip.Library] {into : DriveId → Bool} (h : Move into op c c') (ho : op.KeepsTitle)
    (hm : c.Mapped) : c.Aged c' := by
  have hl : c'.slots.length = c.slots.length := h.slots.resolve_left ho.not_resizes
  cases h.change with
  | eject id keep hk => exact eject hm id keep
  | add _ => simp at hl
  | fill slot image hf _ _ _ => exact absurd hf (ho.not_fills slot)
  | point id slot _ _ => exact of_slots (slots_setDrive c id _)
  | insert id slot image disk _ _ _ _ _ _ => exact of_slots (slots_setDrive c id _)
  | write id a data d _ _ => exact of_slots (slots_setDrive c id d)
  | adjust id timer on => exact of_slots (slots_setDrive c id _)
  | host policy codec tick => exact of_slots rfl
  | discard hc _ _ => exact absurd hc.resizes ho.not_resizes
  | restore id file s taken slot _ _ _ _ _ => exact of_slots (slots_restoreDrive ..)

theorem step [Zip.Library] (hm : c.Mapped) (ho : op.KeepsTitle) : c.Aged (c.step op).1 := by
  have h := (moves_step c op).keeps (I := fun d => d.Mapped ∧ c.Aged d) (by
    rintro d d' h ⟨hd, ha⟩
    exact ⟨hd.change h.change, ha.trans (move h ho hd)⟩) ⟨hm, of_slots rfl⟩
  exact h.2

end Aged

/-! ## Snapshots of a title -/

/-- The disk has a slot, and is not modified only if it has the data that the slot has or had. -/
def Backs (c : Catalog σ) (i : InsertedDisk) : Prop :=
  ∃ (s : Nat) (image : DiskImage), c.slots[s]? = some image ∧ image.name = i.name ∧
    (i.isModified = false → image.isSaved = false → image.data = i.disk.data)

structure Recallable (c : Catalog σ) (s : Snapshot) : Prop where
  backs : ∀ i, s.HasDisk i → c.Backs i
  apart : ∀ i j, s.driveA.inserted = some i → s.driveB.inserted = some j → i.name ≠ j.name

variable {c c' : Catalog σ}

theorem Backs.aged {i : InsertedDisk} (ha : c.Aged c') (h : c.Backs i) : c'.Backs i := by
  obtain ⟨s, image, hi, hn, hd⟩ := h
  obtain ⟨image', hi', hs⟩ := ha.images s image hi
  have hname : image'.name = image.name := by
    have hnames := congrArg (·[s]?) ha.names
    simpa [getElem?_names, hi, hi'] using hnames
  refine ⟨s, image', hi', hname.trans hn, ?_⟩
  -- A slot that has changed since the disk was copied is a saved copy by now.
  intro hu hs'
  rcases hs with rfl | hs
  · exact hd hu hs'
  · rw [hs] at hs'
    cases hs'

theorem Recallable.aged {s : Snapshot} (ha : c.Aged c') (h : c.Recallable s) : c'.Recallable s :=
  ⟨fun i hi => (h.backs i hi).aged ha, h.apart⟩

theorem slot_eq_of_name (hn : c.names.Nodup) {s t : Nat} {image image' : DiskImage}
    (hs : c.slots[s]? = some image) (ht : c.slots[t]? = some image')
    (h : image'.name = image.name) : t = s := by
  have hl : t < c.names.length := by
    rw [length_names]
    exact (List.getElem?_eq_some_iff.mp ht).1
  apply (List.getElem?_inj hl hn).mp
  rw [getElem?_names, getElem?_names, hs, ht, Option.map_some, Option.map_some, h]

theorem InStep.recallable (h : c.InStep) (hm : c.Mapped) (hn : c.names.Nodup) :
    c.Recallable ⟨c.tick, (driveState c.driveA).recorded, (driveState c.driveB).recorded⟩ := by
  have hbacks : ∀ id i, (c.drive id).inserted = some i → c.Backs i.recorded := by
    intro id i hi
    obtain ⟨s, image, hs, himage, hd⟩ := h id i hi
    obtain ⟨image', himage', hname⟩ := hm.named id s i hs hi
    rw [himage] at himage'
    cases himage'
    exact ⟨s, image, himage, hname, fun hu _ => hd hu⟩
  constructor
  · rintro i (hi | hi)
    · obtain ⟨j, hj, rfl⟩ := Option.map_eq_some_iff.mp hi
      exact hbacks .a j hj
    · obtain ⟨j, hj, rfl⟩ := Option.map_eq_some_iff.mp hi
      exact hbacks .b j hj
  · intro i j hi hj hij
    obtain ⟨i, ha, rfl⟩ := Option.map_eq_some_iff.mp hi
    obtain ⟨j, hb, rfl⟩ := Option.map_eq_some_iff.mp hj
    obtain ⟨s, -, hs, -⟩ := h .a i ha
    obtain ⟨t, -, ht, -⟩ := h .b j hb
    obtain ⟨image, hi, hname⟩ := hm.named .a s i hs ha
    obtain ⟨image', hi', hname'⟩ := hm.named .b t j ht hb
    have hst : t = s := by
      apply slot_eq_of_name hn hi hi'
      rw [hname, hname']
      exact hij.symm
    subst hst
    have hfree := hm.apart .a t (presents_eq_true_of hs ha)
    exact Bool.eq_false_iff.mp hfree (presents_eq_true_of ht hb)

/-! ## Restoring one -/

theorem slotOf?_eq_some (hn : c.names.Nodup) {s : Nat} {image : DiskImage} {taken : Option Nat}
    (hs : c.slots[s]? = some image) (ht : taken ≠ some s) :
    c.slotOf? image.name taken = some s := by
  cases h : c.slotOf? image.name taken with
  | none =>
    have hf := List.find?_eq_none.mp (Option.map_eq_none_iff.mp h) (image, s)
      (List.mem_zipIdx_iff_getElem?.mpr hs)
    simp [ht] at hf
  | some t =>
    obtain ⟨image', hi, hname⟩ := name_of_slotOf? h
    rw [slot_eq_of_name hn hs hi hname]

/-- The disk may be restored to the slot: it counts as modified then or has the data there. -/
def Suits (c : Catalog σ) (i : InsertedDisk) (slot : Option Nat) : Prop :=
  ∃ t image, slot = some t ∧ c.slots[t]? = some image ∧
    (i.isModified = false → image.isSaved = false → image.data = i.disk.data)

theorem Backs.suits {i : InsertedDisk} (h : c.Backs i) (hn : c.names.Nodup) {s : DriveState}
    (hi : s.inserted = some i) {taken : Option Nat}
    (ht : ∀ (t : Nat) image, taken = some t → c.slots[t]? = some image → image.name ≠ i.name) :
    c.Suits i (c.matchSlot? s taken) := by
  obtain ⟨t, image, himage, hname, hd⟩ := h
  refine ⟨t, image, ?_, himage, hd⟩
  have hfree : taken ≠ some t := fun e => ht t image e himage hname
  rw [matchSlot?, hi, Option.bind_some, ← hname]
  exact slotOf?_eq_some hn himage hfree

variable [SaveStore σ]

theorem InStep.restoreDrive (h : c.InStep) (id : DriveId) {s : DriveState} {slot : Option Nat}
    (hs : ∀ i, s.inserted = some i → c.Suits i slot) : (c.restoreDrive id s slot).InStep := by
  unfold Catalog.restoreDrive
  dsimp only
  split
  · apply h.setDrive
    exact Drive.inStep_of_empty rfl c.slots
  · rename_i disk hd
    obtain ⟨t, image, rfl, himage, hdata⟩ := hs disk hd
    apply h.setDrive
    intro i hi
    cases hi
    refine ⟨t, image, rfl, himage, fun hu => ?_⟩
    simp only [hasSave, himage, Option.any_some, Bool.or_eq_false_iff] at hu
    exact hdata hu.1 hu.2

theorem InStep.restoreState (h : c.InStep) (hm : c.Mapped) (hn : c.names.Nodup) {s : Snapshot}
    (hs : c.Recallable s) : (c.restoreState s).InStep := by
  let keep := c.policy.persistOnRestore
  let c₁ := { (c.eject .a keep).eject .b keep with tick := s.tick }
  have hm' := hm.eject .a keep
  have hc₁ : c₁.InStep := (h.eject hm .a keep).eject hm' .b keep
  have ha : c.Aged c₁ :=
    ((Aged.eject hm .a keep).trans (Aged.eject hm' .b keep)).trans (.of_slots rfl)
  have hn₁ : c₁.names.Nodup := by
    rw [ha.names]
    exact hn
  have hs₁ : c₁.Recallable s := hs.aged ha
  have hA : ∀ i, s.driveA.inserted = some i → c₁.Suits i (c₁.matchSlot? s.driveA none) := by
    intro i hi
    exact (hs₁.backs i (.inl hi)).suits hn₁ hi (by simp)
  have hB : ∀ i, s.driveB.inserted = some i →
      c₁.Suits i (c₁.matchSlot? s.driveB (c₁.matchSlot? s.driveA none)) := by
    intro i hi
    apply (hs₁.backs i (.inr hi)).suits hn₁ hi
    -- What drive A takes is the slot of another name.
    intro t image ht himage hname
    obtain ⟨j, hj, ht⟩ := Option.bind_eq_some_iff.mp ht
    obtain ⟨image', himage', hname'⟩ := name_of_slotOf? ht
    rw [himage] at himage'
    cases himage'
    exact hs.apart j i hj hi (hname'.symm.trans hname)
  apply (hc₁.restoreDrive .a hA).restoreDrive .b
  unfold Suits
  rw [slots_restoreDrive]
  exact hB

/-! ## Runs -/

def savedBy (c : Catalog σ) : Operation → List Bytes
  | .save => c.save.toOption.toList
  | _ => []

def RestoresOnly [Zip.Library] : Catalog σ → List Bytes → List Operation → Prop
  | _, _, [] => True
  | c, saved, op :: ops => (∀ file, op = .restore file → file ∈ saved) ∧
    RestoresOnly (c.step op).1 (saved ++ c.savedBy op) ops

/-- The drives are in step with the slots, and will be when one of the files is restored. -/
structure Coherent (c : Catalog σ) (saved : List Bytes) : Prop where
  mapped : c.Mapped
  sound : c.Sound
  distinct : c.names.Nodup
  inStep : c.InStep
  saved : ∀ file ∈ saved, ∀ s, Snapshot.ofBytes file = .ok s → c.Recallable s

namespace Coherent

variable {saved : List Bytes} {op : Operation}

theorem inStep_step [Zip.Library] (h : c.Coherent saved)
    (hr : ∀ file, op = .restore file → file ∈ saved) :
    (c.step op).1.InStep := by
  by_cases hop : op.Restores
  · cases op with
    | restore file =>
      change (c.restore file).1.InStep
      unfold restore
      split
      · rename_i s hs
        exact h.inStep.restoreState h.mapped h.distinct (h.saved file (hr file rfl) s hs)
      · exact h.inStep
    | _ => exact hop.elim
  · exact h.inStep.changes (changes_step c op) hop h.mapped

theorem step [Zip.Library] (h : c.Coherent saved) (ho : op.KeepsTitle)
    (hr : ∀ file, op = .restore file → file ∈ saved) :
    (c.step op).1.Coherent (saved ++ c.savedBy op) := by
  have ha : c.Aged (c.step op).1 := Aged.step h.mapped ho
  constructor
  · exact h.mapped.step op
  · exact h.sound.step op
  · rw [ha.names]
    exact h.distinct
  · exact h.inStep_step hr
  · intro file hf s hs
    rcases List.mem_append.mp hf with hf | hf
    · exact (h.saved file hf s hs).aged ha
    · cases op with
      | save =>
        have hsave : c.save = .ok file := eq_ok_of_toOption (Option.mem_toList.mp hf)
        rw [Snapshot.eq_of_ofBytes (sound_of_hasDisk h.sound) hsave hs]
        exact h.inStep.recallable h.mapped h.distinct
      | _ => cases hf

theorem run [Zip.Library] (ops : List Operation) (h : c.Coherent saved)
    (ho : ∀ op ∈ ops, op.KeepsTitle) (hr : c.RestoresOnly saved ops) :
    ∃ saved, (c.run ops).Coherent saved := by
  induction ops generalizing c saved with
  | nil => exact ⟨saved, h⟩
  | cons op ops ih =>
    exact ih (h.step (ho op (by simp)) hr.1) (fun o h => ho o (by simp [h])) hr.2

end Coherent

theorem coherent_loadPlaylist [Zip.Library] (c : Catalog σ) (start : Nat)
    (files : List (Option String × Bytes)) (hn : (c.loadPlaylist start files).1.names.Nodup) :
    (c.loadPlaylist start files).1.Coherent [] := by
  let op : Operation := .loadPlaylist start files
  have hmoves : Moves (fun _ => true) op c.clear (c.loadPlaylist start files).1 :=
    moves_loadPlaylist c start files trivial (fun _ => trivial) (fun _ => rfl)
  have hi : ∀ id, (c.clear.drive id).inserted = none := fun id => (drive_unload_both c id).1
  have hs : ∀ id, (c.clear.drive id).slot = none := fun id => (drive_unload_both c id).2
  have hm : c.clear.Mapped := by
    constructor
    · exact Nat.zero_le _
    · simp [hs]
    · intro id s hp
      rw [presents_eq_false_of_empty (hi id)] at hp
      cases hp
    · simp [hs]
  have hsound : c.clear.Sound := by
    constructor
    · simp [hi]
    · intro image himage
      cases himage
  have hinStep : c.clear.InStep := fun id => Drive.inStep_of_empty (hi id) c.clear.slots
  constructor
  · exact hmoves.changes.keeps (fun _ _ => Mapped.change) hm
  · exact hmoves.changes.keeps (fun _ _ => Sound.change) hsound
  · exact hn
  · exact hinStep.changes hmoves.changes (fun h => h.elim) hm
  · simp

omit [SaveStore σ] in
theorem content_of_hidden {s : Nat} {image : DiskImage}
    (hf : ∀ id, (c.drive id).presents s = false) (hi : c.slots[s]? = some image) :
    c.content s = image.data := by
  have hnone : DriveId.all.find? (fun id => (c.drive id).presents s) = none := by
    simp [List.find?_eq_none, hf]
  rw [content, hnone, hi]
  rfl

/-- After a title with distinct names has been loaded, an unmodified disk in a drive always has the
data of the slot that the drive has selected. It does not matter in which order snapshots of the
title are taken and restored, and whether the disks that they throw out are kept. So nothing is lost
when an unmodified disk is thrown away. -/
theorem inStep_run [Zip.Library] (before : Catalog σ) (start : Nat)
    (files : List (Option String × Bytes)) (ops : List Operation) (c : Catalog σ)
    (hc : c = (before.loadPlaylist start files).1) (hn : c.names.Nodup)
    (ho : ∀ op ∈ ops, op.KeepsTitle) (hr : c.RestoresOnly [] ops) (id : DriveId) (i : InsertedDisk)
    (hi : ((c.run ops).drive id).inserted = some i) (hu : i.isModified = false) :
    ∃ s image, ((c.run ops).drive id).slot = some s ∧ (c.run ops).slots[s]? = some image ∧
      image.data = i.disk.data ∧ ∀ keep, ((c.run ops).eject id keep).slots = (c.run ops).slots ∧
        ((c.run ops).eject id keep).content s = i.disk.data := by
  have hloaded : c.Coherent [] := by
    subst hc
    exact coherent_loadPlaylist before start files hn
  obtain ⟨saved, h⟩ := hloaded.run ops ho hr
  obtain ⟨s, image, hs, himage, hd⟩ := h.inStep id i hi
  refine ⟨s, image, hs, himage, hd hu, ?_⟩
  intro keep
  have hslots : ((c.run ops).eject id keep).slots = (c.run ops).slots := by
    rw [eject_of_lost hi (.inl hu), slots_setDrive]
  have hhidden : ∀ j, (((c.run ops).eject id keep).drive j).presents s = false := by
    intro j
    rcases eq_or_eq_other id j with rfl | rfl
    · exact presents_eq_false_of_empty (by simp) s
    · rw [drive_eject, if_neg fun e => other_ne id e.1.symm]
      exact h.mapped.apart id s (presents_eq_true_of hs hi)
  refine ⟨hslots, ?_⟩
  rw [content_of_hidden hhidden (hslots ▸ himage)]
  exact hd hu

open scoped Zip.Reader in
/-- The first disk of a title is written to and ejected, and then taken out of a snapshot from
before. When it is inserted again it has the data from before, and its slot as well. -/
theorem inStep_run_old_snapshot :
    let c := ((new {} ({} : MemoryStore)).loadPlaylist 0
      [(some "one.st", Disk.twoSectors), (some "two.st", Disk.twoSectors)]).1
    let file := c.save.toOption.getD []
    let ops : List Operation := [.save, .write .a ⟨0, 0, 2⟩ [1, 2, 3], .setInserted .a false,
      .restore file, .reinsertAll]
    c.names.Nodup ∧ (∀ op ∈ ops, op.KeepsTitle) ∧ c.RestoresOnly [] ops ∧
      ∃ i, ((c.run ops).drive .a).inserted = some i ∧ i.isModified = false ∧
        i.disk.data = Disk.twoSectors ∧
        ∃ s image, ((c.run ops).drive .a).slot = some s ∧ (c.run ops).slots[s]? = some image ∧
          image.data = i.disk.data ∧
          ∀ keep, ((c.run ops).eject .a keep).slots = (c.run ops).slots ∧
            ((c.run ops).eject .a keep).content s = i.disk.data := by
  intro c file ops
  have hn : c.names.Nodup := by decide +kernel
  have ho : ∀ op ∈ ops, op.KeepsTitle := by simp [ops, Operation.KeepsTitle]
  have hsave : c.save.toOption = some file := by decide +kernel
  have hr : c.RestoresOnly [] ops := by simp [ops, RestoresOnly, savedBy, hsave]
  have hi : ((c.run ops).drive .a).inserted = some
      ⟨⟨"one.st", ⟨.st, .plainSector, Disk.twoSectors, false, some ⟨1, 2⟩, none⟩, true, false⟩,
        ⟨1, 1, 2⟩, true⟩ := by decide +kernel
  exact ⟨hn, ho, hr, _, hi, rfl, rfl, inStep_run _ _ _ ops c rfl hn ho hr .a _ hi rfl⟩

end Catalog

end Diskette
