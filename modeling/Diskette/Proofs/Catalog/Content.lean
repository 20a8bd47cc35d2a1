import Diskette.Proofs.Catalog.Mapping
import Diskette.Proofs.Disk.FirstSector
import Mathlib.Data.List.Infix
import Diskette.Zip.Reader

/-!
# What the guest sees of a slot

The data of a slot is in two places while a drive presents it. As long as the disk may be kept, and
its boot sector is left as it is, the two act as one byte string: it is the data that was loaded,
with all writes made to it since, in order, wherever the disk has been in the meantime.
-/

set_option autoImplicit false

namespace Diskette.Catalog

variable {σ : Type}

def content (c : Catalog σ) (slot : Nat) : Bytes :=
  match DriveId.all.find? (fun id => (c.drive id).presents slot) with
  | some id => ((c.drive id).inserted.map (·.disk.data)).getD []
  | none => ((c.slots[slot]?).map DiskImage.data).getD []

abbrev Writing := Nat × Bytes

def applyWritings (data : Bytes) (ws : List Writing) : Bytes :=
  ws.foldl (fun b w => Bytes.overwrite b w.1 w.2) data

theorem applyWritings_append (data : Bytes) (ws vs : List Writing) :
    applyWritings data (ws ++ vs) = applyWritings (applyWritings data ws) vs :=
  List.foldl_append

/-- What an operation writes to a slot: the data of a write that succeeds, through a drive that
presents the slot. -/
def writings (c : Catalog σ) (slot : Nat) : Operation → List Writing
  | .write id address data =>
    if (c.drive id).presents slot then
      match (c.drive id).sectorOffset address, (c.write id address data).2 with
      | .ok offset, .ok () => [(offset, data)]
      | _, _ => []
    else []
  | _ => []

/-- The operation does not put another image into the slot, nor one out of a snapshot into a
drive. -/
def Operation.Spares (op : Operation) (slot : Nat) : Prop :=
  ¬op.Fills slot ∧ ¬op.Clears ∧ ¬op.Restores

def Keepable (d : Disk) : Prop := d.canPersist = true ∧ (d.encode d.format).isOk = true

def shown (c : Catalog σ) (slot : Nat) (id : DriveId) : Option InsertedDisk :=
  if (c.drive id).slot = some slot then (c.drive id).inserted else none

theorem shown_eq_some_iff {c : Catalog σ} {slot : Nat} {id : DriveId} {i : InsertedDisk} :
    c.shown slot id = some i ↔
      (c.drive id).slot = some slot ∧ (c.drive id).inserted = some i := by
  simp [shown]

theorem shown_eq_none_of_empty {c : Catalog σ} {id : DriveId} (h : (c.drive id).inserted = none)
    (slot : Nat) : c.shown slot id = none := by
  simp [shown, h]

theorem presents_iff_shown {c : Catalog σ} {slot : Nat} {id : DriveId} :
    (c.drive id).presents slot = true ↔ ∃ i, c.shown slot id = some i := by
  simp only [presents_eq_true_iff, shown_eq_some_iff, Drive.isInserted,
    Option.isSome_iff_exists]
  constructor
  · rintro ⟨⟨i, hi⟩, hs⟩
    exact ⟨i, hs, hi⟩
  · rintro ⟨i, hs, hi⟩
    exact ⟨⟨i, hi⟩, hs⟩

theorem shown_setDrive (c : Catalog σ) (slot : Nat) (id j : DriveId) (d : Drive) :
    (c.setDrive id d).shown slot j =
      if j = id then (if d.slot = some slot then d.inserted else none) else c.shown slot j := by
  unfold shown
  rw [drive_setDrive]
  split <;> rfl

theorem Mapped.shown_ne {c : Catalog σ} (h : c.Mapped) {slot : Nat} {id : DriveId}
    {i : InsertedDisk} (hi : c.shown slot id = some i) {j : DriveId} (hj : j ≠ id)
    (k : InsertedDisk) : c.shown slot j ≠ some k := by
  intro hk
  have ha := h.apart id slot (presents_iff_shown.mpr ⟨i, hi⟩)
  rcases eq_or_eq_other id j with rfl | rfl
  · exact hj rfl
  · exact Bool.eq_false_iff.mp ha (presents_iff_shown.mpr ⟨k, hk⟩)

theorem write_cases (c : Catalog σ) (slot : Nat) (id : DriveId) (address : Address)
    (data : Bytes) :
    (c.writings slot (.write id address data) = [] ∧ ∃ e,
      (c.write id address data).1 = c.setDrive id e ∧
      (if e.slot = some slot then e.inserted else none) = c.shown slot id) ∨
    (∃ i timer, c.shown slot id = some i ∧
      i.geometry.offset address + data.length ≤ i.disk.data.length ∧
      c.writings slot (.write id address data) = [(i.geometry.offset address, data)] ∧
      (c.write id address data).1 = c.setDrive id
        { (c.drive id).put (some (i.written (i.geometry.offset address) data)) with
          timer := timer }) := by
  obtain ⟨e, timer, p, rfl, -, -, hw⟩ := write_eq c id address data
  cases hr : ({ c.drive id with timer := timer } : Drive).write address data p with
  | error fault =>
    rw [hr] at hw
    left
    constructor
    · simp [writings, hw]
    · exact ⟨{ c.drive id with timer := timer }, by rw [hw], rfl⟩
  | ok e =>
    rw [hr] at hw
    obtain ⟨-, i, hi, ha, hl, rfl⟩ := Drive.write_eq_ok hr
    have hi : (c.drive id).inserted = some i := hi
    by_cases hs : (c.drive id).slot = some slot
    · have hshown := shown_eq_some_iff.mpr ⟨hs, hi⟩
      right
      refine ⟨i, timer, hshown, hl, ?_, by rw [hw]; rfl⟩
      simp [writings, hw, presents_iff_shown.mpr ⟨i, hshown⟩, Drive.sectorOffset, hi, ha]
    · left
      constructor
      · rw [writings, if_neg]
        intro hp
        exact hs (slot_of_presents hp)
      · refine ⟨_, by rw [hw], ?_⟩
        rw [shown, if_neg hs]
        exact if_neg hs

/-- The slot, or the drive that presents it, holds the disk. -/
structure Holds (c : Catalog σ) (slot : Nat) (d : Disk) : Prop where
  mapped : c.Mapped
  inDrive : ∀ id i, c.shown slot id = some i → i.disk = d ∧ i.okToPersist = true
  inSlot : (∀ id i, c.shown slot id = some i → i.isModified = false) →
    ∃ image, c.slots[slot]? = some image ∧ image.disk = some d

namespace Holds

variable {c c' : Catalog σ} {slot : Nat} {d : Disk}

theorem content_eq (h : c.Holds slot d) : c.content slot = d.data := by
  unfold content
  split
  · rename_i id hf
    have hp : (c.drive id).presents slot = true := by simpa using List.find?_some hf
    obtain ⟨i, hi⟩ := presents_iff_shown.mp hp
    rw [(shown_eq_some_iff.mp hi).2]
    exact congrArg Disk.data (h.inDrive id i hi).1
  · rename_i hf
    have hn : ∀ id i, c.shown slot id ≠ some i := by
      intro id i hi
      exact List.find?_eq_none.mp hf id (by cases id <;> decide) (presents_iff_shown.mpr ⟨i, hi⟩)
    obtain ⟨image, hm, hd⟩ := h.inSlot fun id i hi => absurd hi (hn id i)
    rw [hm]
    simp [DiskImage.data, hd]

theorem of_frame (h : c.Holds slot d) (hm : c'.Mapped)
    (hs : ∀ id, c'.shown slot id = c.shown slot id)
    (hi : ∀ image, c.slots[slot]? = some image → c'.slots[slot]? = some image) :
    c'.Holds slot d where
  mapped := hm
  inDrive id i hi := h.inDrive id i ((hs id).symm.trans hi)
  inSlot hu := by
    obtain ⟨image, hg, hd⟩ := h.inSlot fun id i hi => hu id i ((hs id).trans hi)
    exact ⟨image, hi image hg, hd⟩

theorem setDrive (h : c.Holds slot d) {id : DriveId} {e : Drive} (hm : (c.setDrive id e).Mapped)
    (he : (if e.slot = some slot then e.inserted else none) = c.shown slot id) :
    (c.setDrive id e).Holds slot d := by
  apply h.of_frame hm
  · intro j
    rw [shown_setDrive]
    split
    · rename_i hj
      rw [he, hj]
    · rfl
  · intro image hg
    rwa [slots_setDrive]

theorem written {id : DriveId} {i : InsertedDisk} (h : c.Holds slot i.disk)
    (hi : c.shown slot id = some i) {offset : Nat} {data : Bytes} {timer : SwapTimer}
    (hm : (c.setDrive id
      { (c.drive id).put (some (i.written offset data)) with timer := timer }).Mapped) :
    (c.setDrive id
      { (c.drive id).put (some (i.written offset data)) with timer := timer }).Holds slot
        (i.written offset data).disk := by
  have hs := (shown_eq_some_iff.mp hi).1
  have hshown : ∀ j k, (c.setDrive id
      { (c.drive id).put (some (i.written offset data)) with timer := timer }).shown slot j = some k ↔
      j = id ∧ k = i.written offset data := by
    intro j k
    rw [shown_setDrive]
    split
    · simp_all [eq_comm]
    · rename_i hj
      simp [hj, h.mapped.shown_ne hi hj k]
  constructor
  · exact hm
  · intro j k hk
    rw [((hshown j k).mp hk).2]
    exact ⟨rfl, (h.inDrive id i hi).2⟩
  · intro hu
    exact absurd (hu id _ ((hshown id _).mpr ⟨rfl, rfl⟩)) (by simp [InsertedDisk.written])

variable [SaveStore σ] {op : Operation}

theorem shown_eject (c : Catalog σ) (slot : Nat) (id j : DriveId) (keep : Bool) :
    (c.eject id keep).shown slot j = if j = id then none else c.shown slot j := by
  unfold shown
  rw [slot_eject, inserted_eject]
  split <;> split <;> rfl

theorem slots_eject_of_hidden (hm : c.Mapped) {id : DriveId} (hi : c.shown slot id = none)
    (keep : Bool) : (c.eject id keep).slots[slot]? = c.slots[slot]? := by
  rcases hm.getElem?_slots_eject id keep slot with h | ⟨i, hs, hd, -, -⟩
  · exact h
  · rw [shown_eq_some_iff.mpr ⟨hs, hd⟩] at hi
    cases hi

theorem eject_of_hidden (h : c.Holds slot d) {id : DriveId} (hi : c.shown slot id = none)
    (hm : (c.eject id true).Mapped) : (c.eject id true).Holds slot d := by
  apply h.of_frame hm
  · intro j
    rw [shown_eject]
    split
    · rename_i e
      rw [e, hi]
    · rfl
  · intro image hg
    rw [slots_eject_of_hidden h.mapped hi, hg]

theorem eject_of_shown {i : InsertedDisk} (h : c.Holds slot i.disk) (hk : Keepable i.disk)
    {id : DriveId} (hi : c.shown slot id = some i) (hm : (c.eject id true).Mapped) :
    (c.eject id true).Holds slot i.disk := by
  obtain ⟨hs, hd⟩ := shown_eq_some_iff.mp hi
  have hok : i.okToPersist = true := (h.inDrive id i hi).2
  have hnone : ∀ j k, (c.eject id true).shown slot j ≠ some k := by
    intro j k hj
    rw [shown_eject] at hj
    split at hj
    · cases hj
    · rename_i e
      exact h.mapped.shown_ne hi e k hj
  have hslots : (c.eject id true).slots =
      if i.isKept then c.slots.set slot { i.toImage with isSaved := true } else c.slots := by
    rw [h.mapped.slots_eject id true]
    simp only [slotsAfterEject, hs, hd, Bool.true_and]
  constructor
  · exact hm
  · intro j k hj
    exact absurd hj (hnone j k)
  · intro _
    rw [hslots]
    cases hmod : i.isModified with
    | true =>
      obtain ⟨image, hg, -⟩ := h.mapped.named id slot i hs hd
      have hl := (List.getElem?_eq_some_iff.mp hg).1
      rw [if_pos (by simp [InsertedDisk.isKept, hmod, hok, hk.2])]
      exact ⟨_, List.getElem?_set_self hl, rfl⟩
    | false =>
      rw [if_neg (by simp [InsertedDisk.isKept, hmod])]
      apply h.inSlot
      intro j k hj
      by_cases e : j = id
      · subst e
        rw [hi] at hj
        cases hj
        exact hmod
      · exact absurd hj (h.mapped.shown_ne hi e k)

theorem eject (h : c.Holds slot d) (hk : Keepable d) (id : DriveId)
    (hm : (c.eject id true).Mapped) : (c.eject id true).Holds slot d := by
  cases hi : c.shown slot id with
  | none => exact h.eject_of_hidden hi hm
  | some i =>
    obtain ⟨rfl, -⟩ := h.inDrive id i hi
    exact h.eject_of_shown hk hi hm

omit [SaveStore σ] in
theorem insert (h : c.Holds slot d) (hk : Keepable d) {id : DriveId} {s : Nat} {image : DiskImage}
    {disk : Disk} (he : (c.drive id).inserted = none)
    (hf : (c.drive id.other).presents s = false) (hi : c.slots[s]? = some image)
    (hd : image.disk = some disk)
    (hm : (c.setDrive id
      ((c.drive id).insert s (.ofDisk image.name disk image.isSaved) c.tick)).Mapped) :
    (c.setDrive id
      ((c.drive id).insert s (.ofDisk image.name disk image.isSaved) c.tick)).Holds slot d := by
  by_cases hs : s = slot
  · subst hs
    have hn : ∀ j k, c.shown s j ≠ some k := by
      intro j k hj
      rcases eq_or_eq_other id j with rfl | rfl
      · rw [shown_eq_none_of_empty he] at hj
        cases hj
      · exact Bool.eq_false_iff.mp hf (presents_iff_shown.mpr ⟨k, hj⟩)
    obtain ⟨image', hi', hd'⟩ := h.inSlot fun j k hj => absurd hj (hn j k)
    have hdisk : disk = d := by
      rw [hi] at hi'
      cases hi'
      rw [hd] at hd'
      cases hd'
      rfl
    subst hdisk
    have hshown : ∀ j i, (c.setDrive id ((c.drive id).insert s
        (.ofDisk image.name disk image.isSaved) c.tick)).shown s j = some i →
        i = .ofDisk image.name disk image.isSaved := by
      intro j i hj
      rw [shown_setDrive] at hj
      split at hj
      · simp only [Drive.insert, if_true] at hj
        cases hj
        rfl
      · exact absurd hj (hn j i)
    constructor
    · exact hm
    · intro j i hj
      rw [hshown j i hj]
      exact ⟨rfl, hk.1⟩
    · intro _
      rw [slots_setDrive]
      exact ⟨image, hi, hd⟩
  · apply h.setDrive hm
    rw [shown_eq_none_of_empty he, if_neg]
    simpa [Drive.insert] using hs

theorem change [Zip.Library] (hc : Change op c c') (ho : op.Spares slot)
    (hw : ∀ id a data, op ≠ .write id a data) (hk : Keepable d) (h : c.Holds slot d) :
    c'.Holds slot d := by
  have hm := h.mapped.change hc
  cases hc with
  | eject id keep hkeep =>
    cases keep with
    | true => exact h.eject hk id hm
    | false => exact absurd (hkeep rfl) ho.2.2
  | add hl =>
    apply h.of_frame hm (fun _ => rfl)
    intro image hg
    rw [List.getElem?_append_left (List.getElem?_eq_some_iff.mp hg).1, hg]
  | fill s image hf hi hl hfree =>
    have hne : s ≠ slot := by
      rintro rfl
      exact ho.1 hf
    apply h.of_frame hm (fun _ => rfl)
    intro image' hg
    rw [List.getElem?_set_ne hne]
    exact hg
  | point id s he hl =>
    apply h.setDrive hm
    rw [shown_eq_none_of_empty he]
    simp [he]
  | insert id s image disk he hs hf hi hd hp => exact h.insert hk he hf hi hd hm
  | write id a data e hop he => exact absurd hop (hw id a data)
  | adjust id timer on => exact h.setDrive hm rfl
  | host policy codec tick => exact h.of_frame hm (fun _ => rfl) (fun _ hg => hg)
  | discard hop he hs => exact absurd hop ho.2.1
  | restore id file s taken slot' hop hs he hm' hf => exact absurd (hop ▸ trivial) ho.2.2

theorem write [Zip.Library] (h : c.Holds slot d) (id : DriveId) (address : Address) (data : Bytes) :
    (c.write id address data).1.Holds slot
      { d with data := applyWritings d.data (c.writings slot (.write id address data)) } ∧
    (applyWritings d.data (c.writings slot (.write id address data))).length = d.data.length := by
  have hm : (c.write id address data).1.Mapped := h.mapped.step (.write id address data)
  rcases write_cases c slot id address data with ⟨hn, e, hw, he⟩ | ⟨i, timer, hi, hl, hn, hw⟩
  · rw [hw] at hm ⊢
    rw [hn]
    exact ⟨h.setDrive hm he, rfl⟩
  · obtain ⟨rfl, -⟩ := h.inDrive id i hi
    rw [hw] at hm ⊢
    rw [hn]
    exact ⟨h.written hi hm, Bytes.length_overwrite _ _ _ hl⟩

end Holds

theorem Keepable.withData {d : Disk} {b : Bytes} (hk : Keepable d)
    (hl : b.length = d.data.length) (hb : b.take sectorSize = d.data.take sectorSize) :
    Keepable { d with data := b } := by
  constructor
  · rw [Disk.canPersist_withData hb]
    exact hk.1
  · exact (Disk.isOk_encode_withData d.format hl hb).trans hk.2

variable [SaveStore σ]

theorem Holds.step [Zip.Library] {c : Catalog σ} {slot : Nat} {d : Disk} {op : Operation}
    (h : c.Holds slot d) (hk : Keepable d) (ho : op.Spares slot) :
    (c.step op).1.Holds slot { d with data := applyWritings d.data (c.writings slot op) } ∧
    (applyWritings d.data (c.writings slot op)).length = d.data.length := by
  by_cases hw : ∃ id address data, op = .write id address data
  · obtain ⟨id, address, data, rfl⟩ := hw
    exact h.write id address data
  · have hw : ∀ id address data, op ≠ .write id address data := by
      intro id address data e
      exact hw ⟨id, address, data, e⟩
    have hn : c.writings slot op = [] := by
      cases op <;> first | rfl | exact absurd rfl (hw _ _ _)
    rw [hn]
    constructor
    · exact Changes.keeps (fun _ _ hc (hh : Catalog.Holds _ slot d) => hh.change hc ho hw hk)
        (changes_step c op) h
    · rfl

def runWritings [Zip.Library] (slot : Nat) : Catalog σ → List Operation → List Writing
  | _, [] => []
  | c, op :: ops => c.writings slot op ++ runWritings slot (c.step op).1 ops

theorem Holds.run [Zip.Library] {c : Catalog σ} {slot : Nat} {d : Disk} (ops : List Operation)
    (h : c.Holds slot d) (hk : Keepable d) (ho : ∀ op ∈ ops, op.Spares slot)
    (hb : ∀ ws, ws <+: runWritings slot c ops →
      (applyWritings d.data ws).take sectorSize = d.data.take sectorSize) :
    (c.run ops).Holds slot { d with data := applyWritings d.data (runWritings slot c ops) } := by
  induction ops generalizing c d with
  | nil => exact h
  | cons op ops ih =>
    obtain ⟨hs, hl⟩ := h.step hk (ho op (by simp))
    have hfirst := hb (c.writings slot op) (List.prefix_append _ _)
    have hrest := ih hs (hk.withData hl hfirst) (fun o h => ho o (by simp [h])) (by
      intro ws hws
      rw [← applyWritings_append, hfirst]
      exact hb _ ((List.prefix_append_right_inj _).mpr hws))
    rw [runWritings, applyWritings_append]
    exact hrest

theorem replace_eq_ok [Zip.Library] {c c' : Catalog σ} {slot : Nat} {name : Option String}
    {file : Bytes} (h : c.replace slot name file = (c', .ok ())) :
    ∀ id, (c'.drive id).presents slot = false := by
  unfold replace at h
  split at h
  · simp at h
  · dsimp only at h
    split at h
    · simp only [Prod.mk.injEq] at h
      obtain ⟨rfl, -⟩ := h
      exact presents_ejectFrom_both c slot
    · simp at h

omit [SaveStore σ] in
theorem Holds.of_slot {c : Catalog σ} {slot : Nat} {d : Disk} {image : DiskImage} (hm : c.Mapped)
    (hf : ∀ id, (c.drive id).presents slot = false) (hi : c.slots[slot]? = some image)
    (hd : image.disk = some d) : c.Holds slot d where
  mapped := hm
  inDrive id i hs := by
    have hp := presents_iff_shown.mpr ⟨i, hs⟩
    rw [hf id] at hp
    cases hp
  inSlot _ := ⟨image, hi, hd⟩

/-- After a disk has been loaded into a slot, the data of the slot is the loaded data with all that
was written to the slot since. The disk has to be one that may be kept and can be written in its own
format, and no write may change its boot sector. It does not matter which drives it goes in and out
of, nor what the save store does. -/
theorem content_run [Zip.Library] (policy : Policy) (store : σ) (before ops : List Operation)
    (slot : Nat) (name : Option String) (file : Bytes) (c : Catalog σ) (image : DiskImage)
    (disk : Disk) (hc : ((new policy store).run before).replace slot name file = (c, .ok ()))
    (hi : c.slots[slot]? = some image) (hd : image.disk = some disk)
    (hp : image.canPersist = true) (he : (image.encode disk.format).isOk = true)
    (ho : ∀ op ∈ ops, op.Spares slot)
    (hb : ∀ ws, ws <+: c.runWritings slot ops →
      (applyWritings image.data ws).take sectorSize = image.data.take sectorSize) :
    (c.run ops).content slot = applyWritings image.data (c.runWritings slot ops) := by
  have hdata : image.data = disk.data := by simp [DiskImage.data, hd]
  have hk : Keepable disk := by
    constructor
    · simpa [DiskImage.canPersist, hd] using hp
    · simpa [DiskImage.encode, hd] using he
  have hm : c.Mapped := by
    have h := (changes_step ((new policy store).run before) (.replace slot name file)).keeps
      (fun _ _ hc => Mapped.change hc)
      (run_keeps_of_change (fun _ _ _ hc => Mapped.change hc) _ before (Mapped.new policy store))
    simpa [Catalog.step, hc] using h
  rw [hdata] at hb ⊢
  have h := (Holds.of_slot hm (replace_eq_ok hc) hi hd).run ops hk ho hb
  exact h.content_eq

open scoped Zip.Reader in
/-- Both drives write to a disk in turn, over a save store that refuses every save. -/
theorem content_run_both_drives :
    let filled := ((new {} { isReadOnly := true : MemoryStore }).run [.add]).replace 0 none
      Disk.twoSectors
    let ops : List Operation :=
      [.select .a 0, .setInserted .a true, .write .a ⟨0, 0, 2⟩ [1, 2, 3], .select .b 0,
        .setInserted .b true, .write .b ⟨0, 0, 2⟩ [9], .reinsertAll]
    filled.2 = .ok () ∧ filled.1.runWritings 0 ops = [(512, [1, 2, 3]), (512, [9])] ∧
      (filled.1.run ops).content 0 =
        applyWritings Disk.twoSectors [(512, [1, 2, 3]), (512, [9])] := by
  intro filled ops
  have hw : filled.1.runWritings 0 ops = [(512, [1, 2, 3]), (512, [9])] := by decide +kernel
  obtain ⟨⟨⟩, hr⟩ := exists_of_isOk (show filled.2.isOk = true by decide +kernel)
  have hi : filled.1.slots[0]? = some ⟨namelessImage 0,
      some ⟨.st, .plainSector, Disk.twoSectors, false, none, none⟩, false⟩ := by decide +kernel
  have hb : ∀ ws ∈ [((512 : Nat), ([1, 2, 3] : Bytes)), (512, [9])].inits,
      (applyWritings Disk.twoSectors ws).take sectorSize = Disk.twoSectors.take sectorSize := by
    decide +kernel
  have hc : filled = (filled.1, .ok ()) := by rw [← hr]
  have h := content_run {} { isReadOnly := true : MemoryStore } [.add] ops 0 none Disk.twoSectors
    filled.1 _ ⟨.st, .plainSector, Disk.twoSectors, false, none, none⟩ hc hi rfl
    (by decide +kernel) (by decide +kernel)
    (by simp [ops, Operation.Spares, Operation.Fills, Operation.Clears, Operation.Restores])
    (by rw [hw]; exact fun ws hws => hb ws ((List.mem_inits _ _).mpr hws))
  rw [hw] at h
  exact ⟨hr, hw, h⟩

end Diskette.Catalog
