import Diskette.Proofs.Catalog.Change

/-!
# Slots and drives

Which slot each drive presents, and under which name. Every operation keeps the two in agreement, a
restored snapshot of any content included. So a disk that is ejected always finds its own slot.
-/

set_option autoImplicit false

namespace Diskette

/-- The disk goes back into its slot when it is ejected: it is changed, its changes may be kept, and
it can be written in its own format. -/
def InsertedDisk.isKept (i : InsertedDisk) : Bool :=
  i.isModified && i.okToPersist && (i.disk.encode i.disk.format).isOk

namespace Catalog

variable {σ : Type}

structure Mapped (c : Catalog σ) : Prop where
  few : c.slots.length ≤ maxSlots
  inRange : ∀ id s, (c.drive id).slot = some s → s < c.slots.length
  /-- No slot is in both drives. -/
  apart : ∀ id s, (c.drive id).presents s = true → (c.drive id.other).presents s = false
  /-- A disk has the name of its slot. -/
  named : ∀ id s disk, (c.drive id).slot = some s → (c.drive id).inserted = some disk →
    ∃ image, c.slots[s]? = some image ∧ image.name = disk.name

/-- The slots once the disk of a drive has left it: the disk is in its slot again if it is kept. No
names are compared. -/
def slotsAfterEject (c : Catalog σ) (id : DriveId) (keep : Bool) : List DiskImage :=
  match (c.drive id).slot, (c.drive id).inserted with
  | some s, some disk =>
    if keep && disk.isKept then c.slots.set s { disk.toImage with isSaved := true } else c.slots
  | _, _ => c.slots

theorem slots_persist_none [SaveStore σ] (c : Catalog σ) (disk : InsertedDisk) :
    (c.persist none disk).slots = c.slots := by
  unfold persist
  split
  · rfl
  · split <;> rfl

theorem slots_persist [SaveStore σ] {c : Catalog σ} {s : Nat} {disk : InsertedDisk}
    {image : DiskImage} (hs : c.slots[s]? = some image) (hn : image.name = disk.name) :
    (c.persist (some s) disk).slots =
      if disk.okToPersist && (disk.disk.encode disk.disk.format).isOk then
        c.slots.set s { disk.toImage with isSaved := true }
      else c.slots := by
  unfold persist
  cases disk.okToPersist with
  | false => rfl
  | true =>
    cases disk.disk.encode disk.disk.format with
    | error fault => rfl
    | ok file => simp [putBack, hs, hn, Except.isOk, Except.toBool]

theorem presents_eq_true_of {d : Drive} {s : Nat} {disk : InsertedDisk} (hs : d.slot = some s)
    (hi : d.inserted = some disk) : d.presents s = true := by
  simp [Drive.presents, Drive.isInserted, hs, hi]

theorem slot_of_presents {d : Drive} {s : Nat} (h : d.presents s = true) : d.slot = some s :=
  ((presents_eq_true_iff d s).mp h).2

theorem eq_or_eq_other (id j : DriveId) : j = id ∨ j = id.other := by
  cases id <;> cases j <;> simp [DriveId.other]

@[simp]
theorem other_other (id : DriveId) : id.other.other = id := by
  cases id <;> rfl

namespace Mapped

theorem new (policy : Policy) (store : σ) : (new policy store).Mapped where
  few := Nat.zero_le _
  inRange id s hs := by cases id <;> cases hs
  apart id s hp := by cases id <;> cases hp
  named id s disk hs := by cases id <;> cases hs

theorem of_frame {c c' : Catalog σ} (h : c.Mapped) (hn : c'.names = c.names)
    (hs : ∀ id, (c'.drive id).slot = (c.drive id).slot)
    (hi : ∀ id disk, (c'.drive id).inserted = some disk →
      ∃ disk', (c.drive id).inserted = some disk' ∧ disk'.name = disk.name) : c'.Mapped := by
  have hl : c'.slots.length = c.slots.length := by
    rw [← length_names, hn, length_names]
  have hp : ∀ id s, (c'.drive id).presents s = true → (c.drive id).presents s = true := by
    intro id s hp
    obtain ⟨hd, hs'⟩ := (presents_eq_true_iff _ s).mp hp
    obtain ⟨disk, hd⟩ := Option.isSome_iff_exists.mp hd
    obtain ⟨disk', hd', -⟩ := hi id disk hd
    exact presents_eq_true_of ((hs id).symm.trans hs') hd'
  constructor
  · exact hl ▸ h.few
  · intro id s hs'
    rw [hl]
    exact h.inRange id s ((hs id).symm.trans hs')
  · intro id s hp'
    have ha := h.apart id s (hp id s hp')
    apply Bool.eq_false_iff.mpr
    intro hp''
    exact Bool.eq_false_iff.mp ha (hp id.other s hp'')
  · intro id s disk hs' hd
    obtain ⟨disk', hd', hname⟩ := hi id disk hd
    obtain ⟨image, hm, himage⟩ := h.named id s disk' ((hs id).symm.trans hs') hd'
    have hm' : c'.names[s]? = some disk.name := by
      rw [hn, getElem?_names, hm, ← hname, ← himage]
      rfl
    rw [getElem?_names] at hm'
    obtain ⟨image', hi', hn'⟩ := Option.map_eq_some_iff.mp hm'
    exact ⟨image', hi', hn'⟩

theorem setDrive {c : Catalog σ} (h : c.Mapped) (id : DriveId) (d : Drive)
    (hs : ∀ s, d.slot = some s → s < c.slots.length)
    (hn : ∀ s disk, d.slot = some s → d.inserted = some disk →
      (c.drive id.other).presents s = false ∧
        ∃ image, c.slots[s]? = some image ∧ image.name = disk.name) :
    (c.setDrive id d).Mapped := by
  constructor
  · simpa using h.few
  · intro j s hj
    rw [slots_setDrive]
    rw [drive_setDrive] at hj
    split at hj
    · exact hs s hj
    · exact h.inRange j s hj
  · intro j s hj
    rcases eq_or_eq_other id j with rfl | rfl
    · rw [drive_setDrive_self] at hj
      rw [drive_setDrive_other]
      obtain ⟨hi, hs'⟩ := (presents_eq_true_iff _ s).mp hj
      obtain ⟨disk, hi⟩ := Option.isSome_iff_exists.mp hi
      exact (hn s disk hs' hi).1
    · rw [drive_setDrive_other] at hj
      rw [other_other, drive_setDrive_self]
      apply Bool.eq_false_iff.mpr
      intro hp
      obtain ⟨hi, hs'⟩ := (presents_eq_true_iff _ s).mp hp
      obtain ⟨disk, hi⟩ := Option.isSome_iff_exists.mp hi
      exact Bool.eq_false_iff.mp (hn s disk hs' hi).1 hj
  · intro j s disk hj hd
    rw [slots_setDrive]
    rw [drive_setDrive] at hj hd
    split at hj
    · rename_i e
      rw [if_pos e] at hd
      exact (hn s disk hj hd).2
    · rename_i e
      rw [if_neg e] at hd
      exact h.named j s disk hj hd

theorem setSlots {c : Catalog σ} (h : c.Mapped) (slots : List DiskImage)
    (hl : slots.length ≤ maxSlots) (hg : c.slots.length ≤ slots.length)
    (hp : ∀ id s, (c.drive id).presents s = true → slots[s]? = c.slots[s]?) :
    ({ c with slots := slots } : Catalog σ).Mapped where
  few := hl
  inRange id s hs := Nat.lt_of_lt_of_le (h.inRange id s hs) hg
  apart id s hs := h.apart id s hs
  named id s disk hs hi := by
    rw [hp id s (presents_eq_true_of hs hi)]
    exact h.named id s disk hs hi

variable [SaveStore σ] {op : Operation}

theorem eject {c : Catalog σ} (h : c.Mapped) (id : DriveId) (keep : Bool) :
    (c.eject id keep).Mapped := by
  apply h.of_frame (by simp) (by simp)
  intro j disk hd
  exact ⟨disk, (inserted_of_eject hd).2, rfl⟩

theorem change [Zip.Library] {c c' : Catalog σ} (hc : Change op c c') (h : c.Mapped) :
    c'.Mapped := by
  cases hc with
  | eject id keep => exact h.eject id keep
  | add hl =>
    apply h.setSlots _ (by simpa using Nat.succ_le_of_lt hl) (by simp)
    intro id s hp
    exact List.getElem?_append_left (h.inRange id s (slot_of_presents hp))
  | fill slot image ho hi hl hf =>
    apply h.setSlots _ (by simpa using h.few) (by simp)
    intro id s hp
    have hne : slot ≠ s := by
      rintro rfl
      exact Bool.eq_false_iff.mp (hf id) hp
    exact List.getElem?_set_ne hne
  | point id slot he hl =>
    apply h.setDrive id _ hl
    intro s disk _ hd
    cases he.symm.trans hd
  | insert id slot image disk he hs hf hi hd hp =>
    apply h.setDrive id
    · intro s hs'
      cases hs'
      exact h.inRange id slot hs
    · intro s i hs' hi'
      cases hs'
      cases hi'
      exact ⟨hf, image, hi, rfl⟩
  | write id a data d ho hd =>
    obtain ⟨-, i, hi, -, -, rfl⟩ := Drive.write_eq_ok hd
    refine h.setDrive id _ (h.inRange id) ?_
    intro s disk hs hd'
    cases hd'
    exact ⟨h.apart id s (presents_eq_true_of hs hi), h.named id s i hs hi⟩
  | adjust id timer on =>
    refine h.setDrive id _ (h.inRange id) ?_
    intro s disk hs hd
    exact ⟨h.apart id s (presents_eq_true_of hs hd), h.named id s disk hs hd⟩
  | host policy codec tick => exact ⟨h.few, h.inRange, h.apart, h.named⟩
  | discard ho he hs =>
    constructor
    · exact Nat.zero_le _
    · intro id s hs'
      exact absurd ((hs id).symm.trans hs') (by simp)
    · exact h.apart
    · intro id s disk hs'
      exact absurd ((hs id).symm.trans hs') (by simp)
  | restore id file s taken slot ho hs he hm hf =>
    have hslot : ∀ t, slot = some t → ∃ image disk, (stateOf s id).inserted = some disk ∧
        c.slots[t]? = some image ∧ image.name = disk.name := by
      intro t ht
      obtain ⟨disk, hd, ht⟩ := Option.bind_eq_some_iff.mp (hm.symm.trans ht)
      obtain ⟨image, hi, hn⟩ := name_of_slotOf? ht
      exact ⟨image, disk, hd, hi, hn⟩
    unfold restoreDrive
    dsimp only
    split
    · exact h.setDrive id _ (h.inRange id) fun _ _ _ hd => by cases hd
    · rename_i disk hd
      apply h.setDrive id
      · intro t ht
        obtain ⟨image, -, -, hi, -⟩ := hslot t ht
        exact (List.getElem?_eq_some_iff.mp hi).1
      · intro t disk' ht hd'
        obtain ⟨image, disk'', hd'', hi, hn⟩ := hslot t ht
        rw [hd] at hd''
        cases hd''
        cases hd'
        exact ⟨hf t ht, image, hi, hn⟩

theorem step [Zip.Library] {c : Catalog σ} (h : c.Mapped) (op : Operation) : (c.step op).1.Mapped :=
  (changes_step c op).keeps (fun _ _ => change) h

theorem run [Zip.Library] {c : Catalog σ} (h : c.Mapped) (ops : List Operation) :
    (c.run ops).Mapped :=
  run_keeps_of_change (fun _ _ _ => change) c ops h

theorem slots_eject {c : Catalog σ} (h : c.Mapped) (id : DriveId) (keep : Bool) :
    (c.eject id keep).slots = c.slotsAfterEject id keep := by
  unfold Catalog.eject slotsAfterEject
  dsimp only
  cases hi : (c.drive id).inserted with
  | none => cases (c.drive id).slot <;> rfl
  | some disk =>
    cases hs : (c.drive id).slot with
    | none =>
      dsimp only
      split
      · rw [slots_persist_none, slots_setDrive]
      · exact slots_setDrive c id _
    | some s =>
      obtain ⟨image, hm, hn⟩ := h.named id s disk hs hi
      have hp := slots_persist (c := c.setDrive id ((c.drive id).eject c.tick))
        (by rwa [slots_setDrive]) hn
      by_cases hk : disk.isModified = true ∧ keep = true
      · simpa [InsertedDisk.isKept, hk.1, hk.2] using hp
      · dsimp only
        rw [if_neg (by simpa using hk), slots_setDrive, if_neg]
        simp only [InsertedDisk.isKept, Bool.and_eq_true]
        exact fun h => hk ⟨h.2.1.1, h.1⟩

theorem getElem?_slots_eject {c : Catalog σ} (h : c.Mapped) (id : DriveId) (keep : Bool)
    (s : Nat) :
    (c.eject id keep).slots[s]? = c.slots[s]? ∨
      ∃ i, (c.drive id).slot = some s ∧ (c.drive id).inserted = some i ∧ i.isKept = true ∧
        (c.eject id keep).slots[s]? = some { i.toImage with isSaved := true } := by
  rw [h.slots_eject]
  unfold slotsAfterEject
  split
  · rename_i t i hs hi
    split
    · rename_i hk
      simp only [Bool.and_eq_true] at hk
      by_cases ht : t = s
      · subst ht
        exact .inr ⟨i, hs, hi, hk.2, List.getElem?_set_self (h.inRange id t hs)⟩
      · exact .inl (List.getElem?_set_ne ht)
    · exact .inl rfl
  · exact .inl rfl

end Mapped

variable [SaveStore σ]

/-- At every moment of every run the slots and the drives agree, and so a disk that is ejected, in
the middle of any operation too, goes back into the slot it came from and into no other. -/
theorem run_mapped [Zip.Library] (policy : Policy) (store : σ) (ops : List Operation) :
    ((new policy store).run ops).Mapped ∧
      ∀ op, Changes op ((new policy store).run ops) (((new policy store).run ops).step op).1 ∧
        ∀ c, Changes op ((new policy store).run ops) c →
          c.Mapped ∧ ∀ id keep, (c.eject id keep).slots = c.slotsAfterEject id keep := by
  have h : ((new policy store).run ops).Mapped :=
    run_keeps_of_change (fun _ _ _ hc => Mapped.change hc) _ ops (Mapped.new policy store)
  refine ⟨h, fun op => ⟨changes_step _ op, ?_⟩⟩
  intro c hc
  have hc : c.Mapped := hc.keeps (fun _ _ hc => Mapped.change hc) h
  exact ⟨hc, hc.slots_eject⟩

end Catalog

end Diskette
