import Diskette.Proofs.Catalog.Mapping
import Diskette.Proofs.Disk.FirstSector
import Diskette.Zip.Reader

/-!
# Insertions that are refused

A drive that presents a slot has taken its disk from there, so the slot holds a disk as long as
nothing is restored. An insertion that is refused then changes nothing. A restored snapshot may put a
disk over a slot that holds none, under whose name it was saved; that disk leaves its drive when the
other drive is to take the slot, and the insertion is refused all the same.
-/

set_option autoImplicit false

namespace Diskette

theorem Disk.isPopulated_of_encode {d : Disk} {f : Format} (h : (d.encode f).isOk = true) :
    d.isPopulated = true :=
  (isOk_encode_iff.mp h).2.1

namespace Catalog

variable {σ : Type}

def Stocked (c : Catalog σ) (s : Nat) : Prop :=
  ∃ image, c.slots[s]? = some image ∧ image.isPopulated = true

theorem isPopulated_of_filter_eq_none {image : DiskImage}
    (h : image.disk.filter Disk.isPopulated = none) : image.isPopulated = false := by
  unfold DiskImage.isPopulated
  cases hd : image.disk with
  | none => rfl
  | some d =>
    rw [hd, Option.filter_eq_none_iff] at h
    simpa using h

variable [SaveStore σ]

theorem insert_eq_error {c c' : Catalog σ} {id : DriveId} {fault : Fault}
    (h : c.insert id = (c', .error fault)) :
    (fault = .noImageSelected ∧ c' = c) ∨
      fault = .imageUnavailable ∧ ∃ s, (c.drive id).slot = some s ∧
        c' = c.ejectFrom s id.other ∧ ¬c'.Stocked s := by
  unfold insert at h
  split at h
  · cases h
  · split at h
    · cases h
      exact .inl ⟨rfl, rfl⟩
    · rename_i s hs
      right
      dsimp only at h
      split at h
      · rename_i hg
        cases h
        refine ⟨rfl, s, hs, rfl, ?_⟩
        rintro ⟨image, hi, -⟩
        rw [hg] at hi
        cases hi
      · rename_i image hg
        split at h
        · rename_i hn
          cases h
          refine ⟨rfl, s, hs, rfl, ?_⟩
          rintro ⟨image', hi, hp⟩
          rw [hg] at hi
          cases hi
          rw [isPopulated_of_filter_eq_none hn] at hp
          cases hp
        · cases h

theorem eject_of_not_isKept {c : Catalog σ} {id : DriveId} {i : InsertedDisk}
    (hi : (c.drive id).inserted = some i) (h : i.isKept = false) (keep : Bool) :
    c.eject id keep = c.setDrive id ((c.drive id).eject c.tick) := by
  rw [eject_of_inserted hi]
  split
  · rename_i hm
    unfold persist
    cases hk : i.okToPersist with
    | false => rfl
    | true =>
      cases he : i.disk.encode i.disk.format with
      | error fault => rfl
      | ok file =>
        rw [InsertedDisk.isKept, hm.1, hk, he] at h
        cases h
  · rfl

namespace Mapped

variable {c : Catalog σ}

theorem stocked_eject (h : c.Mapped) {s : Nat} (hs : c.Stocked s) (id : DriveId) (keep : Bool) :
    (c.eject id keep).Stocked s := by
  obtain ⟨image, hi, hp⟩ := hs
  rcases h.getElem?_slots_eject id keep s with he | ⟨i, -, -, hk, he⟩
  · exact ⟨image, he.trans hi, hp⟩
  · simp only [InsertedDisk.isKept, Bool.and_eq_true] at hk
    exact ⟨_, he, Disk.isPopulated_of_encode hk.2⟩

theorem stocked_eject_of_isKept (h : c.Mapped) {id : DriveId} {s : Nat} {i : InsertedDisk}
    (hs : (c.drive id).slot = some s) (hi : (c.drive id).inserted = some i)
    (hk : i.isKept = true) : (c.eject id true).Stocked s := by
  unfold Stocked
  rw [h.slots_eject]
  simp only [slotsAfterEject, hs, hi, Bool.true_and, hk, if_true]
  simp only [InsertedDisk.isKept, Bool.and_eq_true] at hk
  exact ⟨_, List.getElem?_set_self (h.inRange id s hs), Disk.isPopulated_of_encode hk.2⟩

end Mapped

/-- No drive presents a slot that holds no disk. -/
structure Supplied (c : Catalog σ) : Prop where
  mapped : c.Mapped
  stocked : ∀ id s, (c.drive id).presents s = true → c.Stocked s

namespace Supplied

variable {c c' : Catalog σ} {op : Operation}

omit [SaveStore σ] in
theorem new (policy : Policy) (store : σ) : (Catalog.new policy store).Supplied where
  mapped := .new policy store
  stocked id s hp := by cases id <;> cases hp

omit [SaveStore σ] in
theorem of_frame (h : c.Supplied) (hm : c'.Mapped)
    (hd : ∀ id s, (c'.drive id).presents s = true → (c.drive id).presents s = true)
    (hs : ∀ id s, (c.drive id).presents s = true → c.Stocked s → c'.Stocked s) :
    c'.Supplied where
  mapped := hm
  stocked id s hp := hs id s (hd id s hp) (h.stocked id s (hd id s hp))

omit [SaveStore σ] in
theorem setDrive (h : c.Supplied) {id : DriveId} {d : Drive} (hm : (c.setDrive id d).Mapped)
    (hd : ∀ s, d.presents s = true → c.Stocked s) : (c.setDrive id d).Supplied where
  mapped := hm
  stocked j s hp := by
    unfold Stocked
    rw [slots_setDrive]
    rw [drive_setDrive] at hp
    split at hp
    · exact hd s hp
    · exact h.stocked j s hp

theorem change [Zip.Library] (hc : Change op c c') (ho : ¬op.Restores) (h : c.Supplied) :
    c'.Supplied := by
  have hm := h.mapped.change hc
  cases hc with
  | eject id keep hk =>
    apply h.of_frame hm
    · intro j s hp
      rw [drive_eject] at hp
      split at hp
      · rw [presents_eq_false_of_empty rfl] at hp
        cases hp
      · exact hp
    · exact fun _ s _ hs => h.mapped.stocked_eject hs id keep
  | add hl =>
    apply h.of_frame hm fun _ _ hp => hp
    rintro id s hp ⟨image, hi, hpop⟩
    exact ⟨image, (List.getElem?_append_left (h.mapped.inRange id s (slot_of_presents hp))).trans hi,
      hpop⟩
  | fill slot image ho hi hl hf =>
    apply h.of_frame hm fun _ _ hp => hp
    rintro id s hp ⟨image', hg, hpop⟩
    have hne : slot ≠ s := by
      rintro rfl
      exact Bool.eq_false_iff.mp (hf id) hp
    exact ⟨image', (List.getElem?_set_ne hne).trans hg, hpop⟩
  | point id slot he hl =>
    apply h.setDrive hm
    intro s hp
    have hf := presents_eq_false_of_empty (d := { c.drive id with slot := slot }) he s
    exact absurd hp (Bool.eq_false_iff.mp hf)
  | insert id slot image disk he hs hf hi hd hp =>
    apply h.setDrive hm
    intro s hps
    cases slot_of_presents hps
    exact ⟨image, hi, by simp [DiskImage.isPopulated, hd, hp]⟩
  | write id address data d ho hd =>
    obtain ⟨-, i, hi, -, -, rfl⟩ := Drive.write_eq_ok hd
    apply h.setDrive hm
    intro s hp
    have hslot : (c.drive id).slot = some s := ((presents_eq_true_iff _ s).mp hp).2
    exact h.stocked id s (presents_eq_true_of hslot hi)
  | adjust id timer on => exact h.setDrive hm (h.stocked id)
  | host policy codec tick => exact ⟨hm, h.stocked⟩
  | discard hop he hs =>
    apply Supplied.mk hm
    intro id s hp
    exact absurd hp (Bool.eq_false_iff.mp (presents_eq_false_of_empty (he id) s))
  | restore id file s taken slot hop hs he hmatch hf => exact absurd (hop ▸ trivial) ho

theorem run [Zip.Library] (h : c.Supplied) (ops : List Operation) (ho : ∀ op ∈ ops, ¬op.Restores) :
    (c.run ops).Supplied := by
  induction ops generalizing c with
  | nil => exact h
  | cons op ops ih =>
    have hstep : (c.step op).1.Supplied :=
      (changes_step c op).keeps (fun _ _ hc => change hc (ho op (by simp))) h
    exact ih hstep fun o hm => ho o (by simp [hm])

end Supplied

/-- Nothing happens, or the other drive presents the selected slot, which holds no disk, and loses
its disk with all changes. -/
theorem Mapped.insert_eq_error {c c' : Catalog σ} (hm : c.Mapped) {id : DriveId} {fault : Fault}
    (h : c.insert id = (c', .error fault)) :
    c' = c ∨ ∃ s, (c.drive id).slot = some s ∧ (c.drive id.other).presents s = true ∧
      ¬c.Stocked s ∧ c' = c.setDrive id.other ((c.drive id.other).eject c.tick) := by
  rcases Catalog.insert_eq_error h with ⟨-, rfl⟩ | ⟨-, s, hs, rfl, hempty⟩
  · exact .inl rfl
  · unfold ejectFrom at hempty ⊢
    split
    · rename_i hp
      rw [if_pos hp] at hempty
      right
      obtain ⟨hi, hslot⟩ := (presents_eq_true_iff _ s).mp hp
      obtain ⟨i, hi⟩ := Option.isSome_iff_exists.mp hi
      have hk : i.isKept = false := by
        apply Bool.eq_false_iff.mpr
        intro hk
        exact hempty (hm.stocked_eject_of_isKept hslot hi hk)
      refine ⟨s, hs, hp, ?_, eject_of_not_isKept hi hk true⟩
      intro hstocked
      exact hempty (hm.stocked_eject hstocked id.other true)
    · exact .inl rfl

/-- An insertion that is refused leaves the slots, the save store and its own drive as they are, and
without a restore before it the whole catalog. After a restore the other drive loses its disk if it
presents the selected slot and that holds no disk. -/
theorem setInserted_refused [Zip.Library] (policy : Policy) (store : σ) (ops : List Operation)
    (id : DriveId) {c c' : Catalog σ} {fault : Fault} (hc : c = (Catalog.new policy store).run ops)
    (h : c.setInserted id true = (c', .error fault)) :
    (fault = .noImageSelected ∨ fault = .imageUnavailable) ∧
    c'.slots = c.slots ∧ c'.store = c.store ∧ c'.drive id = c.drive id ∧
    ((∀ op ∈ ops, ¬op.Restores) → c' = c) ∧
    (c' = c ∨ ∃ s, (c.drive id).slot = some s ∧ (c.drive id.other).presents s = true ∧
      ¬c.Stocked s ∧ c' = c.setDrive id.other ((c.drive id.other).eject c.tick)) := by
  have hm : c.Mapped := hc ▸ (Mapped.new policy store).run ops
  have h : c.insert id = (c', .error fault) := h
  have hfault : fault = .noImageSelected ∨ fault = .imageUnavailable :=
    (insert_eq_error h).imp And.left And.left
  have hcases := hm.insert_eq_error h
  have hsupplied (ho : ∀ op ∈ ops, ¬op.Restores) : c.Supplied :=
    hc ▸ (Supplied.new policy store).run ops ho
  refine ⟨hfault, ?_, ?_, ?_, ?_, hcases⟩
  · rcases hcases with rfl | ⟨s, -, -, -, rfl⟩
    · rfl
    · exact slots_setDrive c id.other _
  · rcases hcases with rfl | ⟨s, -, -, -, rfl⟩
    · rfl
    · exact store_setDrive c id.other _
  · rcases hcases with rfl | ⟨s, -, -, -, rfl⟩
    · rfl
    · rw [drive_setDrive, if_neg (other_ne id)]
  · intro ho
    rcases hcases with rfl | ⟨s, -, hp, hempty, -⟩
    · rfl
    · exact absurd ((hsupplied ho).stocked id.other s hp) hempty

open scoped Zip.Reader in
/-- A file that does not decode, in the slot that drive B is to take. The disk in drive A has been
written to, and stays. -/
theorem setInserted_refused_undecoded :
    let ops : List Operation :=
      [.add, .replace 0 none Disk.twoSectors, .select .a 0, .setInserted .a true,
        .write .a ⟨0, 0, 2⟩ [1, 2, 3], .add, .replace 1 (some "game.st") [0], .select .b 1]
    let c := (new {} ({} : MemoryStore)).run ops
    (c.drive .a).isModified = true ∧ ∃ fault,
      c.setInserted .b true = (c, .error fault) ∧
        (fault = .noImageSelected ∨ fault = .imageUnavailable) := by
  intro ops c
  have hm : (c.drive .a).isModified = true := by decide +kernel
  have hfail : (c.setInserted .b true).2.isOk = false := by decide +kernel
  cases hr : c.setInserted .b true with
  | mk c' result =>
    rw [hr] at hfail
    cases result with
    | ok u => cases hfail
    | error fault =>
      obtain ⟨hfault, -, -, -, hsame, -⟩ :=
        setInserted_refused {} ({} : MemoryStore) ops .b rfl hr
      have hc : c' = c := hsame (by simp [ops, Operation.Restores])
      exact ⟨hm, fault, by rw [hc], hfault⟩

open scoped Zip.Reader in
/-- A disk is saved in a snapshot, its slot is filled with a file of the same name that does not
decode, and the snapshot is restored. Then drive B is refused the slot, and drive A is empty. -/
theorem setInserted_refused_loses_disk :
    let c := (new {} ({} : MemoryStore)).run [.add, .replace 0 (some "game.st") Disk.twoSectors,
      .select .a 0, .setInserted .a true]
    let d := c.run [.replace 0 (some "game.st") [0], .restore (c.save.toOption.getD []),
      .select .b 0]
    let e := d.setInserted .b true
    e.2.isOk = false ∧ (d.drive .a).isInserted = true ∧ (e.1.drive .a).isInserted = false := by
  decide +kernel

end Catalog

end Diskette
