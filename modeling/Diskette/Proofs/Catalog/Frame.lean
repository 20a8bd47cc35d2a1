import Diskette.Catalog.Operation

/-!
# What ejecting leaves alone

A disk that leaves its drive does not touch the other drive, the host's settings or the name of any
slot. Its own drive keeps everything but the disk and the phases of the timer.
-/

set_option autoImplicit false

namespace Diskette.Catalog

variable {σ : Type}

def names (c : Catalog σ) : List String := c.slots.map (·.name)

@[simp]
theorem length_names (c : Catalog σ) : c.names.length = c.slots.length := by
  simp [names]

theorem getElem?_names (c : Catalog σ) (s : Nat) :
    c.names[s]? = (c.slots[s]?).map (·.name) := by
  simp [names]

theorem drive_setDrive (c : Catalog σ) (id j : DriveId) (d : Drive) :
    (c.setDrive id d).drive j = if j = id then d else c.drive j := by
  cases id <;> cases j <;> rfl

@[simp]
theorem names_setDrive (c : Catalog σ) (id : DriveId) (d : Drive) :
    (c.setDrive id d).names = c.names := by
  simp [names]

@[simp]
theorem codec_setDrive (c : Catalog σ) (id : DriveId) (d : Drive) :
    (c.setDrive id d).codec = c.codec := by
  cases id <;> rfl

theorem setDrive_drive (c : Catalog σ) (id : DriveId) : c.setDrive id (c.drive id) = c := by
  cases id <;> rfl

theorem setDrive_setDrive (c : Catalog σ) (id : DriveId) (d e : Drive) :
    (c.setDrive id d).setDrive id e = c.setDrive id e := by
  cases id <;> rfl

theorem putBack_eq (c : Catalog σ) (slot : Option Nat) (disk : InsertedDisk) :
    ∃ slots, c.putBack slot disk = { c with slots := slots } ∧
      slots.map (·.name) = c.names := by
  unfold putBack
  split
  · exact ⟨c.slots, rfl, rfl⟩
  · rename_i i
    split
    · exact ⟨c.slots, rfl, rfl⟩
    · rename_i image hs
      split
      · rename_i hn
        refine ⟨_, rfl, ?_⟩
        obtain ⟨hi, rfl⟩ := List.getElem?_eq_some_iff.mp hs
        rw [List.map_set, names]
        apply List.ext_getElem?
        intro k
        rw [List.getElem?_set]
        split
        · subst k
          simp [InsertedDisk.toImage, hi, hn]
        · rfl
      · exact ⟨c.slots, rfl, rfl⟩

theorem mem_slots_putBack {c : Catalog σ} {slot : Option Nat} {disk : InsertedDisk}
    {image : DiskImage} (h : image ∈ (c.putBack slot disk).slots) :
    image ∈ c.slots ∨ image.disk = some disk.disk := by
  unfold putBack at h
  split at h
  · exact .inl h
  · split at h
    · exact .inl h
    · split at h
      · rcases List.mem_or_eq_of_mem_set h with h | rfl
        · exact .inl h
        · exact .inr rfl
      · exact .inl h

variable [SaveStore σ]

theorem persist_eq (c : Catalog σ) (slot : Option Nat) (disk : InsertedDisk) :
    ∃ slots store, c.persist slot disk = { c with slots := slots, store := store } ∧
      slots.map (·.name) = c.names := by
  unfold persist
  split
  · exact ⟨c.slots, c.store, rfl, rfl⟩
  · split
    · exact ⟨c.slots, c.store, rfl, rfl⟩
    · obtain ⟨slots, h, hn⟩ := putBack_eq
        { c with store := if c.policy.saveEnabled then (SaveStore.store c.store disk.name _).1
                          else c.store } slot disk
      exact ⟨slots, _, h, hn⟩

theorem mem_slots_persist {c : Catalog σ} {slot : Option Nat} {disk : InsertedDisk}
    {image : DiskImage} (h : image ∈ (c.persist slot disk).slots) :
    image ∈ c.slots ∨ image.disk = some disk.disk := by
  unfold persist at h
  split at h
  · exact .inl h
  · split at h
    · exact .inl h
    · have hm := mem_slots_putBack h
      exact hm

/-- The drive is empty afterwards; besides, only slots and the store change. -/
theorem eject_eq (c : Catalog σ) (id : DriveId) (keep : Bool) :
    ∃ slots store, c.eject id keep =
        { c.setDrive id (if (c.drive id).isInserted then (c.drive id).eject c.tick
                         else c.drive id) with slots := slots, store := store } ∧
      slots.map (·.name) = c.names := by
  unfold eject
  dsimp only
  split
  · rename_i h
    refine ⟨c.slots, c.store, ?_, rfl⟩
    simp only [Drive.isInserted, h, Option.isSome_none, Bool.false_eq_true, if_false,
      setDrive_drive]
  · rename_i disk h
    simp only [Drive.isInserted, h, Option.isSome_some, if_true]
    split
    · obtain ⟨slots, store, hp, hn⟩ :=
        persist_eq (c.setDrive id ((c.drive id).eject c.tick)) (c.drive id).slot disk
      exact ⟨slots, store, hp, by simpa using hn⟩
    · exact ⟨c.slots, c.store, by cases id <;> rfl, rfl⟩

theorem eject_of_empty {c : Catalog σ} {id : DriveId} (h : (c.drive id).inserted = none)
    (keep : Bool) : c.eject id keep = c := by
  simp [eject, h]

theorem eject_of_inserted {c : Catalog σ} {id : DriveId} {i : InsertedDisk}
    (h : (c.drive id).inserted = some i) (keep : Bool) :
    c.eject id keep =
      if i.isModified = true ∧ keep = true then
        (c.setDrive id ((c.drive id).eject c.tick)).persist (c.drive id).slot i
      else c.setDrive id ((c.drive id).eject c.tick) := by
  simp [eject, h]

theorem eject_of_lost {c : Catalog σ} {id : DriveId} {i : InsertedDisk}
    (hi : (c.drive id).inserted = some i) (h : i.isModified = false ∨ i.okToPersist = false)
    (keep : Bool) : c.eject id keep = c.setDrive id ((c.drive id).eject c.tick) := by
  rw [eject_of_inserted hi]
  rcases h with h | h <;> simp [persist, h]

@[simp]
theorem names_eject (c : Catalog σ) (id : DriveId) (keep : Bool) :
    (c.eject id keep).names = c.names := by
  obtain ⟨slots, store, h, hn⟩ := c.eject_eq id keep
  rw [h]; exact hn

@[simp]
theorem length_slots_eject (c : Catalog σ) (id : DriveId) (keep : Bool) :
    (c.eject id keep).slots.length = c.slots.length := by
  rw [← length_names, names_eject, length_names]

@[simp]
theorem codec_eject (c : Catalog σ) (id : DriveId) (keep : Bool) :
    (c.eject id keep).codec = c.codec := by
  obtain ⟨slots, store, h, -⟩ := c.eject_eq id keep
  rw [h]; exact codec_setDrive c id _

@[simp]
theorem policy_eject (c : Catalog σ) (id : DriveId) (keep : Bool) :
    (c.eject id keep).policy = c.policy := by
  obtain ⟨slots, store, h, -⟩ := c.eject_eq id keep
  rw [h]; exact policy_setDrive c id _

@[simp]
theorem tick_eject (c : Catalog σ) (id : DriveId) (keep : Bool) :
    (c.eject id keep).tick = c.tick := by
  obtain ⟨slots, store, h, -⟩ := c.eject_eq id keep
  rw [h]; exact tick_setDrive c id _

theorem drive_eject (c : Catalog σ) (id j : DriveId) (keep : Bool) :
    (c.eject id keep).drive j =
      if j = id ∧ (c.drive id).isInserted then (c.drive id).eject c.tick else c.drive j := by
  obtain ⟨slots, store, h, -⟩ := c.eject_eq id keep
  rw [h]
  change (c.setDrive id _).drive j = _
  rw [drive_setDrive]
  by_cases hj : j = id
  · subst hj
    simp
  · simp [hj]

@[simp]
theorem slot_eject (c : Catalog σ) (id j : DriveId) (keep : Bool) :
    ((c.eject id keep).drive j).slot = (c.drive j).slot := by
  rw [drive_eject]
  split
  · rename_i h
    rw [h.1]; rfl
  · rfl

@[simp]
theorem inserted_eject (c : Catalog σ) (id j : DriveId) (keep : Bool) :
    ((c.eject id keep).drive j).inserted = if j = id then none else (c.drive j).inserted := by
  rw [drive_eject]
  by_cases hj : j = id
  · subst hj
    cases h : (c.drive j).inserted <;> simp [Drive.isInserted, h]
  · simp [hj]

theorem inserted_of_eject {c : Catalog σ} {id j : DriveId} {keep : Bool} {i : InsertedDisk}
    (h : ((c.eject id keep).drive j).inserted = some i) :
    j ≠ id ∧ (c.drive j).inserted = some i := by
  rw [inserted_eject] at h
  by_cases hj : j = id
  · rw [if_pos hj] at h
    cases h
  · rw [if_neg hj] at h
    exact ⟨hj, h⟩

theorem mem_slots_eject {c : Catalog σ} {id : DriveId} {keep : Bool} {image : DiskImage}
    (h : image ∈ (c.eject id keep).slots) :
    image ∈ c.slots ∨ ∃ i, (c.drive id).inserted = some i ∧ image.disk = some i.disk := by
  unfold eject at h
  dsimp only at h
  split at h
  · exact .inl h
  · rename_i i hi
    split at h
    · rcases mem_slots_persist h with h | hd
      · rw [slots_setDrive] at h
        exact .inl h
      · exact .inr ⟨i, hi, hd⟩
    · rw [slots_setDrive] at h
      exact .inl h

end Diskette.Catalog
