import Diskette.Proofs.Catalog.RoundTrip
import Diskette.Proofs.Snapshot.Extent

/-!
# What a restore depends on

Whether a file is accepted is decided by a front of it alone, in the same way for all catalogs, and a
file that is refused changes nothing. A snapshot takes the place of what the drives held and of the
disk changes under way; unless disks are kept on a restore, nothing of these is left anywhere.
-/

set_option autoImplicit false

namespace Diskette.Catalog

open Snapshot

section Files

variable {τ : Type} [SaveStore τ]

theorem restore_of_refused {file : Bytes} (h : ∀ s, ofBytes file ≠ .ok s) (d : Catalog τ) :
    ∃ cause, d.restore file = (d, .error (.snapshot cause)) := by
  unfold restore
  cases hr : ofBytes file with
  | ok s => exact absurd hr (h s)
  | error fault =>
    unfold ofBytes at hr
    split at hr
    · cases hr
    · rename_i cause _
      cases hr
      exact ⟨cause, rfl⟩

/-- A file is refused by all catalogs, which it does not change, or accepted by all. If it is
accepted, then because of its first `n` bytes: with another end it has the same effect, and no
shorter part of it is accepted. A file that a catalog saved is needed in full. -/
theorem restore_accepts_or_refuses (file : Bytes) :
    (∃ n ≤ file.length,
      (∀ file' : Bytes, file'.take n = file.take n → ∀ (τ : Type) [SaveStore τ] (d : Catalog τ),
        (d.restore file').2 = .ok () ∧ d.restore file' = d.restore file) ∧
      (∀ m < n, ∀ (τ : Type) [SaveStore τ] (d : Catalog τ),
        ∃ cause, d.restore (file.take m) = (d, .error (.snapshot cause))) ∧
      ∀ (τ : Type) (d : Catalog τ), d.save = .ok file → n = file.length) ∨
    ∀ (τ : Type) [SaveStore τ] (d : Catalog τ),
      ∃ cause, d.restore file = (d, .error (.snapshot cause)) := by
  cases hr : ofBytes file with
  | error fault =>
    right
    intro τ _ d
    exact restore_of_refused (by simp [hr]) d
  | ok s =>
    left
    obtain ⟨n, hn⟩ := exists_extent hr
    refine ⟨n, hn.le_length, ?_, ?_, ?_⟩
    · intro file' hf τ _ d
      rw [restore_eq_ok d (hn.same file' hf), restore_eq_ok d hr]
      exact ⟨rfl, rfl⟩
    · intro m hm τ _ d
      exact restore_of_refused (hn.cut m hm) d
    · intro τ d hd
      exact hn.eq (extent_of_bytes hd hr)

/-- A snapshot of a disk in drive A. A byte behind it does not matter, and none of its own may be
missing. -/
theorem restore_accepts_or_refuses_saved_disk :
    let disk := InsertedDisk.ofDisk "A.ST" ⟨.st, .plainSector, Disk.twoSectors, false, none, none⟩
      false
    let c := { new {} ({} : MemoryStore) with driveA := Drive.put { slot := some 0 } (some disk) }
    let file := c.save.toOption.getD []
    (c.restore file).2 = .ok () ∧ c.restore (file ++ [0]) = c.restore file ∧
      ∀ m < file.length, ∃ cause, c.restore (file.take m) = (c, .error (.snapshot cause)) := by
  intro disk c file
  have hsave : c.save = .ok file := eq_ok_of_toOption (by decide +kernel)
  have hok : (c.restore file).2 = .ok () := by decide +kernel
  clear_value file
  rcases restore_accepts_or_refuses file with ⟨n, -, hsame, hcut, hsaved⟩ | hrefused
  · have hn : n = file.length := hsaved MemoryStore c hsave
    have hfront : (file ++ [0]).take n = file.take n := by
      rw [hn, List.take_left, List.take_length]
    refine ⟨hok, (hsame _ hfront MemoryStore c).2, fun m hm => ?_⟩
    exact hcut m (hn ▸ hm) MemoryStore c
  · obtain ⟨cause, h⟩ := hrefused MemoryStore c
    rw [h] at hok
    cases hok

end Files

variable {σ : Type}

/-- The catalogs differ in their drives and ticks only, and the drives are set alike. -/
structure Alike (c d : Catalog σ) : Prop where
  policy : d.policy = c.policy
  slots : d.slots = c.slots
  codec : d.codec = c.codec
  store : d.store = c.store
  isWriteProtected : ∀ id, (d.drive id).isWriteProtected = (c.drive id).isWriteProtected
  delay : ∀ id, (d.drive id).timer.delay = (c.drive id).timer.delay

theorem eq_of_drives {c d : Catalog σ} (h : c.Alike d) (ht : d.tick = c.tick)
    (hd : ∀ id, d.drive id = c.drive id) : d = c := by
  obtain ⟨hp, hs, hc, hst, -, -⟩ := h
  have ha : d.driveA = c.driveA := hd .a
  have hb : d.driveB = c.driveB := hd .b
  cases c
  cases d
  cases hp
  cases hs
  cases hc
  cases hst
  cases ht
  cases ha
  cases hb
  rfl

namespace Alike

variable {c d e : Catalog σ}

theorem refl (c : Catalog σ) : c.Alike c :=
  ⟨rfl, rfl, rfl, rfl, fun _ => rfl, fun _ => rfl⟩

theorem trans (h : c.Alike d) (h' : d.Alike e) : c.Alike e where
  policy := h'.policy.trans h.policy
  slots := h'.slots.trans h.slots
  codec := h'.codec.trans h.codec
  store := h'.store.trans h.store
  isWriteProtected id := (h'.isWriteProtected id).trans (h.isWriteProtected id)
  delay id := (h'.delay id).trans (h.delay id)

theorem symm (h : c.Alike d) : d.Alike c where
  policy := h.policy.symm
  slots := h.slots.symm
  codec := h.codec.symm
  store := h.store.symm
  isWriteProtected id := (h.isWriteProtected id).symm
  delay id := (h.delay id).symm

theorem setDrive {id : DriveId} {x : Drive}
    (hp : x.isWriteProtected = (c.drive id).isWriteProtected)
    (hd : x.timer.delay = (c.drive id).timer.delay) : c.Alike (c.setDrive id x) := by
  constructor
  · exact policy_setDrive c id x
  · exact slots_setDrive c id x
  · exact codec_setDrive c id x
  · exact store_setDrive c id x
  · intro j
    rw [drive_setDrive]
    split
    · rename_i hj
      rw [hp, hj]
    · rfl
  · intro j
    rw [drive_setDrive]
    split
    · rename_i hj
      rw [hd, hj]
    · rfl

end Alike

variable [SaveStore σ] {c d : Catalog σ}

theorem alike_eject (c : Catalog σ) (id : DriveId) : c.Alike (c.eject id false) := by
  cases hi : (c.drive id).inserted with
  | none =>
    rw [eject_of_empty hi]
    exact .refl c
  | some i =>
    rw [eject_of_inserted hi, if_neg (by simp)]
    exact .setDrive rfl (SwapTimer.delay_schedule ..)

theorem alike_restoreDrive (c : Catalog σ) (id : DriveId) (s : DriveState) (slot : Option Nat) :
    c.Alike (c.restoreDrive id s slot) := by
  rw [restoreDrive_eq_setDrive]
  exact .setDrive (Drive.isWriteProtected_put (c.drive id) _) rfl

theorem drive_restoreDrive_congr (h : c.Alike d) {id : DriveId} {s : DriveState}
    (hslot : s.inserted = none → (d.drive id).slot = (c.drive id).slot) (slot : Option Nat) :
    (d.restoreDrive id s slot).drive id = (c.restoreDrive id s slot).drive id := by
  have hsave : ∀ i, d.hasSave i slot = c.hasSave i slot := fun i =>
    hasSave_congr h.slots h.store i slot
  rw [restoreDrive_eq_setDrive, restoreDrive_eq_setDrive, drive_setDrive_self, drive_setDrive_self]
  dsimp only
  simp only [hsave, Drive.isWriteProtected_put, h.isWriteProtected, h.delay]
  cases hi : s.inserted with
  | none =>
    rw [hslot hi]
    rfl
  | some disk => rfl

theorem Alike.restoreDrive (h : c.Alike d) (id : DriveId) (s : DriveState) (slot : Option Nat) :
    (c.restoreDrive id s slot).Alike (d.restoreDrive id s slot) :=
  ((alike_restoreDrive c id s slot).symm.trans h).trans (alike_restoreDrive d id s slot)

theorem restoreDrives_congr (h : c.Alike d) (ht : d.tick = c.tick) {s : Snapshot}
    (hslot : ∀ id, (stateOf s id).inserted = none → (d.drive id).slot = (c.drive id).slot)
    (slotA slotB : Option Nat) :
    (d.restoreDrive .a s.driveA slotA).restoreDrive .b s.driveB slotB =
      (c.restoreDrive .a s.driveA slotA).restoreDrive .b s.driveB slotB := by
  have ha := h.restoreDrive .a s.driveA slotA
  apply eq_of_drives (ha.restoreDrive .b s.driveB slotB)
  · simp only [tick_restoreDrive, ht]
  · intro id
    cases id with
    | a =>
      have hb (e : Catalog σ) : (e.restoreDrive .b s.driveB slotB).drive .a = e.drive .a :=
        drive_restoreDrive_other e .b s.driveB slotB
      rw [hb, hb]
      exact drive_restoreDrive_congr h (hslot .a) slotA
    | b =>
      have hb (e : Catalog σ) : (e.restoreDrive .a s.driveA slotA).drive .b = e.drive .b :=
        drive_restoreDrive_other e .a s.driveA slotA
      refine drive_restoreDrive_congr ha (fun hi => ?_) slotB
      rw [hb, hb, hslot .b hi]

def emptied (c : Catalog σ) (tick : UInt64) : Catalog σ :=
  { (c.eject .a false).eject .b false with tick := tick }

theorem alike_emptied (c : Catalog σ) (tick : UInt64) : c.Alike (c.emptied tick) :=
  ((alike_eject c .a).trans (alike_eject _ .b)).trans
    ⟨rfl, rfl, rfl, rfl, fun id => by cases id <;> rfl, fun id => by cases id <;> rfl⟩

theorem slot_emptied (c : Catalog σ) (tick : UInt64) (id : DriveId) :
    ((c.emptied tick).drive id).slot = (c.drive id).slot := by
  have h : (((c.eject .a false).eject .b false).drive id).slot = (c.drive id).slot := by simp
  exact .trans (by cases id <;> rfl) h

theorem restoreState_of_not_kept (hk : c.policy.persistOnRestore = false) (s : Snapshot) :
    c.restoreState s =
      ((c.emptied s.tick).restoreDrive .a s.driveA (c.matchSlot? s.driveA none)).restoreDrive .b
        s.driveB (c.matchSlot? s.driveB (c.matchSlot? s.driveA none)) := by
  have hslots := (alike_emptied c s.tick).slots
  rw [← matchSlot?_congr hslots, ← matchSlot?_congr hslots]
  unfold restoreState
  dsimp only
  rw [hk]
  rfl

theorem alike_restoreState (hk : c.policy.persistOnRestore = false) (s : Snapshot) :
    c.Alike (c.restoreState s) := by
  rw [restoreState_of_not_kept hk]
  exact ((alike_emptied c s.tick).trans (alike_restoreDrive ..)).trans (alike_restoreDrive ..)

theorem restoreState_congr (hk : c.policy.persistOnRestore = false) (h : c.Alike d) {s : Snapshot}
    (hslot : ∀ id, (stateOf s id).inserted = none → (d.drive id).slot = (c.drive id).slot) :
    d.restoreState s = c.restoreState s := by
  rw [restoreState_of_not_kept hk, restoreState_of_not_kept (h.policy ▸ hk),
    matchSlot?_congr h.slots, matchSlot?_congr h.slots]
  apply restoreDrives_congr
  · exact (alike_emptied c s.tick).symm.trans (h.trans (alike_emptied d s.tick))
  · rfl
  · intro id hi
    rw [slot_emptied, slot_emptied, hslot id hi]

theorem slot_restoreDrive_of_empty (c : Catalog σ) (id : DriveId) {s : DriveState}
    (hi : s.inserted = none) (slot : Option Nat) :
    ((c.restoreDrive id s slot).drive id).slot = (c.drive id).slot := by
  rw [restoreDrive_eq_setDrive, drive_setDrive_self, hi]
  rfl

theorem slot_restoreState (hk : c.policy.persistOnRestore = false) {s : Snapshot} {id : DriveId}
    (hi : (stateOf s id).inserted = none) :
    ((c.restoreState s).drive id).slot = (c.drive id).slot := by
  have hother (c : Catalog σ) (id : DriveId) (s : DriveState) (slot : Option Nat) :=
    congrArg Drive.slot (drive_restoreDrive_other c id s slot)
  rw [restoreState_of_not_kept hk, ← slot_emptied c s.tick id]
  cases id with
  | a => exact (hother _ .b _ _).trans (slot_restoreDrive_of_empty _ .a hi _)
  | b => exact (slot_restoreDrive_of_empty _ .b hi _).trans (hother _ .a _ _)

/-- A restore that keeps nothing of the disks that leave forgets what the drives held, which disk
changes were under way and which tick it was: over catalogs that differ in nothing else the same
snapshot gives the same catalog, with the slots and the save store as they were. Restored once more,
it changes nothing. -/
theorem restore_congr {file : Bytes} (hk : c.policy.persistOnRestore = false)
    (hf : (c.restore file).2 = .ok ()) (h : c.Alike d)
    (hslot : ∀ id, (d.drive id).slot = (c.drive id).slot) :
    d.restore file = c.restore file ∧
      (c.restore file).1.slots = c.slots ∧ (c.restore file).1.store = c.store ∧
      (c.restore file).1.restore file = c.restore file := by
  obtain ⟨s, hs⟩ := exists_snapshot_of_restore hf
  have hr := alike_restoreState hk s
  have hd : d.restoreState s = c.restoreState s := restoreState_congr hk h fun id _ => hslot id
  -- The slots that the drives are given are found again, as the slots are what they were.
  have hagain : (c.restoreState s).restoreState s = c.restoreState s :=
    restoreState_congr hk hr fun _ hi => slot_restoreState hk hi
  rw [restore_eq_ok d hs, restore_eq_ok c hs, restore_eq_ok _ hs, hd, hagain]
  exact ⟨rfl, hr.slots, hr.store, rfl⟩

/-- One catalog holds the disk after a write, another one has just ejected it. -/
theorem restore_congr_written_ejected :
    let disk := InsertedDisk.ofDisk "A.ST" ⟨.st, .plainSector, Disk.twoSectors, false, none, none⟩
      false
    let base := { new {} ({} : MemoryStore) with slots := [disk.toImage] }
    let holding (i : InsertedDisk) := base.setDrive .a (Drive.put { slot := some 0 } (some i))
    let file := (holding disk).save.toOption.getD []
    let c := holding (disk.written 512 [1, 2, 3])
    let d := (base.setDrive .a (Drive.eject { slot := some 0 } 500)).setTick 500
    c.driveA.isModified = true ∧ d.driveA.isInserted = false ∧ d.driveA.timer ≠ c.driveA.timer ∧
      (c.restore file).2 = .ok () ∧ d.restore file = c.restore file ∧
      (c.restore file).1.restore file = c.restore file := by
  intro disk base holding file c d
  have hf : (c.restore file).2 = .ok () := by decide +kernel
  have h : c.Alike d :=
    ⟨rfl, rfl, rfl, rfl, fun id => by cases id <;> rfl, fun id => by cases id <;> rfl⟩
  obtain ⟨hd, -, -, hagain⟩ := restore_congr rfl hf h fun id => by cases id <;> rfl
  exact ⟨rfl, rfl, by decide +kernel, hf, hd, hagain⟩

end Diskette.Catalog
