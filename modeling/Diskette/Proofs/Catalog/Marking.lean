import Diskette.Proofs.Catalog.Persistence
import Diskette.Zip.Reader

/-!
# Restored disks that have a save

A restored disk has to be saved again if there is a save of it, or the save would outlive what was
restored. It counts as changed for that reason if its slot holds a saved copy, or, without a slot, if
the save store has a save of its name. A save in the store is not looked for if there is a slot.
-/

set_option autoImplicit false

namespace Diskette.Catalog

variable {σ : Type}

theorem first_of_slotOf? {c : Catalog σ} {name : String} {taken : Option Nat} {k : Nat}
    (h : c.slotOf? name taken = some k) :
    c.names[k]? = some name ∧ ∀ l < k, c.names[l]? = some name → taken = some l := by
  constructor
  · obtain ⟨image, hi, hn⟩ := name_of_slotOf? h
    rw [getElem?_names, hi, ← hn]
    rfl
  · intro l hl hname
    obtain ⟨⟨image, i⟩, hf, rfl⟩ := Option.map_eq_some_iff.mp h
    obtain ⟨-, n, hn, heq, hbefore⟩ := List.find?_eq_some_iff_getElem.mp hf
    have hni : n = i := by simpa using congrArg Prod.snd heq
    have hpassed := hbefore l (hni ▸ hl)
    rw [getElem?_names] at hname
    obtain ⟨other, hother, hname⟩ := Option.map_eq_some_iff.mp hname
    obtain ⟨hlt, rfl⟩ := List.getElem?_eq_some_iff.mp hother
    simpa [hname] using hpassed

theorem eq_taken_of_slotOf? {c : Catalog σ} {name : String} {taken : Option Nat}
    (h : c.slotOf? name taken = none) (l : Nat) (hname : c.names[l]? = some name) :
    taken = some l := by
  rw [getElem?_names] at hname
  obtain ⟨image, hi, hname⟩ := Option.map_eq_some_iff.mp hname
  have hmem : (image, l) ∈ c.slots.zipIdx := List.mem_zipIdx_iff_getElem?.mpr hi
  have hpassed := List.find?_eq_none.mp (Option.map_eq_none_iff.mp h) _ hmem
  simpa [hname] using hpassed

/-- The first slot of a name, but for one that the other drive presents. -/
structure IsFirst (c : Catalog σ) (id : DriveId) (name : String) (k : Nat) : Prop where
  named : c.names[k]? = some name
  free : (c.drive id.other).presents k = false
  passed : ∀ l < k, c.names[l]? = some name → (c.drive id.other).presents l = true

theorem IsFirst.eq {c : Catalog σ} {id : DriveId} {name : String} {k l : Nat}
    (hk : c.IsFirst id name k) (hl : c.IsFirst id name l) : k = l := by
  rcases Nat.lt_trichotomy k l with hlt | heq | hlt
  · have hp := hl.passed k hlt hk.named
    rw [hk.free] at hp
    cases hp
  · exact heq
  · have hp := hk.passed l hlt hl.named
    rw [hl.free] at hp
    cases hp

def takenFor (c : Catalog σ) (s : Snapshot) : DriveId → Option Nat
  | .a => none
  | .b => c.matchSlot? s.driveA none

def slotFor (c : Catalog σ) (s : Snapshot) (id : DriveId) : Option Nat :=
  c.matchSlot? (stateOf s id) (c.takenFor s id)

theorem slotFor_congr {c d : Catalog σ} (h : d.slots = c.slots) (s : Snapshot) (id : DriveId) :
    d.slotFor s id = c.slotFor s id := by
  have ht : d.takenFor s id = c.takenFor s id := by
    cases id with
    | a => rfl
    | b => exact matchSlot?_congr h s.driveA none
  rw [slotFor, ht]
  exact matchSlot?_congr h _ _

theorem slotFor_some (c : Catalog σ) {s : Snapshot} {id : DriveId} {i : InsertedDisk}
    (hi : (stateOf s id).inserted = some i) :
    c.slotFor s id = c.slotOf? i.name (c.takenFor s id) := by
  rw [slotFor, matchSlot?, hi, Option.bind_some]

theorem slotFor_none (c : Catalog σ) {s : Snapshot} {id : DriveId}
    (hi : (stateOf s id).inserted = none) : c.slotFor s id = none := by
  rw [slotFor, matchSlot?, hi]
  rfl

theorem slotFor_ne_taken (c : Catalog σ) {s : Snapshot} {id : DriveId} {k : Nat}
    (h : c.slotFor s id = some k) : c.takenFor s id ≠ some k := by
  obtain ⟨i, -, h⟩ := Option.bind_eq_some_iff.mp h
  exact slotOf?_ne_taken h

theorem slotFor_other_ne (c : Catalog σ) {s : Snapshot} {id : DriveId} {k : Nat}
    (h : c.slotFor s id = some k) : c.slotFor s id.other ≠ some k := by
  intro ho
  cases id with
  | a => exact slotFor_ne_taken c ho h
  | b => exact slotFor_ne_taken c h ho

variable [SaveStore σ]

section Both

variable (c : Catalog σ) (s : Snapshot)

theorem slots_restoreState : (c.restoreState s).slots =
    ((c.eject .a c.policy.persistOnRestore).eject .b c.policy.persistOnRestore).slots := by
  simp only [restoreState, slots_restoreDrive]

theorem store_restoreState : (c.restoreState s).store =
    ((c.eject .a c.policy.persistOnRestore).eject .b c.policy.persistOnRestore).store := by
  simp only [restoreState, store_restoreDrive]

theorem exists_restoreDrive (id : DriveId) : ∃ d : Catalog σ,
    d.slots = (c.restoreState s).slots ∧ d.store = (c.restoreState s).store ∧
      (c.restoreState s).drive id =
        (d.restoreDrive id (stateOf s id) ((c.restoreState s).slotFor s id)).drive id := by
  let keep := c.policy.persistOnRestore
  let d : Catalog σ := { (c.eject .a keep).eject .b keep with tick := s.tick }
  have hslots : d.slots = (c.restoreState s).slots := (slots_restoreState c s).symm
  have hstore : d.store = (c.restoreState s).store := (store_restoreState c s).symm
  rw [← slotFor_congr hslots]
  cases id with
  | a => exact ⟨d, hslots, hstore, drive_restoreDrive_other _ .b _ _⟩
  | b =>
    refine ⟨d.restoreDrive .a s.driveA (d.slotFor s .a), ?_, ?_, rfl⟩
    · rw [slots_restoreDrive, hslots]
    · rw [store_restoreDrive, hstore]

end Both

variable {c : Catalog σ} {s : Snapshot} {id : DriveId}

theorem restoreState_some {i : InsertedDisk} (hi : (stateOf s id).inserted = some i) :
    ((c.restoreState s).drive id).slot = (c.restoreState s).slotFor s id ∧
      ((c.restoreState s).drive id).inserted =
        some (i.marked ((c.restoreState s).hasSave i ((c.restoreState s).slotFor s id))) := by
  obtain ⟨d, hslots, hstore, hd⟩ := exists_restoreDrive c s id
  rw [hd, restoreDrive_eq_setDrive, drive_setDrive_self, hi, ← hasSave_congr hslots hstore]
  exact ⟨rfl, rfl⟩

theorem restoreState_none (hi : (stateOf s id).inserted = none) :
    ((c.restoreState s).drive id).inserted = none := by
  obtain ⟨d, -, -, hd⟩ := exists_restoreDrive c s id
  rw [hd, restoreDrive_eq_setDrive, drive_setDrive_self, hi]
  rfl

theorem exists_inserted_of_restoreState {j : InsertedDisk}
    (hj : ((c.restoreState s).drive id).inserted = some j) :
    ∃ i, (stateOf s id).inserted = some i := by
  cases hi : (stateOf s id).inserted with
  | some i => exact ⟨i, rfl⟩
  | none =>
    rw [restoreState_none hi] at hj
    cases hj

theorem presents_restoreState (k : Nat) :
    ((c.restoreState s).drive id).presents k = true ↔
      (c.restoreState s).slotFor s id = some k := by
  rw [presents_eq_true_iff, Drive.isInserted]
  cases hi : (stateOf s id).inserted with
  | none => simp [restoreState_none hi, slotFor_none _ hi]
  | some i =>
    obtain ⟨hslot, hinserted⟩ := restoreState_some (c := c) hi
    simp [hslot, hinserted]

/-- A restored disk is in the first slot of its name that the other drive leaves. -/
theorem slot_restoreState_iff {i : InsertedDisk} (hi : (stateOf s id).inserted = some i) (k : Nat) :
    ((c.restoreState s).drive id).slot = some k ↔ (c.restoreState s).IsFirst id i.name k := by
  have hpassed : ∀ l, (c.restoreState s).takenFor s id = some l →
      ((c.restoreState s).drive id.other).presents l = true := by
    intro l hl
    cases id with
    | a => cases hl
    | b => exact (presents_restoreState l).mpr hl
  have hfirst : ∀ l, (c.restoreState s).slotFor s id = some l →
      (c.restoreState s).IsFirst id i.name l := by
    intro l hl
    have hfree := slotFor_other_ne _ hl
    rw [slotFor_some _ hi] at hl
    obtain ⟨hnamed, htaken⟩ := first_of_slotOf? hl
    refine ⟨hnamed, ?_, fun m hm hname => hpassed m (htaken m hm hname)⟩
    exact Bool.eq_false_iff.mpr fun hp => hfree ((presents_restoreState l).mp hp)
  rw [(restoreState_some hi).1]
  constructor
  · exact hfirst k
  · intro hk
    cases hl : (c.restoreState s).slotFor s id with
    | some l => rw [(hfirst l hl).eq hk]
    | none =>
      rw [slotFor_some _ hi] at hl
      have hp := hpassed k (eq_taken_of_slotOf? hl k hk.named)
      rw [hk.free] at hp
      cases hp

def HasSavedSlot (c : Catalog σ) (id : DriveId) : Prop :=
  ∃ k image, (c.drive id).slot = some k ∧ c.slots[k]? = some image ∧ image.isSaved = true

theorem hasSave_slot_iff (c : Catalog σ) (id : DriveId) (i : InsertedDisk) :
    c.hasSave i (c.drive id).slot = true ↔
      c.HasSavedSlot id ∨ (c.drive id).slot = none ∧ SaveStore.holds c.store i.name = true := by
  unfold hasSave HasSavedSlot
  cases hs : (c.drive id).slot with
  | none => simp
  | some k => simp [Option.any_eq_true]

theorem marked_restoreState {i j : InsertedDisk} (hi : (stateOf s id).inserted = some i)
    (hj : ((c.restoreState s).drive id).inserted = some j) :
    j = { i with isModified := j.isModified } ∧
      (j.isModified = true ↔ i.isModified = true ∨ (c.restoreState s).HasSavedSlot id ∨
        ((c.restoreState s).drive id).slot = none ∧
          SaveStore.holds (c.restoreState s).store j.name = true) := by
  obtain ⟨hslot, hinserted⟩ := restoreState_some (c := c) hi
  rw [← hslot, hj] at hinserted
  cases hinserted
  constructor
  · rfl
  · exact Bool.or_eq_true_iff.trans (or_congr Iff.rfl (hasSave_slot_iff _ id i))

/-- A restored disk is the one of the snapshot in the first slot of its name that the other drive
leaves. It counts as changed if it did so in the snapshot, if that slot holds a saved copy, or if it
has no slot and the save store has a save of its name; a save in the store goes unnoticed just if
there is a slot that does not hold a saved copy. What counts as changed is saved when it is ejected
next, if it may be kept and saving is enabled, and nothing else is. -/
theorem restore_marks {c r : Catalog σ} {file : Bytes} (hr : c.restore file = (r, .ok ())) :
    ∃ s, Snapshot.ofBytes file = .ok s ∧
      r.slots = ((c.eject .a c.policy.persistOnRestore).eject .b c.policy.persistOnRestore).slots ∧
      r.store = ((c.eject .a c.policy.persistOnRestore).eject .b c.policy.persistOnRestore).store ∧
      ∀ id j, (r.drive id).inserted = some j →
        ∃ i, (stateOf s id).inserted = some i ∧ j = { i with isModified := j.isModified } ∧
          (∀ k, (r.drive id).slot = some k ↔ r.IsFirst id j.name k) ∧
          (j.isModified = true ↔ i.isModified = true ∨ r.HasSavedSlot id ∨
            (r.drive id).slot = none ∧ SaveStore.holds r.store j.name = true) ∧
          ((j.isModified = true ↔ i.isModified = true ∨ r.HasSavedSlot id ∨
              SaveStore.holds r.store j.name = true) ↔
            ¬(SaveStore.holds r.store j.name = true ∧ (r.drive id).slot ≠ none ∧
              ¬r.HasSavedSlot id ∧ i.isModified = false)) ∧
          (r.eject id true).store =
            if j.isModified && j.okToPersist && r.policy.saveEnabled then j.saveTo r.store
            else r.store := by
  obtain ⟨s, hs⟩ := exists_snapshot_of_restore (congrArg Prod.snd hr)
  rw [restore_eq_ok c hs] at hr
  cases hr
  refine ⟨s, hs, slots_restoreState c s, store_restoreState c s, fun id j hj => ?_⟩
  obtain ⟨i, hi⟩ := exists_inserted_of_restoreState hj
  obtain ⟨hsame, hmark⟩ := marked_restoreState hi hj
  have hname : j.name = i.name := by rw [hsame]
  have hstore := store_eject hj true
  rw [Bool.and_true] at hstore
  refine ⟨i, hi, hsame, fun k => hname ▸ slot_restoreState_iff hi k, hmark, ?_, hstore⟩
  rw [hmark]
  by_cases hn : ((c.restoreState s).drive id).slot = none
  · simp [hn]
  · by_cases hsaved : (c.restoreState s).HasSavedSlot id
    · simp [hsaved]
    · simp [hn, hsaved]

/-- A disk is restored as it was before a write that its slot holds as a saved copy. It is saved
again. -/
theorem restore_marks_saved_slot :
    let disk := InsertedDisk.ofDisk "A.ST" ⟨.st, .plainSector, Disk.twoSectors, false, none, none⟩
      false
    let file := ({ new {} ({} : MemoryStore) with
      driveA := Drive.put { slot := some 0 } (some disk) }).save.toOption.getD []
    let c := { new {} ({} : MemoryStore) with
      slots := [{ (disk.written 512 [1, 2, 3]).toImage with isSaved := true }] }
    let r := (c.restore file).1
    c.restore file = (r, .ok ()) ∧ ∃ j, r.driveA.inserted = some j ∧ j.isModified = true ∧
      j.disk.data = disk.disk.data ∧ (r.eject .a true).store = j.saveTo r.store := by
  intro disk file c r
  have hrun : (c.restore file).2 = .ok () ∧ r.policy.saveEnabled = true ∧
      r.driveA.inserted = some (disk.recorded.marked true) := by decide +kernel
  obtain ⟨hok, hpolicy, hj⟩ := hrun
  have hr : c.restore file = (r, .ok ()) := by rw [← hok]
  clear_value r
  obtain ⟨s, -, -, -, h⟩ := restore_marks hr
  obtain ⟨i, -, -, -, -, -, hstore⟩ := h .a _ hj
  have hkept : (disk.recorded.marked true).okToPersist = true := by decide +kernel
  refine ⟨hr, _, hj, rfl, rfl, ?_⟩
  rw [hstore, hpolicy, hkept]
  exact if_pos rfl

open scoped Zip.Reader in
/-- The disk was loaded while saving was off. There is a save of its name, which goes unnoticed, as
its slot does not hold it. The restored disk is not saved when it is ejected. -/
theorem restore_marks_unnoticed_save :
    let store : MemoryStore := { saves := (∅ : Std.ExtTreeMap String Bytes).insert "A.ST" [1, 2] }
    let c := (new { saveEnabled := false } store).run [.add, .replace 0 (some "A.ST") Disk.twoSectors,
      .select .a 0, .setInserted .a true, .setPolicy {}]
    let file := c.save.toOption.getD []
    let r := (c.restore file).1
    (c.restore file).2 = .ok () ∧ r.driveA.inserted.map (·.name) = some "A.ST" ∧
      SaveStore.holds r.store "A.ST" = true ∧ r.driveA.isModified = false ∧
      (r.eject .a true).store.saves["A.ST"]? = some [1, 2] := by
  decide +kernel

end Diskette.Catalog
