import Diskette.Proofs.Catalog.Change
import Diskette.Proofs.Disk.FirstSector
import Diskette.Proofs.Snapshot.Record
import Diskette.Zip.Reader

/-!
# Snapshots of reachable catalogs

Whatever has been done to a catalog, a snapshot of it is accepted by every other catalog and puts
both drives there into the state that they had. The disks in the drives are fit for a snapshot
because every elementary change keeps them so, a restored snapshot of any content included.
-/

set_option autoImplicit false

namespace Diskette

theorem InsertedDisk.Sound.written {i : InsertedDisk} (h : i.Sound) {offset : Nat} {data : Bytes}
    (hl : offset + data.length ≤ i.disk.data.length) : (i.written offset data).Sound := by
  have hlen := Bytes.length_overwrite i.disk.data data offset hl
  constructor
  · exact h.kind
  · exact h.format
  · intro h0
    have hn : (Bytes.overwrite i.disk.data offset data).length = 0 :=
      List.length_eq_zero_iff.mpr h0
    rw [hlen] at hn
    exact h.data (List.length_eq_zero_iff.mp hn)
  · exact h.header
  · have hg := h.geometry
    rw [← hlen] at hg
    exact hg

theorem InsertedDisk.sound_ofDisk {name : String} {disk : Disk} {isSaved : Bool}
    (hp : disk.isPopulated = true) (hk : disk.kind = disk.format.kind)
    (hh : disk.header ≠ some []) :
    (InsertedDisk.ofDisk name disk isSaved).Sound := by
  simp only [Disk.isPopulated, Bool.and_eq_true, bne_iff_ne, Bool.not_eq_true',
    List.isEmpty_eq_false_iff] at hp
  constructor
  · exact hp.1
  · exact hk
  · exact hp.2
  · exact hh
  · unfold InsertedDisk.ofDisk Disk.geometry Geometry.ofImage
    dsimp only
    split <;> rfl

namespace Catalog

variable {σ : Type}

/-- Every disk can be described in a snapshot, as far as it does not depend on its size. -/
structure Sound (c : Catalog σ) : Prop where
  drives : ∀ id i, (c.drive id).inserted = some i → i.Sound
  slots : ∀ image ∈ c.slots, ∀ d, image.disk = some d →
    d.kind = d.format.kind ∧ d.header ≠ some []

theorem Loaded.kind_and_header [Zip.Library] {codec : Codec} {image : DiskImage}
    (h : Loaded codec image) :
    ∀ d, image.disk = some d → d.kind = d.format.kind ∧ d.header ≠ some [] := by
  intro d hd
  cases h with
  | empty name => cases hd
  | decoded path file name isSaved image h =>
    obtain ⟨e, he, hf⟩ := DiskImage.ofFile_eq_ok h
    have hed : some d = some e := hd.symm.trans he
    cases hed
    refine ⟨Disk.kind_of_ofFile hf, ?_⟩
    intro hh
    have hl := ((Disk.ofFile_eq_ok hf).2 [] hh).length_eq
    exact absurd hl (by decide)

namespace Sound

variable {c c' : Catalog σ}

theorem new (policy : Policy) (store : σ) : (new policy store).Sound where
  drives id i hi := by cases id <;> cases hi
  slots image hi := by cases hi

theorem of_drives (h : c.Sound) (hs : c'.slots = c.slots)
    (hd : ∀ id i, (c'.drive id).inserted = some i → (c.drive id).inserted = some i ∨ i.Sound) :
    c'.Sound := by
  constructor
  · intro id i hi
    rcases hd id i hi with hi | hi
    · exact h.drives id i hi
    · exact hi
  · rw [hs]
    exact h.slots

theorem setDrive (h : c.Sound) {id : DriveId} {d : Drive}
    (hd : ∀ i, d.inserted = some i → i.Sound) : (c.setDrive id d).Sound := by
  apply h.of_drives (slots_setDrive c id d)
  intro j i hi
  rw [drive_setDrive] at hi
  split at hi
  · exact .inr (hd i hi)
  · exact .inl hi

variable [SaveStore σ] {op : Operation}

theorem eject (h : c.Sound) (id : DriveId) (keep : Bool) : (c.eject id keep).Sound := by
  constructor
  · intro j i hi
    exact h.drives j i (inserted_of_eject hi).2
  · intro image hm d hd
    rcases mem_slots_eject hm with hm | ⟨i, hi, he⟩
    · exact h.slots image hm d hd
    · rw [hd] at he
      cases he
      exact ⟨(h.drives id i hi).format, (h.drives id i hi).header⟩

theorem restoreDrive (h : c.Sound) {id : DriveId} {s : DriveState} {slot : Option Nat}
    (hs : ∀ i, s.inserted = some i → i.Sound) : (c.restoreDrive id s slot).Sound := by
  unfold Catalog.restoreDrive
  dsimp only
  split
  · apply h.setDrive
    intro i hi
    cases hi
  · rename_i disk hd
    apply h.setDrive
    intro i hi
    cases hi
    have hi := hs disk hd
    exact ⟨hi.kind, hi.format, hi.data, hi.header, hi.geometry⟩

theorem change [Zip.Library] (hc : Change op c c') (h : c.Sound) : c'.Sound := by
  cases hc with
  | eject id keep hk => exact h.eject id keep
  | add hl =>
    constructor
    · exact h.drives
    · intro image hm d hd
      rcases List.mem_append.mp hm with hm | hm
      · exact h.slots image hm d hd
      · rw [List.mem_singleton.mp hm] at hd
        cases hd
  | fill slot image ho hi hl hf =>
    constructor
    · exact h.drives
    · intro image' hm
      rcases List.mem_or_eq_of_mem_set hm with hm | rfl
      · exact h.slots image' hm
      · exact hi.kind_and_header
  | point id slot he hl => exact h.setDrive (h.drives id)
  | insert id slot image disk he hs hf hi hd hp =>
    apply h.setDrive
    intro i hi'
    cases hi'
    obtain ⟨hk, hh⟩ := h.slots image (List.mem_of_getElem? hi) disk hd
    exact InsertedDisk.sound_ofDisk hp hk hh
  | write id address data d ho hd =>
    obtain ⟨-, i, hi, -, hl, rfl⟩ := Drive.write_eq_ok hd
    apply h.setDrive
    intro j hj
    cases hj
    exact (h.drives id i hi).written hl
  | adjust id timer on => exact h.setDrive (h.drives id)
  | host policy codec tick => exact ⟨h.drives, h.slots⟩
  | discard ho he hs => exact ⟨h.drives, by simp⟩
  | restore id file s taken slot ho hs he hm hf =>
    apply h.restoreDrive
    intro i hi
    cases id with
    | a => exact Snapshot.sound_of_ofBytes hs i (.inl hi)
    | b => exact Snapshot.sound_of_ofBytes hs i (.inr hi)

theorem step [Zip.Library] (h : c.Sound) (op : Operation) : (c.step op).1.Sound :=
  (changes_step c op).keeps (fun _ _ => change) h

end Sound

end Catalog

/-! ## Restoring -/

def InsertedDisk.marked (i : InsertedDisk) (saved : Bool) : InsertedDisk :=
  { i with isModified := i.isModified || saved }

def DriveState.marked (s : DriveState) (saved : Bool) : DriveState :=
  { s with inserted := s.inserted.map (·.marked saved) }

theorem DriveRecord.ofState_marked (s : DriveState) (saved : Bool) :
    ∃ m, ofState (s.recorded.marked saved) = { ofState s with isModified := m } := by
  rcases s with ⟨_ | i, first, second⟩
  · exact ⟨0, rfl⟩
  · exact ⟨Snapshot.flag (i.isModified || saved), rfl⟩

theorem InsertedDisk.Small.marked {i : InsertedDisk} (h : i.Small) (saved : Bool) :
    (i.recorded.marked saved).Small :=
  ⟨h.data, h.name, h.header⟩

namespace Catalog

variable {σ τ : Type} [SaveStore σ] [SaveStore τ]

theorem tick_restoreDrive (c : Catalog σ) (id : DriveId) (s : DriveState) (slot : Option Nat) :
    (c.restoreDrive id s slot).tick = c.tick := by
  obtain ⟨d, h⟩ := restoreDrive_eq c id s slot
  rw [h, tick_setDrive]

theorem restoreDrive_eq_setDrive (c : Catalog σ) (id : DriveId) (s : DriveState)
    (slot : Option Nat) :
    c.restoreDrive id s slot = c.setDrive id
      { (c.drive id).put (s.inserted.map fun i => i.marked (c.hasSave i slot)) with
        slot := if s.inserted.isSome then slot else (c.drive id).slot
        timer := { (c.drive id).timer with first := s.first, second := s.second } } := by
  unfold restoreDrive
  dsimp only
  cases s.inserted <;> rfl

theorem driveState_restoreDrive (c : Catalog σ) (id : DriveId) (s : DriveState)
    (slot : Option Nat) :
    ∃ saved, driveState ((c.restoreDrive id s slot).drive id) = s.marked saved := by
  rw [restoreDrive_eq_setDrive, drive_setDrive_self]
  rcases s with ⟨_ | disk, first, second⟩
  · exact ⟨false, rfl⟩
  · exact ⟨c.hasSave disk slot, rfl⟩

theorem tidy_restoreDrive (c : Catalog σ) (id : DriveId) (s : DriveState) (slot : Option Nat) :
    ((c.restoreDrive id s slot).drive id).Tidy := by
  rw [restoreDrive_eq_setDrive, drive_setDrive_self]
  exact Drive.tidy_put (c.drive id) _

theorem driveState_restoreState (c : Catalog σ) (s : Snapshot) :
    (c.restoreState s).tick = s.tick ∧ ∀ id, ((c.restoreState s).drive id).Tidy ∧ ∃ saved,
      driveState ((c.restoreState s).drive id) = (stateOf s id).marked saved := by
  unfold restoreState
  dsimp only
  constructor
  · rw [tick_restoreDrive, tick_restoreDrive]
  · intro id
    cases id with
    | a =>
      have ho (c : Catalog σ) (slot : Option Nat) :
          (c.restoreDrive .b s.driveB slot).drive .a = c.drive .a :=
        drive_restoreDrive_other c .b s.driveB slot
      rw [ho]
      exact ⟨tidy_restoreDrive _ _ _ _, driveState_restoreDrive ..⟩
    | b => exact ⟨tidy_restoreDrive _ _ _ _, driveState_restoreDrive ..⟩

end Catalog

/-- The second drive is in the state of the first, as far as a snapshot tells. -/
structure Drive.Restored (d e : Drive) : Prop where
  isInserted : e.isInserted = d.isInserted
  first : e.timer.first = d.timer.first
  second : e.timer.second = d.timer.second
  disk : ∀ i, d.inserted = some i → ∃ j, e.inserted = some j ∧ j.name = i.name ∧
    j.disk.data = i.disk.data ∧ j.disk.kind = i.disk.kind ∧ j.disk.format = i.disk.format ∧
    j.disk.isArchived = i.disk.isArchived ∧ j.disk.header = i.disk.header ∧
    j.geometry = i.geometry ∧ j.okToPersist = i.okToPersist ∧
    (i.isModified = true → j.isModified = true)
  empty : d.inserted = none → e.inserted = none ∧ e.geometry = {} ∧ e.okToPersist = false

theorem Drive.restored_of_driveState {d e : Drive} {saved : Bool} (ht : e.Tidy)
    (h : Catalog.driveState e = (Catalog.driveState d).recorded.marked saved) : d.Restored e := by
  have hi : e.inserted = (d.inserted.map InsertedDisk.recorded).map (·.marked saved) :=
    congrArg DriveState.inserted h
  have hfirst : e.timer.first = d.timer.first := congrArg DriveState.first h
  have hsecond : e.timer.second = d.timer.second := congrArg DriveState.second h
  rw [Option.map_map] at hi
  constructor
  · rw [isInserted, hi, Option.isSome_map, isInserted]
  · exact hfirst
  · exact hsecond
  · intro i hd
    rw [hd] at hi
    refine ⟨_, hi, rfl, rfl, rfl, rfl, rfl, rfl, rfl, rfl, ?_⟩
    intro hm
    simp [InsertedDisk.marked, InsertedDisk.recorded, hm]
  · intro hd
    rw [hd] at hi
    have hi : e.inserted = none := hi
    exact ⟨hi, ht hi⟩

namespace Catalog

open Snapshot DriveRecord

variable {σ : Type}

def modifiedAt (c : Catalog σ) : DriveId → Nat
  | .a => prologueSize + (ofState (driveState c.driveA)).modifiedAt
  | .b => prologueSize + (ofState (driveState c.driveA)).bytes.length +
      (ofState (driveState c.driveB)).modifiedAt

theorem length_prologue (tick : UInt64) : (prologue tick).length = prologueSize := by
  simp [prologue, prologueSize, magic]

theorem small_of_hasDisk {c : Catalog σ} (h : ∀ id i, (c.drive id).inserted = some i → i.Small) :
    ∀ i, c.snapshot.HasDisk i → i.Small := by
  rintro i (hi | hi)
  · exact h .a i hi
  · exact h .b i hi

theorem sound_of_hasDisk {c : Catalog σ} (h : c.Sound) :
    ∀ i, c.snapshot.HasDisk i → i.Sound := by
  rintro i (hi | hi)
  · exact h.drives .a i hi
  · exact h.drives .b i hi

theorem set_flags (front a b : Bytes) {p : Nat} (hp : p < a.length) (q : Nat) (m n : UInt8) :
    ((front ++ a ++ b).set (front.length + p) m).set (front.length + a.length + q) n =
      front ++ a.set p m ++ b.set q n := by
  have hl : front.length + p < (front ++ a).length := by
    rw [List.length_append]
    omega
  have hr : (front ++ a.set p m).length ≤ front.length + a.length + q := by
    rw [List.length_append, List.length_set]
    omega
  rw [List.set_append_left _ _ hl, List.set_append_right _ _ (Nat.le_add_right _ _),
    Nat.add_sub_cancel_left, List.set_append_right _ _ hr, List.length_append, List.length_set,
    Nat.add_sub_cancel_left]

theorem modifiedAt_lt (r : DriveRecord) : r.modifiedAt < r.bytes.length :=
  (List.getElem?_eq_some_iff.mp r.getElem?_modifiedAt).1

theorem save_eq_ok {c : Catalog σ} (h : ∀ id i, (c.drive id).inserted = some i → i.Small) :
    c.save = .ok (prologue c.tick ++ (ofState (driveState c.driveA)).bytes ++
      (ofState (driveState c.driveB)).bytes) :=
  bytes_eq_ok (small_of_hasDisk h)

theorem save_of_restored {τ : Type} {c : Catalog σ} {d : Catalog τ}
    (hs : ∀ id i, (c.drive id).inserted = some i → i.Small) (ht : d.tick = c.tick)
    (hd : ∀ id, ∃ saved, driveState (d.drive id) = (driveState (c.drive id)).recorded.marked saved)
    {b : Bytes} (hb : c.save = .ok b) :
    ∃ m n, d.save = .ok ((b.set (c.modifiedAt .a) m).set (c.modifiedAt .b) n) := by
  have hsmall : ∀ id i, (d.drive id).inserted = some i → i.Small := by
    intro id i hi
    obtain ⟨saved, h⟩ := hd id
    have hj : some i = ((c.drive id).inserted.map InsertedDisk.recorded).map (·.marked saved) :=
      hi.symm.trans (congrArg DriveState.inserted h)
    rw [Option.map_map] at hj
    obtain ⟨j, hc, rfl⟩ := Option.map_eq_some_iff.mp hj.symm
    exact (hs id j hc).marked saved
  have hflag : ∀ id, ∃ m, (ofState (driveState (d.drive id))).bytes =
      (ofState (driveState (c.drive id))).bytes.set
        (ofState (driveState (c.drive id))).modifiedAt m := by
    intro id
    obtain ⟨saved, h⟩ := hd id
    obtain ⟨m, hm⟩ := ofState_marked (driveState (c.drive id)) saved
    refine ⟨m, ?_⟩
    rw [h, hm, bytes_withModified]
  obtain ⟨m, hm⟩ : ∃ m, (ofState (driveState d.driveA)).bytes =
      (ofState (driveState c.driveA)).bytes.set (ofState (driveState c.driveA)).modifiedAt m :=
    hflag .a
  obtain ⟨n, hn⟩ : ∃ n, (ofState (driveState d.driveB)).bytes =
      (ofState (driveState c.driveB)).bytes.set (ofState (driveState c.driveB)).modifiedAt n :=
    hflag .b
  refine ⟨m, n, ?_⟩
  rw [save_eq_ok hs] at hb
  cases hb
  have hset := set_flags (prologue c.tick) _ (ofState (driveState c.driveB)).bytes
    (modifiedAt_lt (ofState (driveState c.driveA))) (ofState (driveState c.driveB)).modifiedAt m n
  rw [length_prologue] at hset
  rw [save_eq_ok hsmall, ht, hm, hn, ← hset]
  rfl

theorem ofBytes_save {c : Catalog σ} (h : c.Sound)
    (hs : ∀ id i, (c.drive id).inserted = some i → i.Small) {b : Bytes} (hb : c.save = .ok b) :
    ofBytes b =
      .ok ⟨c.tick, (driveState c.driveA).recorded, (driveState c.driveB).recorded⟩ := by
  rw [save_eq_ok hs] at hb
  cases hb
  exact ofBytes_eq_ok (s := c.snapshot) (small_of_hasDisk hs) (sound_of_hasDisk h)

theorem isModified_ofState (d : Drive) :
    (ofState (driveState d)).isModified = flag d.isModified := by
  unfold ofState driveState Drive.isModified
  cases d.inserted <;> rfl

theorem getElem?_modifiedAt_save {c : Catalog σ}
    (hs : ∀ id i, (c.drive id).inserted = some i → i.Small) {b : Bytes} (hb : c.save = .ok b)
    (id : DriveId) : b[c.modifiedAt id]? = some (flag (c.drive id).isModified) := by
  have ha := modifiedAt_lt (ofState (driveState c.driveA))
  rw [save_eq_ok hs] at hb
  cases hb
  rw [← isModified_ofState, ← getElem?_modifiedAt]
  cases id with
  | a =>
    have hl : prologueSize + (ofState (driveState c.driveA)).modifiedAt <
        (prologue c.tick ++ (ofState (driveState c.driveA)).bytes).length := by
      rw [List.length_append, length_prologue]
      omega
    rw [modifiedAt, List.getElem?_append_left hl,
      List.getElem?_append_right (by rw [length_prologue]; omega), length_prologue,
      Nat.add_sub_cancel_left]
    rfl
  | b =>
    have hl : (prologue c.tick ++ (ofState (driveState c.driveA)).bytes).length =
        prologueSize + (ofState (driveState c.driveA)).bytes.length := by
      rw [List.length_append, length_prologue]
    rw [modifiedAt, List.getElem?_append_right (by omega), hl, Nat.add_sub_cancel_left]
    rfl

variable [SaveStore σ]

theorem restore_eq_ok (c : Catalog σ) {b : Bytes} {s : Snapshot} (h : ofBytes b = .ok s) :
    c.restore b = (c.restoreState s, .ok ()) := by
  rw [restore, h]

theorem exists_snapshot_of_restore {c : Catalog σ} {b : Bytes} (h : (c.restore b).2 = .ok ()) :
    ∃ s, ofBytes b = .ok s := by
  cases hs : ofBytes b with
  | ok s => exact ⟨s, rfl⟩
  | error fault =>
    rw [restore, hs] at h
    cases h

theorem run_sound [Zip.Library] (policy : Policy) (store : σ) (ops : List Operation) :
    ((new policy store).run ops).Sound :=
  run_keeps_of_change (fun _ _ _ hc => Sound.change hc) _ ops (Sound.new policy store)

/-- A snapshot of a reachable catalog whose disks are not too large is taken by every catalog, and
puts its drives into the same state. When it is saved there again, no byte of it is different but
the flags of changed disks. -/
theorem restore_save [Zip.Library] (policy : Policy) (store : σ) (ops : List Operation)
    (c : Catalog σ) (hc : c = (new policy store).run ops)
    (hs : ∀ id i, (c.drive id).inserted = some i → i.Small) :
    ∃ b, c.save = .ok b ∧ (∀ id, b[c.modifiedAt id]? = some (flag (c.drive id).isModified)) ∧
      ∀ (τ : Type) [SaveStore τ] (d : Catalog τ),
        (d.restore b).2 = .ok () ∧ (d.restore b).1.tick = c.tick ∧
        (∀ id, (c.drive id).Restored ((d.restore b).1.drive id)) ∧
        ∃ m n, (d.restore b).1.save =
          .ok ((b.set (c.modifiedAt .a) m).set (c.modifiedAt .b) n) := by
  have hsound : c.Sound := hc ▸ run_sound policy store ops
  have hb := save_eq_ok hs
  refine ⟨_, hb, getElem?_modifiedAt_save hs hb, ?_⟩
  intro τ _ d
  have hread := ofBytes_save hsound hs hb
  have hrestore := restore_eq_ok d hread
  obtain ⟨ht, hd⟩ := driveState_restoreState d
    ⟨c.tick, (driveState c.driveA).recorded, (driveState c.driveB).recorded⟩
  rw [hrestore]
  have hstate : ∀ id, ∃ saved, driveState ((d.restoreState ⟨c.tick, (driveState c.driveA).recorded,
      (driveState c.driveB).recorded⟩).drive id) =
      (driveState (c.drive id)).recorded.marked saved := by
    intro id
    obtain ⟨-, saved, h⟩ := hd id
    cases id with
    | a => exact ⟨saved, h⟩
    | b => exact ⟨saved, h⟩
  refine ⟨rfl, ht, ?_, save_of_restored hs ht hstate hb⟩
  intro id
  obtain ⟨saved, h⟩ := hstate id
  exact Drive.restored_of_driveState (hd id).1 h

open scoped Zip.Reader in
/-- A disk that has been written to, restored over a catalog that may hold anything. -/
theorem restore_save_twoSectors :
    let ops : List Operation := [.add, .replace 0 none Disk.twoSectors, .select .a 0,
      .setInserted .a true, .write .a ⟨0, 0, 2⟩ [1, 2, 3]]
    let c := (new {} ({} : MemoryStore)).run ops
    c.driveA.isModified = true ∧ ∃ b, c.save = .ok b ∧ ∀ d : Catalog MemoryStore,
      (d.restore b).2 = .ok () ∧ c.driveA.Restored (d.restore b).1.driveA := by
  intro ops c
  have ha : c.driveA.inserted = some ⟨⟨namelessImage 0, ⟨.st, .plainSector, Bytes.overwrite
      Disk.twoSectors 512 [1, 2, 3], false, none, none⟩, false, true⟩, ⟨1, 1, 2⟩, true⟩ := by
    decide +kernel
  have hb : c.driveB.inserted = none := by decide +kernel
  have hs : ∀ id i, (c.drive id).inserted = some i → i.Small := by
    intro id i hi
    cases id with
    | a =>
      rw [drive, ha] at hi
      cases hi
      constructor <;> decide +kernel
    | b =>
      rw [drive, hb] at hi
      cases hi
  obtain ⟨b, hsave, -, h⟩ := restore_save {} ({} : MemoryStore) ops c rfl hs
  refine ⟨by rw [Drive.isModified, ha]; rfl, b, hsave, ?_⟩
  intro d
  obtain ⟨hok, -, hd, -⟩ := h MemoryStore d
  exact ⟨hok, hd .a⟩

end Catalog

end Diskette
