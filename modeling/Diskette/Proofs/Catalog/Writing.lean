import Diskette.Proofs.Drive.Addressing
import Diskette.Zip.Reader

/-!
# What a write changes

A write is carried out as a whole or not at all. Which of the two, and how a refusal is reported, can
be told from the disk, the address and the protection; what a write that is carried out changes is
the bytes that it was given, whichever tracks and sides they lie on.
-/

set_option autoImplicit false

namespace Diskette

namespace Bytes

structure Replaced (old : Bytes) (offset : Nat) (data new : Bytes) : Prop where
  length : new.length = old.length
  inside : ∀ k < data.length, new[offset + k]? = data[k]?
  outside : ∀ k, k < offset ∨ offset + data.length ≤ k → new[k]? = old[k]?

variable {old new data : Bytes} {offset : Nat}

theorem replaced_overwrite (h : offset + data.length ≤ old.length) :
    Replaced old offset data (overwrite old offset data) := by
  have hfront : (old.take offset).length = offset := List.length_take_of_le (by omega)
  refine ⟨length_overwrite old data offset h, ?_, ?_⟩
  · intro k hk
    rw [overwrite, List.getElem?_append_right (by omega), hfront, Nat.add_sub_cancel_left,
      List.getElem?_append_left hk]
  · rintro k (hk | hk)
    · rw [overwrite, List.getElem?_append_left (by omega), List.getElem?_take_of_lt hk]
    · rw [overwrite, List.getElem?_append_right (by omega), hfront,
        List.getElem?_append_right (by omega), List.getElem?_drop]
      congr 1
      omega

theorem getElem?_slice {b : Bytes} {n k : Nat} (hk : k < n) :
    (slice b offset n)[k]? = b[offset + k]? := by
  rw [slice, List.getElem?_take_of_lt hk, List.getElem?_drop]

theorem getElem?_slice_of_le {b : Bytes} {n k : Nat} (hk : n ≤ k) :
    (slice b offset n)[k]? = none := by
  rw [slice, List.getElem?_take_eq_none hk]

theorem Replaced.slice_eq (h : Replaced old offset data new) {n : Nat} (hn : data.length ≤ n) :
    slice new offset n =
      data ++ slice old (offset + data.length) (n - data.length) := by
  apply List.ext_getElem?
  intro k
  by_cases hdata : k < data.length
  · rw [getElem?_slice (by omega), h.inside k hdata, List.getElem?_append_left hdata]
  · rw [List.getElem?_append_right (by omega)]
    by_cases hk : k < n
    · rw [getElem?_slice hk, getElem?_slice (by omega), h.outside _ (.inr (by omega))]
      congr 1
      omega
    · rw [getElem?_slice_of_le (by omega), getElem?_slice_of_le (by omega)]

end Bytes

namespace Drive

/-- There is a disk in the drive that has an address and this many sectors from there on, across
tracks and sides. -/
def Holds (d : Drive) (a : Address) (n : Nat) : Prop :=
  ∃ i, d.inserted = some i ∧ a ∈ d.geometry.addresses ∧
    d.geometry.offset a + n * sectorSize ≤ i.disk.data.length

variable {d : Drive} {i : InsertedDisk} {a : Address} {n : Nat}

theorem holds_iff (h : d.inserted = some i) :
    d.Holds a n ↔ i.geometry.contains a = true ∧
      i.geometry.offset a + n * sectorSize ≤ i.disk.data.length := by
  rw [Holds, geometry_of_inserted h, ← Geometry.mem_addresses]
  constructor
  · rintro ⟨j, hj, hf⟩
    rw [h] at hj
    cases hj
    exact hf
  · intro hf
    exact ⟨i, h, hf⟩

theorem Holds.inserted (h : d.Holds a n) : ∃ i, d.inserted = some i := by
  obtain ⟨i, hi, -⟩ := h
  exact ⟨i, hi⟩

theorem read_of_holds (h : d.inserted = some i) (hh : d.Holds a n) :
    d.read a n = .ok (Bytes.slice i.disk.data (d.geometry.offset a) (n * sectorSize)) := by
  have hread : d.read a n = i.read a n := by simp only [read, h]
  rw [hread, InsertedDisk.read_natCast, if_pos ((holds_iff h).mp hh), geometry_of_inserted h]

variable {data : Bytes} {p : Bool}

theorem write_of_inserted (h : d.inserted = some i) :
    d.write a data p = (i.write a data p).map fun j => { d with copy := some j.toWorkingCopy } := by
  simp only [write, h]
  rfl

theorem write_of_not_holds (h : d.inserted = some i) (hh : ¬d.Holds a (sectorCount data)) :
    d.write a data p = .error (.outOfRange a d.geometry) := by
  rw [write_of_inserted h, InsertedDisk.write_eq, if_neg (mt (holds_iff h).mpr hh),
    geometry_of_inserted h]
  rfl

theorem write_of_holds (h : d.inserted = some i) (hh : d.Holds a (sectorCount data)) :
    d.write a data p =
      if p = true then .error .writeProtected
      else .ok { d with copy := some (i.written (d.geometry.offset a) data).toWorkingCopy } := by
  rw [write_of_inserted h, InsertedDisk.write_eq, if_pos ((holds_iff h).mp hh),
    geometry_of_inserted h]
  split <;> rfl

theorem add_le_of_holds (h : d.inserted = some i) (hh : d.Holds a (sectorCount data)) :
    d.geometry.offset a + data.length ≤ i.disk.data.length := by
  have hs := length_le_sectorCount data
  have hl := ((holds_iff h).mp hh).2
  rw [geometry_of_inserted h]
  omega

theorem inserted_written (h : d.inserted = some i) (offset : Nat) (data : Bytes)
    (timer : SwapTimer) :
    ({ d with copy := some (i.written offset data).toWorkingCopy, timer := timer } : Drive).inserted =
      some (i.written offset data) := by
  obtain ⟨copy, -, rfl⟩ := Option.map_eq_some_iff.mp h
  rfl

theorem read_written {e : Drive} (h : d.inserted = some i) (hh : d.Holds a (sectorCount data))
    (he : e.inserted = some (i.written (d.geometry.offset a) data)) :
    e.read a (sectorCount data) =
      .ok (data ++ Bytes.slice i.disk.data (d.geometry.offset a + data.length)
        (sectorCount data * sectorSize - data.length)) := by
  have hr := Bytes.replaced_overwrite (add_le_of_holds h hh)
  have hg : e.geometry = d.geometry := (geometry_of_inserted he).trans (geometry_of_inserted h).symm
  have hholds : e.Holds a (sectorCount data) := by
    obtain ⟨hc, hl⟩ := (holds_iff h).mp hh
    exact (holds_iff he).mpr ⟨hc, hl.trans_eq hr.length.symm⟩
  rw [read_of_holds he hholds, hg]
  exact congrArg _ (hr.slice_eq (length_le_sectorCount data))

end Drive

namespace Catalog

variable {σ : Type}

/-- How a write to a drive ends, given the timer that it leaves there. -/
inductive WriteEnd (c : Catalog σ) (id : DriveId) (a : Address) (data : Bytes)
    (timer : SwapTimer) : Outcome σ Unit → Prop
  | vacant (h : (c.drive id).inserted = none) :
      WriteEnd c id a data timer
        (c.setDrive id { c.drive id with timer := timer }, .error .imageUnavailable)
  | misplaced (i : InsertedDisk) (hi : (c.drive id).inserted = some i)
      (hh : ¬(c.drive id).Holds a (sectorCount data)) :
      WriteEnd c id a data timer
        (c.setDrive id { c.drive id with timer := timer },
          .error (.outOfRange a (c.drive id).geometry))
  | refused (hh : (c.drive id).Holds a (sectorCount data)) (hp : c.Protected id) :
      WriteEnd c id a data timer
        (c.setDrive id { c.drive id with timer := timer }, .error .writeProtected)
  | written (i : InsertedDisk) (hi : (c.drive id).inserted = some i)
      (hh : (c.drive id).Holds a (sectorCount data)) (hp : ¬c.Protected id) :
      WriteEnd c id a data timer
        (c.setDrive id { c.drive id with
          copy := some (i.written ((c.drive id).geometry.offset a) data).toWorkingCopy
          timer := timer }, .ok ())

theorem writeEnd_write (c : Catalog σ) (id : DriveId) (a : Address) (data : Bytes) :
    ∃ timer, (c.drive id).timer.Retires timer c.tick ∧
      WriteEnd c id a data timer (c.write id a data) := by
  obtain ⟨d, timer, p, rfl, htimer, hp, hw⟩ := c.write_eq id a data
  refine ⟨timer, htimer, ?_⟩
  rw [hw]
  cases hi : (c.drive id).inserted with
  | none =>
    have hwrite : ({ c.drive id with timer := timer } : Drive).write a data p =
        .error .imageUnavailable := by
      simp only [Drive.write, Drive.inserted_with, hi]
    rw [hwrite]
    exact .vacant hi
  | some i =>
    by_cases hh : (c.drive id).Holds a (sectorCount data)
    · rw [Drive.write_of_holds (d := { c.drive id with timer := timer }) hi hh]
      by_cases hset : p = true
      · rw [if_pos hset]
        exact .refused hh (hp.mp hset)
      · rw [if_neg hset]
        exact .written i hi hh (mt hp.mpr hset)
    · rw [Drive.write_of_not_holds (d := { c.drive id with timer := timer }) hi hh]
      exact .misplaced i hi hh

/-- A write is carried out just if there is a disk in the drive, the address is one of its own, its
data does not end before the last sector to be written, and nothing protects the drive. Then those
bytes of the disk are replaced, the disk counts as modified, and reading as many sectors back gives
what was written and the rest of the last sector. A fault tells of a missing disk before the address
and of the address before the protection. Whatever happens, nothing else in the catalog is different
afterwards, but phases of a disk change that are over may be gone. -/
theorem write_all_or_nothing (c : Catalog σ) (id : DriveId) (a : Address) (data : Bytes) :
    let d := c.drive id
    let n := sectorCount data
    let after := (c.write id a data).1
    let result := (c.write id a data).2
    (result = .ok () ↔ d.Holds a n ∧ ¬c.Protected id) ∧
    (∀ fault, result = .error fault ↔
      (d.inserted = none ∧ fault = .imageUnavailable) ∨
      (d.isInserted = true ∧ ¬d.Holds a n ∧ fault = .outOfRange a d.geometry) ∨
      (d.Holds a n ∧ c.Protected id ∧ fault = .writeProtected)) ∧
    (result = .ok () → ∃ i new timer, d.inserted = some i ∧
      Bytes.Replaced i.disk.data (d.geometry.offset a) data new ∧
      d.timer.Retires timer c.tick ∧
      after = c.setDrive id { d with
        copy := some { i.toWorkingCopy with
          disk := { i.disk with data := new }
          isModified := true }
        timer := timer } ∧
      after.read id a n = .ok (data ++
        Bytes.slice i.disk.data (d.geometry.offset a + data.length)
          (n * sectorSize - data.length))) ∧
    (∀ fault, result = .error fault → ∃ timer, d.timer.Retires timer c.tick ∧
      after = c.setDrive id { d with timer := timer }) := by
  obtain ⟨timer, htimer, hend⟩ := c.writeEnd_write id a data
  have hfault (f fault : Fault) : (.error f : Except Fault Unit) = .error fault ↔ fault = f := by
    rw [Except.error.injEq, eq_comm]
  dsimp only
  generalize c.write id a data = o at hend ⊢
  cases hend with
  | vacant hi =>
    have hh : ¬(c.drive id).Holds a (sectorCount data) := by
      rintro ⟨i, hs, -⟩
      simp [hi] at hs
    refine ⟨by simp [hh], ?_, by simp, fun _ _ => ⟨timer, htimer, rfl⟩⟩
    intro fault
    simp [hfault, hi, hh, Drive.isInserted]
  | misplaced i hi hh =>
    refine ⟨by simp [hh], ?_, by simp, fun _ _ => ⟨timer, htimer, rfl⟩⟩
    intro fault
    simp [hfault, hi, hh, Drive.isInserted]
  | refused hh hp =>
    obtain ⟨i, hi⟩ := hh.inserted
    refine ⟨by simp [hp], ?_, by simp, fun _ _ => ⟨timer, htimer, rfl⟩⟩
    intro fault
    simp [hfault, hi, hh, hp]
  | written i hi hh hp =>
    refine ⟨by simp [hh, hp], ?_, ?_, by simp⟩
    · intro fault
      simp [hi, hh, hp]
    · intro _
      refine ⟨i, _, timer, hi, Bytes.replaced_overwrite (Drive.add_le_of_holds hi hh), htimer, rfl,
        ?_⟩
      rw [read, drive_setDrive_self]
      exact Drive.read_written hi hh (Drive.inserted_written hi _ data timer)

open scoped Zip.Reader in
/-- Two sectors are written in part while the disk is still on its way in, but not if the drive is
set to refuse writes. -/
theorem write_all_or_nothing_on_the_way_in :
    let c := (new {} ({} : MemoryStore)).run [.add, .replace 0 none Disk.twoSectors, .select .a 0,
      .setInserted .a true]
    let data : Bytes := List.replicate 513 7
    c.driveA.timer.lineOverride c.tick = .forceUnprotected ∧
      (c.write .a ⟨0, 0, 1⟩ data).2 = .ok () ∧
      ((c.setWriteProtected .a true).write .a ⟨0, 0, 1⟩ data).2 = .error .writeProtected := by
  intro c data
  have hi : (c.drive .a).inserted = some ⟨⟨namelessImage 0,
      ⟨.st, .plainSector, Disk.twoSectors, false, none, none⟩, false, false⟩, ⟨1, 1, 2⟩, true⟩ := by
    decide +kernel
  have hline : (c.drive .a).timer.lineOverride c.tick = .forceUnprotected := by decide +kernel
  have hset : c.isSetProtected .a = false := by decide +kernel
  have hh : (c.drive .a).Holds ⟨0, 0, 1⟩ (sectorCount data) :=
    (Drive.holds_iff hi).mpr (by decide +kernel)
  clear_value c data
  have hp : ¬c.Protected .a := by
    rw [isSetProtected, Bool.or_eq_false_iff] at hset
    simp [Protected, hset, hline]
  refine ⟨hline, (c.write_all_or_nothing .a ⟨0, 0, 1⟩ data).1.mpr ⟨hh, hp⟩, ?_⟩
  obtain ⟨-, hfault, -⟩ := (c.setWriteProtected .a true).write_all_or_nothing .a ⟨0, 0, 1⟩ data
  exact (hfault _).mpr (.inr (.inr ⟨hh, .inr (.inl rfl), rfl⟩))

end Catalog

end Diskette
