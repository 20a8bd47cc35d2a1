import Mathlib.Algebra.Order.Floor.Div
import Diskette.Drive

/-!
# Writing sectors

A write either is refused or puts its data at the offset of the sector, within the data of the disk,
and marks the disk as modified. Nothing else about the drive changes.
-/

set_option autoImplicit false

namespace Diskette

def sectorCount (data : Bytes) : Nat := data.length ⌈/⌉ sectorSize

theorem length_le_sectorCount (data : Bytes) : data.length ≤ sectorCount data * sectorSize := by
  have hpos : 0 < sectorSize := by decide
  rw [Nat.mul_comm]
  exact le_smul_ceilDiv hpos

namespace InsertedDisk

def written (i : InsertedDisk) (offset : Nat) (data : Bytes) : InsertedDisk :=
  { i with
    disk := { i.disk with data := Bytes.overwrite i.disk.data offset data }
    isModified := true }

/-- Some sectors have a place on the disk if the first has an address and the last is within the
data. -/
theorem range_natCast (i : InsertedDisk) (a : Address) (n : Nat) :
    i.range a n =
      if i.geometry.contains a = true ∧
          i.geometry.offset a + n * sectorSize ≤ i.disk.data.length then
        .ok (i.geometry.offset a, n * sectorSize)
      else .error (.outOfRange a i.geometry) := by
  unfold range
  rw [if_neg (Int.not_lt.mpr (Int.natCast_nonneg n)), Int.toNat_natCast]
  by_cases hc : i.geometry.contains a = true
  · by_cases hl : i.disk.data.length < i.geometry.offset a + n * sectorSize
    · simp [hc, hl, Nat.not_le_of_lt hl]
    · simp [hc, hl, Nat.le_of_not_lt hl]
  · simp [hc]

theorem read_natCast (i : InsertedDisk) (a : Address) (n : Nat) :
    i.read a n =
      if i.geometry.contains a = true ∧
          i.geometry.offset a + n * sectorSize ≤ i.disk.data.length then
        .ok (Bytes.slice i.disk.data (i.geometry.offset a) (n * sectorSize))
      else .error (.outOfRange a i.geometry) := by
  rw [read, range_natCast]
  split <;> rfl

theorem write_eq (i : InsertedDisk) (a : Address) (data : Bytes) (p : Bool) :
    i.write a data p =
      if i.geometry.contains a = true ∧
          i.geometry.offset a + sectorCount data * sectorSize ≤ i.disk.data.length then
        if p = true then .error .writeProtected
        else .ok (i.written (i.geometry.offset a) data)
      else .error (.outOfRange a i.geometry) := by
  change (i.range a (sectorCount data : Nat) >>= _) = _
  rw [range_natCast]
  split <;> rfl

theorem write_eq_ok {i j : InsertedDisk} {a : Address} {data : Bytes} {p : Bool}
    (h : i.write a data p = .ok j) :
    p = false ∧ i.geometry.contains a = true ∧
      i.geometry.offset a + data.length ≤ i.disk.data.length ∧
      j = i.written (i.geometry.offset a) data := by
  have hs := length_le_sectorCount data
  rw [write_eq] at h
  split at h
  · rename_i hf
    split at h
    · cases h
    · rename_i hp
      cases h
      exact ⟨by simpa using hp, hf.1, by omega, rfl⟩
  · cases h

end InsertedDisk

namespace Drive

/-- Without a disk there is no geometry, and nothing that may be kept. -/
def Tidy (d : Drive) : Prop := d.inserted = none → d.geometry = {} ∧ d.okToPersist = false

theorem tidy_put (d : Drive) (content : Option InsertedDisk) : (d.put content).Tidy := by
  intro h
  rw [inserted_put] at h
  cases h
  exact ⟨rfl, rfl⟩

theorem write_eq_ok {d e : Drive} {a : Address} {data : Bytes} {p : Bool}
    (h : d.write a data p = .ok e) :
    p = false ∧ ∃ i, d.inserted = some i ∧ i.geometry.contains a = true ∧
      i.geometry.offset a + data.length ≤ i.disk.data.length ∧
      e = d.put (some (i.written (i.geometry.offset a) data)) := by
  unfold write at h
  split at h
  · cases h
  · rename_i i hi
    cases hw : i.write a data p with
    | error fault => rw [hw] at h; cases h
    | ok j =>
      rw [hw] at h
      cases h
      obtain ⟨hp, hc, hl, rfl⟩ := InsertedDisk.write_eq_ok hw
      obtain ⟨copy, -, rfl⟩ := Option.map_eq_some_iff.mp hi
      exact ⟨hp, _, hi, hc, hl, rfl⟩

end Drive

end Diskette
