import Mathlib.Data.Nat.ModEq
import Diskette.Proofs.Disk.Formatting
import Diskette.Proofs.Drive.Addressing

/-!
# Which disks may be written back

The boot sector alone says if a disk can be trusted: byte 13 is not zero, or its words sum up to the
checksum of a program. For any other bytes there is one last word that makes the sum right. Writing
to other sectors changes neither the permission to keep the changes nor the layout that the disk is
written in.
-/

set_option autoImplicit false

namespace Diskette

namespace Bytes

theorem pieces_take (size count : Nat) (b : Bytes) :
    pieces size count (b.take (count * size)) = pieces size count b := by
  induction count generalizing b with
  | zero => rfl
  | succ count ih =>
    have hfirst : (b.take ((count + 1) * size)).take size = b.take size := by
      rw [List.take_take, Nat.min_eq_left (by rw [Nat.succ_mul]; omega)]
    have hrest : (b.take ((count + 1) * size)).drop size = (b.drop size).take (count * size) := by
      rw [List.drop_take, Nat.succ_mul, Nat.add_sub_cancel]
    rw [pieces, pieces, hfirst, hrest, ih]

theorem take_overwrite {b : Bytes} {n offset : Nat} (hn : n ≤ offset) (ho : offset ≤ b.length)
    (data : Bytes) : (overwrite b offset data).take n = b.take n := by
  have hl : n ≤ (b.take offset).length := by
    rw [List.length_take]
    omega
  rw [overwrite, List.take_append_of_le_length hl, List.take_take, Nat.min_eq_left hn]

end Bytes

namespace BootSector

def words (image : Bytes) : List Nat := (Bytes.pieces 2 256 image).map Bytes.beNat

theorem exists_word {n : Nat} {b : Bytes} (h : b.length = 2 * (n + 1)) :
    ∃ high low rest, b = high :: low :: rest ∧ rest.length = 2 * n := by
  match b, h with
  | high :: low :: rest, h =>
    simp only [List.length_cons] at h
    exact ⟨high, low, rest, rfl, by omega⟩

theorem toNat_wordSum {n : Nat} {b : Bytes} (h : b.length = 2 * n) :
    (wordSum b).toNat = ((Bytes.pieces 2 n b).map Bytes.beNat).sum % 65536 := by
  induction n generalizing b with
  | zero =>
    obtain rfl := List.eq_nil_of_length_eq_zero h
    rfl
  | succ n ih =>
    obtain ⟨high, low, rest, rfl, hrest⟩ := exists_word h
    have hword : Bytes.beNat [high, low] = 256 * high.toNat + low.toNat := by simp [Bytes.beNat]
    have h256 : (256 : UInt16).toNat = 256 := rfl
    have hhigh := high.toNat_lt
    have hlow := low.toNat_lt
    simp only [wordSum, Bytes.pieces, List.take_succ_cons, List.take_zero, List.drop_succ_cons,
      List.drop_zero, List.map_cons, List.sum_cons, hword, UInt16.toNat_add, UInt16.toNat_mul,
      UInt8.toNat_toUInt16, h256, ih hrest]
    omega

theorem wordSum_append {n : Nat} {a : Bytes} (h : a.length = 2 * n) (b : Bytes) :
    wordSum (a ++ b) = wordSum a + wordSum b := by
  induction n generalizing a with
  | zero =>
    obtain rfl := List.eq_nil_of_length_eq_zero h
    simp [wordSum]
  | succ n ih =>
    obtain ⟨high, low, rest, rfl, hrest⟩ := exists_word h
    simp only [List.cons_append, wordSum, ih hrest, UInt16.add_assoc]

theorem wordSum_toBE (word : UInt16) : wordSum (Bytes.toBE 2 word.toNat) = word := by
  have hl : (Bytes.toBE 2 word.toNat).length = 2 * 1 := Bytes.length_toBE 2 word.toNat
  apply UInt16.toNat_inj.mp
  rw [toNat_wordSum hl]
  have hpieces : Bytes.pieces 2 1 (Bytes.toBE 2 word.toNat) = [Bytes.toBE 2 word.toNat] := by
    rw [Bytes.pieces, List.take_of_length_le (Nat.le_of_eq hl), Bytes.pieces]
  rw [hpieces, List.map_singleton, List.sum_singleton, Bytes.beNat_toBE 2 _ word.toNat_lt]
  exact Nat.mod_eq_of_lt word.toNat_lt

theorem byteAt_ne_zero_iff {image : Bytes} (h : sectorSize ≤ image.length) :
    ParameterBlock.byteAt (image.take sectorSize) 13 ≠ 0 ↔ image[13]? ≠ some 0 := by
  have hl : 13 < image.length := Nat.lt_of_lt_of_le (by decide) h
  have hbyte : ParameterBlock.byteAt (image.take sectorSize) 13 = image[13] := by
    rw [ParameterBlock.byteAt, List.headD_eq_head?_getD, List.head?_drop,
      List.getElem?_take_of_lt (by decide), List.getElem?_eq_getElem hl, Option.getD_some]
  rw [hbyte, List.getElem?_eq_getElem hl, ne_eq, ne_eq, Option.some.injEq]

theorem isProgram_iff {image : Bytes} (h : sectorSize ≤ image.length) :
    wordSum (image.take sectorSize) = programChecksum ↔
      (words image).sum ≡ 0x1234 [MOD 65536] := by
  have hl : (image.take sectorSize).length = 2 * 256 := List.length_take_of_le h
  have hpieces : Bytes.pieces 2 256 (image.take sectorSize) = Bytes.pieces 2 256 image :=
    Bytes.pieces_take 2 256 image
  rw [← UInt16.toNat_inj, toNat_wordSum hl, hpieces]
  rfl

theorem imageIsTrustworthy_iff (image : Bytes) :
    imageIsTrustworthy image = true ↔
      sectorSize ≤ image.length ∧
        (image[13]? ≠ some 0 ∨ (words image).sum ≡ 0x1234 [MOD 65536]) := by
  by_cases h : sectorSize ≤ image.length
  · rw [← byteAt_ne_zero_iff h, ← isProgram_iff h]
    simp [imageIsTrustworthy, ofImage_of_length h, isTrustworthy, isProgram, checksum,
      ParameterBlock.ofSector, h]
  · simp [imageIsTrustworthy, ofImage_of_short (Nat.lt_of_not_le h), h]

/-- A boot sector that cannot be trusted but for its checksum is completed by one last word only. -/
theorem imageIsTrustworthy_lastWord_iff {front : Bytes} (hl : front.length = 510)
    (h0 : front[13]? = some 0) (word : UInt16) (rest : Bytes) :
    imageIsTrustworthy (front ++ Bytes.toBE 2 word.toNat ++ rest) = true ↔
      word = programChecksum - wordSum front := by
  have hsector : (front ++ Bytes.toBE 2 word.toNat).length = sectorSize := by
    rw [List.length_append, hl, Bytes.length_toBE]
    rfl
  have hlong : sectorSize ≤ (front ++ Bytes.toBE 2 word.toNat ++ rest).length := by
    rw [List.length_append, hsector]
    exact Nat.le_add_right _ _
  have hbyte : (front ++ Bytes.toBE 2 word.toNat ++ rest)[13]? = some 0 := by
    rw [List.append_assoc, List.getElem?_append_left (by omega), h0]
  have hsum : wordSum ((front ++ Bytes.toBE 2 word.toNat ++ rest).take sectorSize) =
      wordSum front + word := by
    rw [List.take_left' hsector, wordSum_append (n := 255) hl, wordSum_toBE]
  rw [imageIsTrustworthy_iff, ← isProgram_iff hlong, hsum, hbyte]
  simp only [hlong, ne_eq, not_true_eq_false, false_or, true_and]
  rw [UInt16.eq_sub_iff_add_eq, UInt16.add_comm]

end BootSector

def DiskImage.withData (i : DiskImage) (b : Bytes) : DiskImage :=
  { i with disk := i.disk.map fun d => { d with data := b } }

namespace Geometry

theorem sectorSize_le_offset {g : Geometry} {a : Address} (h : g.contains a = true)
    (ha : a ≠ ⟨0, 0, 1⟩) : sectorSize ≤ g.offset a := by
  have hmem := mem_addresses.mpr h
  obtain ⟨ht, hs, h1, hn⟩ := toNat_of_mem hmem
  have hfirst : (⟨0, 0, 1⟩ : Address) ∈ g.addresses :=
    ⟨Nat.zero_lt_of_lt ht, Nat.zero_lt_of_lt hs, Nat.le_refl 1, Nat.le_trans h1 hn⟩
  have hindex : g.index a ≠ 0 := by
    intro h0
    have hzero : g.index ⟨0, 0, 1⟩ = 0 := by simp [index]
    exact ha (index_inj hmem hfirst (h0.trans hzero.symm))
  rw [offset_eq]
  exact Nat.le_mul_of_pos_right _ (Nat.pos_of_ne_zero hindex)

end Geometry

namespace InsertedDisk

theorem writeAll_outside {i j : InsertedDisk} {ws : List (Address × Bytes)}
    (h : i.writeAll ws = .ok j) (hws : ∀ w ∈ ws, w.1 ≠ ⟨0, 0, 1⟩) :
    j.okToPersist = i.okToPersist ∧ j.geometry = i.geometry ∧
      j.disk.data.take sectorSize = i.disk.data.take sectorSize := by
  induction ws generalizing i with
  | nil =>
    cases h
    exact ⟨rfl, rfl, rfl⟩
  | cons w rest ih =>
    obtain ⟨k, hk, h⟩ := bind_eq_ok h
    obtain ⟨-, hc, hl, rfl⟩ := write_eq_ok hk
    obtain ⟨hok, hg, hfirst⟩ := ih h fun w' hw' => hws w' (List.mem_cons_of_mem _ hw')
    have hoffset := Geometry.sectorSize_le_offset hc (hws w (List.mem_cons_self ..))
    exact ⟨hok, hg, hfirst.trans (Bytes.take_overwrite hoffset (by omega) w.2)⟩

end InsertedDisk

namespace DiskImage

variable {i : DiskImage} {b : Bytes}

theorem data_withData (hl : b.length = i.data.length) : (i.withData b).data = b := by
  rcases i with ⟨name, disk, isSaved⟩
  cases disk with
  | none => exact (List.eq_nil_of_length_eq_zero hl).symm
  | some d => rfl

theorem sameAs_withData (hl : b.length = i.data.length)
    (h : b.take sectorSize = i.data.take sectorSize) :
    (i.withData b).bootSectorIsTrustworthy = i.bootSectorIsTrustworthy ∧
      (i.withData b).canPersist = i.canPersist ∧ (i.withData b).geometry = i.geometry ∧
      ∀ f, ((i.withData b).encode f).isOk = (i.encode f).isOk := by
  rcases i with ⟨name, disk, isSaved⟩
  cases disk with
  | none => exact ⟨rfl, rfl, rfl, fun f => rfl⟩
  | some d =>
    exact ⟨BootSector.imageIsTrustworthy_congr h, Disk.canPersist_withData h,
      Disk.geometry_withData hl h, fun f => Disk.isOk_encode_withData f hl h⟩

end DiskImage

/-- The boot sector decides if a disk may be written back and how. It is trusted just if it is whole
and byte 13 is not zero or its 256 words sum up to the checksum, for which there is one last word
whatever is in front of it. Other data with the same first sector, and writes to other sectors, leave
the permission, the layout and the formats that the disk can be written in as they are. -/
theorem BootSector.decides_writeBack :
    (∀ image : Bytes, imageIsTrustworthy image = true ↔
      512 ≤ image.length ∧
        (image[13]? ≠ some 0 ∨ (words image).sum ≡ 0x1234 [MOD 65536])) ∧
    (∀ front : Bytes, front.length = 510 → front[13]? = some 0 →
      ∃ last : UInt16, ∀ (word : UInt16) (rest : Bytes),
        imageIsTrustworthy (front ++ Bytes.toBE 2 word.toNat ++ rest) = true ↔ word = last) ∧
    (∀ (i : DiskImage) (b : Bytes), b.length = i.data.length → b.take 512 = i.data.take 512 →
      (i.withData b).data = b ∧
      (i.withData b).bootSectorIsTrustworthy = i.bootSectorIsTrustworthy ∧
      (i.withData b).canPersist = i.canPersist ∧ (i.withData b).geometry = i.geometry ∧
      ∀ f, ((i.withData b).encode f).isOk = (i.encode f).isOk) ∧
    ∀ (i j : InsertedDisk) (ws : List (Address × Bytes)), (∀ w ∈ ws, w.1 ≠ ⟨0, 0, 1⟩) →
      i.writeAll ws = .ok j →
      j.okToPersist = i.okToPersist ∧ j.disk.canPersist = i.disk.canPersist ∧
      j.disk.geometry = i.disk.geometry ∧
      j.disk.toSectorImage = { i.disk.toSectorImage with data := j.disk.data } ∧
      ∀ f, (j.disk.encode f).isOk = (i.disk.encode f).isOk := by
  refine ⟨imageIsTrustworthy_iff, ?_, ?_, ?_⟩
  · intro front hl h0
    exact ⟨programChecksum - wordSum front, imageIsTrustworthy_lastWord_iff hl h0⟩
  · intro i b hl h
    exact ⟨DiskImage.data_withData hl, DiskImage.sameAs_withData hl h⟩
  · intro i j ws hws h
    obtain ⟨hok, -, hfirst⟩ := InsertedDisk.writeAll_outside h hws
    obtain ⟨hd, hl⟩ := InsertedDisk.writeAll_eq_ok h
    have hpersist := Disk.canPersist_withData (d := i.disk) hfirst
    have hgeometry := Disk.geometry_withData (d := i.disk) hl hfirst
    rw [← hd] at hpersist hgeometry
    refine ⟨hok, hpersist, hgeometry, ?_, fun f => ?_⟩
    · rw [Disk.toSectorImage, Disk.toSectorImage, hgeometry, hd]
    · rw [hd]
      exact Disk.isOk_encode_withData f hl hfirst

/-- Zeros and a last word; two sectors with another second one; a write to the second sector. -/
theorem BootSector.decides_writeBack_second_sector :
    let d : Disk := ⟨.st, .plainSector, Disk.twoSectors, false, none, none⟩
    let b := Disk.twoSectors.take 512 ++ List.replicate 512 7
    (∀ word : UInt16, imageIsTrustworthy
      (List.replicate 510 0 ++ Bytes.toBE 2 word.toNat ++ []) = true ↔ word = 0x1234) ∧
    (DiskImage.withData ⟨"A.ST", some d, false⟩ b).canPersist = true ∧
    (DiskImage.withData ⟨"A.ST", some d, false⟩ b).geometry = ⟨1, 1, 2⟩ ∧
    ∃ j, (InsertedDisk.ofDisk "A.ST" d false).writeAll [(⟨0, 0, 2⟩, [1, 2, 3])] = .ok j ∧
      j.disk.data = Disk.twoSectors.take 512 ++ [1, 2, 3] ++ List.replicate 509 0 ∧
      j.disk.canPersist = true ∧ j.disk.geometry = ⟨1, 1, 2⟩ := by
  intro d b
  obtain ⟨-, hlast, hother, hwrites⟩ := decides_writeBack
  refine ⟨?_, ?_, ?_, ?_⟩
  · obtain ⟨last, hlast⟩ := hlast (List.replicate 510 0) List.length_replicate (by decide +kernel)
    have h : (0x1234 : UInt16) = last := (hlast 0x1234 []).mp (by decide +kernel)
    intro word
    rw [h]
    exact hlast word []
  · obtain ⟨-, -, hpersist, -⟩ := hother ⟨"A.ST", some d, false⟩ b (by decide +kernel)
      (by decide +kernel)
    rw [hpersist]
    decide +kernel
  · obtain ⟨-, -, -, hgeometry, -⟩ := hother ⟨"A.ST", some d, false⟩ b (by decide +kernel)
      (by decide +kernel)
    rw [hgeometry]
    decide +kernel
  · have hw : (InsertedDisk.ofDisk "A.ST" d false).writeAll [(⟨0, 0, 2⟩, [1, 2, 3])] =
        .ok { name := "A.ST", isModified := true, geometry := ⟨1, 1, 2⟩, okToPersist := true,
              disk := { d with
                data := Disk.twoSectors.take 512 ++ [1, 2, 3] ++ List.replicate 509 0 } } :=
      eq_ok_of_toOption (by decide +kernel)
    obtain ⟨-, hpersist, hgeometry, -⟩ := hwrites _ _ _ (by decide) hw
    refine ⟨_, hw, rfl, ?_, ?_⟩
    · rw [hpersist]
      decide +kernel
    · rw [hgeometry]
      decide +kernel

end Diskette
