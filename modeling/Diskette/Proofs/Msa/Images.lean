import Diskette.Proofs.Msa.Tracks

/-!
# Which images an MSA file can hold

An image can be written if its layout divides it into whole tracks and is within the bounds of a
header, and whatever is read is such an image. What is written is told from every other format, and
all its numbers fit the two bytes they have.
-/

set_option autoImplicit false

namespace Diskette.Msa

theorem isOk_save_iff {i : SectorImage} :
    (save i).isOk = true ↔ ∃ tracks, i.Whole maxSectorsPerTrack (maxTrack + 1) tracks := by
  unfold save
  dsimp only
  rw [isOk_unless, isOk_unless, isOk_unless, SectorImage.exists_whole_iff]
  exact ⟨fun h => ⟨h.1, h.2.1, h.2.2.1⟩, fun h => ⟨h.1, h.2.1, h.2.2, rfl⟩⟩

theorem exists_save {i : SectorImage} {tracks : Nat}
    (h : i.Whole maxSectorsPerTrack (maxTrack + 1) tracks) : ∃ b, save i = .ok b :=
  exists_of_isOk (isOk_save_iff.mpr ⟨tracks, h⟩)

theorem whole_of_load {file : Bytes} {i : SectorImage} (h : load file = .ok i) :
    ∃ tracks, i.Whole maxSectorsPerTrack (maxTrack + 1) tracks := by
  obtain ⟨header, hv, -, hlayout, hlen⟩ := load_eq_ok h
  have hsides : i.layout.sides.toNat = header.lastSide.toNat + 1 := by
    rw [hlayout, hv.toNat_sides]
  have hsides_le := hv.sides_le
  refine ⟨header.endTrack.toNat + 1, ?_⟩
  rw [← hlayout] at hsides_le hlen
  constructor
  · omega
  · exact hsides_le
  · exact hlayout ▸ hv.sectors_pos
  · exact hlayout ▸ hv.sectors_le
  · exact Nat.succ_pos _
  · exact Nat.succ_le_succ hv.endTrack_le
  · have hsize : header.trackSize = i.layout.sectorsPerTrack.toNat * sectorSize := by
      rw [hlayout]
      rfl
    rw [hlen, hsize, Nat.mul_assoc, Nat.mul_comm i.layout.sides.toNat]

theorem bytes_eq_cons {h : Header} (hs : h.signature = magicNumber) :
    ∃ rest, h.bytes = 0x0E :: 0x0F :: rest := by
  refine ⟨[h.sectorsPerTrack, h.lastSide, h.startTrack, h.endTrack].flatMap
    (fun w => Bytes.toBE 2 w.toNat), ?_⟩
  rw [Header.bytes, List.flatMap_cons, hs]
  rfl

theorem isMsa_of_isValid {h : Header} (hv : h.isValid = true) (rest : Bytes) :
    isMsa (h.bytes ++ rest) = true := by
  have hsplit := Bytes.split?_append h.bytes rest
  rw [Header.length_bytes] at hsplit
  rw [isMsa, hsplit]
  dsimp only
  rw [Header.ofBytes_bytes, hv]

theorem ofContent?_of_isValid {h : Header} (hv : h.isValid = true) (rest : Bytes) :
    Format.ofContent? (h.bytes ++ rest) = some .msa := by
  have hs : h.signature = magicNumber := by
    simp only [Header.isValid, Bool.and_eq_true, beq_iff_eq] at hv
    exact hv.1.1.1.1
  obtain ⟨front, hb⟩ := bytes_eq_cons hs
  have hzip : Format.zip.fits (h.bytes ++ rest) = false := by
    rw [hb]
    rfl
  have hmsa : Format.msa.fits (h.bytes ++ rest) = true := isMsa_of_isValid hv rest
  simp only [Format.ofContent?, Format.bySurety, List.find?_cons, hzip, hmsa]

def tracksOf (i : SectorImage) (tracks : Nat) : List Bytes :=
  Bytes.pieces (i.layout.sectorsPerTrack.toNat * sectorSize) (tracks * i.layout.sides.toNat) i.data

/-- The number is read back from the two bytes that it is written to. -/
def FitsField (n : Nat) : Prop := Bytes.beNat (Bytes.toBE 2 n) = n

theorem fitsField_of_lt {n : Nat} (h : n < 65536) : FitsField n := Bytes.beNat_toBE 2 n h

/-- A file of so many tracks in which no number is cut to its field. -/
structure Untruncated (i : SectorImage) (tracks : Nat) (b : Bytes) : Prop where
  file : b = (headerOf i.layout tracks).bytes ++ (tracksOf i tracks).flatMap saveTrack
  data : (tracksOf i tracks).flatten = i.data
  lastSide : (headerOf i.layout tracks).lastSide.toNat + 1 = i.layout.sides.toNat
  endTrack : (headerOf i.layout tracks).endTrack.toNat + 1 = tracks
  stored : ∀ t ∈ tracksOf i tracks, ∃ content,
    saveTrack t = Bytes.toBE 2 content.length ++ content ∧ FitsField content.length
  runs : ∀ t ∈ tracksOf i tracks, ∀ r ∈ runs t, FitsField r.2

theorem length_le_of_mem {rs : List (UInt8 × Nat)} {r : UInt8 × Nat} (h : r ∈ rs) :
    r.2 ≤ (spread rs).length := by
  induction rs with
  | nil => cases h
  | cons s rest ih =>
    rw [spread_cons, List.length_append, List.length_replicate]
    rcases List.mem_cons.mp h with rfl | h
    · exact Nat.le_add_right _ _
    · exact Nat.le_trans (ih h) (Nat.le_add_left _ _)

theorem length_le_of_mem_runs {track : Bytes} {r : UInt8 × Nat} (h : r ∈ runs track) :
    r.2 ≤ track.length := by
  have hl := length_le_of_mem h
  rwa [spread_runs] at hl

theorem untruncated_of_save {i : SectorImage} {b : Bytes} (h : save i = .ok b) :
    ∃ tracks, Untruncated i tracks b := by
  obtain ⟨tracks, hw, hb⟩ := save_eq_ok h
  have hlen := length_eq_pieces hw
  have hsize := trackSize_le hw
  have hshort : ∀ t ∈ tracksOf i tracks, t.length < 65536 := by
    intro t ht
    rw [Bytes.length_of_mem_pieces hlen t ht]
    omega
  refine ⟨tracks, hb, Bytes.flatten_pieces hlen, ?_, ?_, ?_, ?_⟩
  · have hpos := hw.sides_pos
    have hlast : (headerOf i.layout tracks).lastSide.toNat = i.layout.sides.toNat - 1 :=
      toNat_lastSide hw
    omega
  · have hpos := hw.tracks_pos
    have hend := toNat_endTrack hw
    omega
  · intro t ht
    obtain ⟨content, hs, hle, -⟩ := saveTrack_eq (hshort t ht)
    exact ⟨content, hs, fitsField_of_lt (Nat.lt_of_le_of_lt hle (hshort t ht))⟩
  · intro t ht r hr
    exact fitsField_of_lt (Nat.lt_of_le_of_lt (length_le_of_mem_runs hr) (hshort t ht))

theorem recognised_of_save {i : SectorImage} {b : Bytes} (h : save i = .ok b) :
    isMsa b = true ∧ Format.ofContent? b = some .msa := by
  obtain ⟨tracks, hw, rfl⟩ := save_eq_ok h
  have hv := isValid_headerOf hw
  exact ⟨isMsa_of_isValid hv _, ofContent?_of_isValid hv _⟩

theorem exists_whole_iff_bounds {i : SectorImage} :
    (∃ tracks, i.Whole maxSectorsPerTrack (maxTrack + 1) tracks) ↔
      (i.layout.sides.toNat = 1 ∨ i.layout.sides.toNat = 2) ∧
      (1 ≤ i.layout.sectorsPerTrack.toNat ∧ i.layout.sectorsPerTrack.toNat ≤ 64) ∧
      i.data ≠ [] ∧
      i.layout.sectorsPerTrack.toNat * sectorSize * i.layout.sides.toNat ∣ i.data.length ∧
      i.data.length / (i.layout.sectorsPerTrack.toNat * sectorSize * i.layout.sides.toNat) ≤ 86 := by
  have hdata : i.data ≠ [] ↔ i.data.length ≠ 0 := not_congr List.length_eq_zero_iff.symm
  rw [SectorImage.exists_whole_iff, Nat.dvd_iff_mod_eq_zero, hdata]
  simp only [maxSectorsPerTrack, maxTrack]
  omega

/-- An image can be written just if it is one to 86 whole tracks of one or two sides and 1 to 64
sectors. The file is taken for MSA, whether by itself or among all formats, every number in it is
exact, and it is read back as the data and the layout. Every file that can be read is of such an
image, which can be written and read again. -/
theorem save_and_load :
    (∀ i : SectorImage,
      ((save i).isOk = true ↔
        (i.layout.sides.toNat = 1 ∨ i.layout.sides.toNat = 2) ∧
        (1 ≤ i.layout.sectorsPerTrack.toNat ∧ i.layout.sectorsPerTrack.toNat ≤ 64) ∧
        i.data ≠ [] ∧
        i.layout.sectorsPerTrack.toNat * sectorSize * i.layout.sides.toNat ∣ i.data.length ∧
        i.data.length / (i.layout.sectorsPerTrack.toNat * sectorSize * i.layout.sides.toNat) ≤ 86) ∧
      ∀ b, save i = .ok b →
        isMsa b = true ∧ Format.ofContent? b = some .msa ∧
        load b = .ok { data := i.data, layout := i.layout, header := none } ∧
        ∃ tracks, Untruncated i tracks b) ∧
    ∀ file i, load file = .ok i → ∃ b, save i = .ok b ∧ load b = .ok i := by
  constructor
  · intro i
    refine ⟨isOk_save_iff.trans exists_whole_iff_bounds, ?_⟩
    intro b hb
    obtain ⟨hmsa, hcontent⟩ := recognised_of_save hb
    exact ⟨hmsa, hcontent, load_save hb, untruncated_of_save hb⟩
  · intro file i hi
    obtain ⟨tracks, hw⟩ := whole_of_load hi
    obtain ⟨b, hb⟩ := exists_save hw
    obtain ⟨header, -, hnone, -⟩ := load_eq_ok hi
    have hback := load_save hb
    refine ⟨b, hb, ?_⟩
    rw [hback, ← hnone]

end Diskette.Msa
