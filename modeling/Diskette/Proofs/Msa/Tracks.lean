import Diskette.Proofs.Disk.Decoding
import Diskette.Proofs.Msa.Packing

/-!
# MSA files are read back

Every track that is stored is read back in full, whether it was packed or not, and the header gives
back the layout. So what is written can be read, and it has all the sectors and the layout of the
image.
-/

set_option autoImplicit false

namespace Diskette

namespace Bytes

theorem length_pieces (size count : Nat) (b : Bytes) : (pieces size count b).length = count := by
  induction count generalizing b with
  | zero => rfl
  | succ k ih => rw [pieces, List.length_cons, ih]

theorem flatten_pieces {size count : Nat} {b : Bytes} (h : b.length = count * size) :
    (pieces size count b).flatten = b := by
  induction count generalizing b with
  | zero =>
    rw [Nat.zero_mul] at h
    exact (List.length_eq_zero_iff.mp h).symm
  | succ k ih =>
    have hd : (b.drop size).length = k * size := by
      rw [List.length_drop, h, Nat.succ_mul, Nat.add_sub_cancel]
    rw [pieces, List.flatten_cons, ih hd, List.take_append_drop]

theorem length_of_mem_pieces {size count : Nat} {b : Bytes} (h : b.length = count * size) :
    ∀ t ∈ pieces size count b, t.length = size := by
  induction count generalizing b with
  | zero =>
    intro t ht
    cases ht
  | succ k ih =>
    rw [Nat.succ_mul] at h
    intro t ht
    rcases List.mem_cons.mp ht with rfl | ht
    · rw [List.length_take, h]
      omega
    · apply ih _ t ht
      rw [List.length_drop, h, Nat.add_sub_cancel]

end Bytes

namespace Msa

theorem saveTrack_eq {track : Bytes} (h : track.length < 65536) :
    ∃ content, saveTrack track = Bytes.toBE 2 content.length ++ content ∧
      content.length ≤ track.length ∧
      (if content.length = track.length then .ok content else unpack track.length content) =
        (.ok track : Except Fault Bytes) := by
  unfold saveTrack
  dsimp only
  by_cases hp : (pack track).length < track.length
  · refine ⟨pack track, by rw [if_pos hp], Nat.le_of_lt hp, ?_⟩
    rw [if_neg (Nat.ne_of_lt hp), unpack_pack h]
  · refine ⟨track, by rw [if_neg hp], Nat.le_refl _, ?_⟩
    rw [if_pos rfl]

theorem length_saveTrack {track : Bytes} (h : track.length < 65536) :
    (saveTrack track).length ≤ track.length + 2 := by
  obtain ⟨content, hs, hl, -⟩ := saveTrack_eq h
  rw [hs, List.length_append, Bytes.length_toBE]
  omega

theorem loadTracks_saveTrack {size : Nat} (hsize : size < 65536) (tracks : List Bytes) :
    ∀ places : List (Nat × Nat), places.length = tracks.length →
      (∀ t ∈ tracks, t.length = size) →
      loadTracks size places (tracks.flatMap saveTrack) = .ok tracks := by
  induction tracks with
  | nil =>
    intro places hl ht
    rw [List.length_eq_zero_iff.mp hl]
    rfl
  | cons track rest ih =>
    intro places hl ht
    cases places with
    | nil => cases hl
    | cons place more =>
      have htrack := ht track (by simp)
      have hrest := ih more (Nat.succ.inj hl) (fun t hm => ht t (by simp [hm]))
      subst htrack
      obtain ⟨content, hs, hc, hu⟩ := saveTrack_eq hsize
      have hlim : content.length < Bytes.limit 2 := Nat.lt_of_le_of_lt hc hsize
      have hfield := Bytes.split?_append (Bytes.toBE 2 content.length)
        (content ++ rest.flatMap saveTrack)
      have hcontent := Bytes.split?_append content (rest.flatMap saveTrack)
      have hle : ¬track.length < content.length := by omega
      rw [Bytes.length_toBE] at hfield
      rw [List.flatMap_cons, hs, List.append_assoc, loadTracks]
      simp only [hfield, Bytes.beNat_toBE 2 _ hlim, if_neg hle, hcontent, hrest]
      by_cases he : content.length = track.length
      · rw [if_pos he] at hu ⊢
        cases hu
        rfl
      · rw [if_neg he] at hu ⊢
        rw [hu]
        rfl

theorem toNat_toBE (w : UInt16) : UInt16.ofNat (Bytes.beNat (Bytes.toBE 2 w.toNat)) = w := by
  rw [Bytes.beNat_toBE 2 _ w.toNat_lt, UInt16.ofNat_toNat]

theorem Header.ofBytes_bytes (h : Header) : Header.ofBytes h.bytes = h := by
  obtain ⟨signature, sectorsPerTrack, lastSide, startTrack, endTrack⟩ := h
  rw [Header.ofBytes, Header.mk.injEq]
  exact ⟨toNat_toBE signature, toNat_toBE sectorsPerTrack, toNat_toBE lastSide,
    toNat_toBE startTrack, toNat_toBE endTrack⟩

theorem Header.length_bytes (h : Header) : h.bytes.length = headerSize := by
  simp [Header.bytes, headerSize]

def headerOf (l : Layout) (tracks : Nat) : Header :=
  ⟨magicNumber, l.sectorsPerTrack, l.sides - 1, 0, UInt16.ofNat (tracks - 1)⟩

theorem layout_headerOf (l : Layout) (tracks : Nat) : (headerOf l tracks).layout = l := by
  simp [headerOf, Header.layout]

theorem save_eq_ok {i : SectorImage} {b : Bytes} (h : save i = .ok b) :
    ∃ tracks, i.Whole maxSectorsPerTrack (maxTrack + 1) tracks ∧
      b = (headerOf i.layout tracks).bytes ++
        (Bytes.pieces (i.layout.sectorsPerTrack.toNat * sectorSize)
          (tracks * i.layout.sides.toNat) i.data).flatMap saveTrack := by
  unfold save at h
  dsimp only at h
  split at h
  · cases h
  · rename_i hl
    split at h
    · cases h
    · rename_i hw
      split at h
      · cases h
      · rename_i ht
        cases h
        exact ⟨_, SectorImage.whole_of_checks hl hw ht, rfl⟩

section

variable {i : SectorImage} {tracks : Nat} (h : i.Whole maxSectorsPerTrack (maxTrack + 1) tracks)
include h

theorem toNat_lastSide : (i.layout.sides - 1).toNat = i.layout.sides.toNat - 1 := by
  have h1 : (1 : UInt16).toNat = 1 := rfl
  have hp := h.sides_pos
  rw [UInt16.toNat_sub_of_le]
  · rw [h1]
  · rw [UInt16.le_iff_toNat_le, h1]
    exact hp

theorem toNat_endTrack : (headerOf i.layout tracks).endTrack.toNat = tracks - 1 := by
  have ht := h.tracks_le
  simp only [maxTrack] at ht
  rw [headerOf, UInt16.toNat_ofNat']
  omega

theorem isValid_headerOf : (headerOf i.layout tracks).isValid = true := by
  have hsides := h.sides_le
  have ht := h.tracks_le
  apply (Header.isValid_iff _).mpr
  refine ⟨rfl, h.sectors_pos, h.sectors_le, ?_, Nat.zero_le _, ?_⟩
  · rw [headerOf, toNat_lastSide h]
    omega
  · rw [toNat_endTrack h]
    exact Nat.sub_le_of_le_add ht

theorem length_stored_headerOf :
    (headerOf i.layout tracks).stored.length = tracks * i.layout.sides.toNat := by
  have ht := h.tracks_pos
  have h0 : (headerOf i.layout tracks).startTrack.toNat = 0 := rfl
  rw [length_stored, toNat_endTrack h, layout_headerOf, h0]
  congr 1
  omega

end

theorem length_flatMap_saveTrack {size : Nat} (hsize : size < 65536) {tracks : List Bytes}
    (ht : ∀ t ∈ tracks, t.length = size) :
    (tracks.flatMap saveTrack).length ≤ tracks.length * (size + 2) := by
  induction tracks with
  | nil => exact Nat.zero_le _
  | cons track rest ih =>
    have htrack := ht track (by simp)
    have hrest := ih fun t hm => ht t (by simp [hm])
    have hl := length_saveTrack (show track.length < 65536 by omega)
    rw [List.flatMap_cons, List.length_append, List.length_cons, Nat.succ_mul]
    omega

theorem length_eq_pieces {i : SectorImage} {tracks : Nat}
    (h : i.Whole maxSectorsPerTrack (maxTrack + 1) tracks) :
    i.data.length =
      tracks * i.layout.sides.toNat * (i.layout.sectorsPerTrack.toNat * sectorSize) := by
  rw [h.length_eq, Nat.mul_assoc tracks, Nat.mul_comm i.layout.sides.toNat]

theorem trackSize_le {i : SectorImage} {tracks : Nat}
    (h : i.Whole maxSectorsPerTrack (maxTrack + 1) tracks) :
    i.layout.sectorsPerTrack.toNat * sectorSize ≤ 64 * 512 :=
  Nat.mul_le_mul_right 512 h.sectors_le

theorem length_save_le {i : SectorImage} {tracks : Nat}
    (h : i.Whole maxSectorsPerTrack (maxTrack + 1) tracks) :
    ((headerOf i.layout tracks).bytes ++
      (Bytes.pieces (i.layout.sectorsPerTrack.toNat * sectorSize)
        (tracks * i.layout.sides.toNat) i.data).flatMap saveTrack).length ≤ maxImageSize := by
  have hsize := trackSize_le h
  have hlt : i.layout.sectorsPerTrack.toNat * sectorSize < 65536 := by omega
  have hflat := length_flatMap_saveTrack hlt (Bytes.length_of_mem_pieces (length_eq_pieces h))
  have hcount : tracks * i.layout.sides.toNat ≤ 86 * 2 := Nat.mul_le_mul h.tracks_le h.sides_le
  have hmul : tracks * i.layout.sides.toNat * (i.layout.sectorsPerTrack.toNat * sectorSize + 2) ≤
      86 * 2 * (64 * 512 + 2) :=
    Nat.mul_le_mul hcount (by omega)
  rw [Bytes.length_pieces] at hflat
  rw [List.length_append, Header.length_bytes]
  simp only [headerSize, maxImageSize]
  omega

/-- An MSA file that is written holds every sector and the layout. -/
theorem load_save {i : SectorImage} {b : Bytes} (h : save i = .ok b) :
    load b = .ok { data := i.data, layout := i.layout } := by
  obtain ⟨tracks, hw, rfl⟩ := save_eq_ok h
  have hlen := length_eq_pieces hw
  have hsize := trackSize_le hw
  have hlt : i.layout.sectorsPerTrack.toNat * sectorSize < 65536 := by omega
  have hsplit := Bytes.split?_append (headerOf i.layout tracks).bytes
    ((Bytes.pieces (i.layout.sectorsPerTrack.toNat * sectorSize)
      (tracks * i.layout.sides.toNat) i.data).flatMap saveTrack)
  have hplaces : (headerOf i.layout tracks).stored.length =
      (Bytes.pieces (i.layout.sectorsPerTrack.toNat * sectorSize)
        (tracks * i.layout.sides.toNat) i.data).length := by
    rw [length_stored_headerOf hw, Bytes.length_pieces]
  have htracks := loadTracks_saveTrack hlt _ _ hplaces (Bytes.length_of_mem_pieces hlen)
  have hts : (headerOf i.layout tracks).trackSize =
      i.layout.sectorsPerTrack.toNat * sectorSize := rfl
  have h0 : (headerOf i.layout tracks).startTrack.toNat = 0 := rfl
  rw [Header.length_bytes] at hsplit
  rw [load, if_neg (Nat.not_lt_of_le (length_save_le hw))]
  simp only [hsplit, Header.ofBytes_bytes, isValid_headerOf hw, hts, htracks, layout_headerOf, h0,
    Nat.zero_mul, List.replicate_zero, List.nil_append]
  rw [if_neg (by simp)]
  change Except.ok _ = _
  rw [Bytes.flatten_pieces hlen]

end Msa

end Diskette
