import Diskette.Proofs.Msa.Grammar
import Diskette.Proofs.Msa.Images

/-!
# Nothing shorter unpacks to the same track

A token in front of a track adds no more to its packed form than the bytes of the token: a literal
makes one run longer by one, and a run joins the run behind it or adds one of at most four bytes. So
the packed form is no longer than any tokens that expand to the track, and a file whose tracks are all
stored does not grow when it is read and written again.
-/

set_option autoImplicit false

namespace Diskette.Msa

theorem length_packRun (r : UInt8 × Nat) :
    (packRun r).length = if 4 ≤ r.2 ∨ r.1 = marker then 4 else r.2 := by
  unfold packRun
  split <;> simp

theorem length_packRun_le (r : UInt8 × Nat) : (packRun r).length ≤ 4 := by
  rw [length_packRun]
  split <;> omega

theorem runs_cons (b : UInt8) (track : Bytes) : runs (b :: track) = addToRuns b (runs track) := rfl

theorem length_pack_literal {b : UInt8} (hb : b ≠ marker) (track : Bytes) :
    (pack (b :: track)).length ≤ 1 + (pack track).length := by
  rw [pack, pack, runs_cons]
  cases runs track with
  | nil => simp [addToRuns, length_packRun, hb]
  | cons r rest =>
    obtain ⟨v, n⟩ := r
    by_cases hv : v = b
    · subst hv
      simp only [addToRuns, if_true, List.flatMap_cons, List.length_append, length_packRun, hb,
        or_false]
      split <;> split <;> omega
    · simp [addToRuns, hv, length_packRun, hb]

theorem runs_replicate_append (v : UInt8) (n : Nat) (track : Bytes) :
    ∃ m rest, runs (List.replicate (n + 1) v ++ track) = (v, m) :: rest ∧
      (rest.flatMap packRun).length ≤ (pack track).length := by
  induction n with
  | zero =>
    change ∃ m rest, addToRuns v (runs track) = _ ∧ _
    rw [pack]
    cases runs track with
    | nil => exact ⟨1, [], rfl, Nat.le_refl _⟩
    | cons r rest =>
      obtain ⟨w, m⟩ := r
      by_cases hw : w = v
      · subst hw
        exact ⟨m + 1, rest, if_pos rfl, by simp⟩
      · exact ⟨1, (w, m) :: rest, if_neg hw, Nat.le_refl _⟩
  | succ n ih =>
    obtain ⟨m, rest, hruns, hle⟩ := ih
    refine ⟨m + 1, rest, ?_, hle⟩
    rw [List.replicate_succ, List.cons_append, runs_cons, hruns]
    exact if_pos rfl

theorem length_pack_run (v : UInt8) (n : Nat) (track : Bytes) :
    (pack (List.replicate n v ++ track)).length ≤ 4 + (pack track).length := by
  cases n with
  | zero => simp
  | succ n =>
    obtain ⟨m, rest, hruns, hle⟩ := runs_replicate_append v n track
    have h4 := length_packRun_le (v, m)
    rw [pack, hruns, List.flatMap_cons, List.length_append]
    omega

theorem length_pack_token (t : Token) (track : Bytes) :
    (pack (t.expansion ++ track)).length ≤ t.bytes.length + (pack track).length := by
  cases t with
  | literal b hb => exact length_pack_literal hb track
  | run value count =>
    have hl : (Token.run value count).bytes.length = 4 := by simp [Token.bytes]
    rw [hl]
    exact length_pack_run value count.toNat track

/-- The packed form is no longer than any tokens for the same track. -/
theorem length_pack_expand (ts : List Token) :
    (pack (expand ts)).length ≤ (tokenBytes ts).length := by
  induction ts with
  | nil => exact Nat.le_refl _
  | cons t ts ih =>
    have ht := length_pack_token t (expand ts)
    rw [expand_cons, tokenBytes_cons, List.length_append]
    omega

theorem length_pack_le {size : Nat} {packed track : Bytes} (h : unpack size packed = .ok track) :
    (pack track).length ≤ packed.length := by
  obtain ⟨-, ts, rfl, rfl⟩ := unpack_eq_ok_iff.mp h
  exact length_pack_expand ts

theorem length_saveTrack_le {size : Nat} (hsize : size < 65536) (s : StoredTrack size) :
    (saveTrack s.track).length ≤ s.bytes.length := by
  rw [StoredTrack.bytes, List.length_append, Bytes.length_toBE]
  cases s with
  | full track h =>
    have hle : (saveTrack track).length ≤ track.length + 2 := length_saveTrack (by omega)
    change (saveTrack track).length ≤ 2 + track.length
    omega
  | packed tokens short h =>
    have hle := length_pack_expand tokens
    have hlt : (pack (expand tokens)).length < (expand tokens).length := by omega
    change (saveTrack (expand tokens)).length ≤ 2 + (tokenBytes tokens).length
    simp only [saveTrack, if_pos hlt, List.length_append, Bytes.length_toBE]
    omega

theorem length_flatMap_saveTrack_le {size : Nat} (hsize : size < 65536)
    (ss : List (StoredTrack size)) :
    ((ss.map StoredTrack.track).flatMap saveTrack).length ≤ (ss.flatMap StoredTrack.bytes).length := by
  induction ss with
  | nil => exact Nat.le_refl _
  | cons s ss ih =>
    have hs := length_saveTrack_le hsize s
    rw [List.map_cons, List.flatMap_cons, List.flatMap_cons, List.length_append, List.length_append]
    omega

theorem pieces_flatten {size : Nat} {tracks : List Bytes} (h : ∀ t ∈ tracks, t.length = size) :
    Bytes.pieces size tracks.length tracks.flatten = tracks := by
  induction tracks with
  | nil => rfl
  | cons t rest ih =>
    have ht := h t (by simp)
    have hrest := ih fun u hu => h u (by simp [hu])
    subst ht
    rw [List.length_cons, List.flatten_cons, Bytes.pieces, List.take_left, List.drop_left, hrest]

theorem save_image {m : File} (h0 : m.header.startTrack = 0) {b : Bytes}
    (h : save m.image = .ok b) :
    ∃ header : Header,
      b = header.bytes ++ (m.stored.map StoredTrack.track).flatMap saveTrack := by
  obtain ⟨tracks, hw, rfl⟩ := save_eq_ok h
  have htrackSize : m.image.layout.sectorsPerTrack.toNat * sectorSize = m.trackSize :=
    m.trackSize_eq.symm
  have hpos : 0 < m.trackSize := htrackSize ▸ Nat.mul_pos m.valid.sectors_pos (by decide)
  have hdata : m.image.data = (m.stored.map StoredTrack.track).flatten := by
    simp [File.image, h0, List.flatMap_def]
  have hsize := StoredTrack.length_of_mem_map m.stored
  have hcount : tracks * m.image.layout.sides.toNat = (m.stored.map StoredTrack.track).length := by
    have hlen := length_eq_pieces hw
    rw [hdata, length_flatten hsize, htrackSize] at hlen
    exact (Nat.eq_of_mul_eq_mul_right hpos hlen).symm
  refine ⟨headerOf m.image.layout tracks, ?_⟩
  rw [htrackSize, hcount, hdata, pieces_flatten hsize]

theorem ofBytes_take (m : File) (rest : Bytes) :
    Header.ofBytes ((m.bytes ++ rest).take headerSize) = m.header := by
  rw [File.bytes, List.append_assoc, ← Header.length_bytes m.header, List.take_left,
    Header.ofBytes_bytes]

/-- A track of less than 65536 bytes is unpacked from its packed form, and whatever else unpacks to
it is at least as long. So a file that is read, and stores all tracks from the first on, is written
again in no more bytes. -/
theorem pack_shortest :
    (∀ track : Bytes, track.length ≤ 65535 → unpack track.length (pack track) = .ok track ∧
      ∀ size packed, unpack size packed = .ok track → (pack track).length ≤ packed.length) ∧
    ∀ file i, load file = .ok i → (Header.ofBytes (file.take headerSize)).startTrack = 0 →
      ∃ b, save i = .ok b ∧ b.length ≤ file.length := by
  constructor
  · intro track hl
    exact ⟨unpack_pack (by omega), fun size packed h => length_pack_le h⟩
  · intro file i hi h0
    obtain ⟨tracks, hw⟩ := whole_of_load hi
    obtain ⟨b, hb⟩ := exists_save hw
    obtain ⟨-, m, rest, rfl, rfl⟩ := exists_file_of_load hi
    rw [ofBytes_take] at h0
    obtain ⟨header, rfl⟩ := save_image h0 hb
    have hsize : m.trackSize < 65536 := m.trackSize_eq ▸ m.valid.trackSize_lt
    have hle := length_flatMap_saveTrack_le hsize m.stored
    refine ⟨_, hb, ?_⟩
    simp only [File.bytes, List.length_append, Header.length_bytes]
    omega

/-- A run that is split, with an empty run in it, and the one run it is packed into. -/
example : unpack 9 ([0xE5, 7, 0, 4] ++ [0xE5, 1, 0, 0] ++ [0xE5, 7, 0, 5]) =
    .ok (List.replicate 9 7) ∧ pack (List.replicate 9 7) = [0xE5, 7, 0, 9] :=
  ⟨by rfl, by decide⟩

end Diskette.Msa
