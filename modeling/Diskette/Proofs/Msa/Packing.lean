import Diskette.Msa.Packing
import Diskette.Bytes

/-!
# Packed tracks are unpacked

A track is the runs it falls into, one after the other, and each run is read back from its tokens,
whichever way it was written. A count has two bytes, so tracks of less than 65536 bytes come out as
they went in.
-/

set_option autoImplicit false

namespace Diskette.Msa

def spread (rs : List (UInt8 × Nat)) : Bytes := rs.flatMap (fun r => List.replicate r.2 r.1)

theorem spread_cons (r : UInt8 × Nat) (rs : List (UInt8 × Nat)) :
    spread (r :: rs) = List.replicate r.2 r.1 ++ spread rs := rfl

theorem spread_addToRuns (b : UInt8) (rs : List (UInt8 × Nat)) :
    spread (addToRuns b rs) = b :: spread rs := by
  cases rs with
  | nil => rfl
  | cons r rest =>
    obtain ⟨v, n⟩ := r
    rw [addToRuns]
    by_cases hv : v = b
    · rw [if_pos hv, spread_cons, spread_cons, hv]
      rfl
    · rw [if_neg hv]
      rfl

theorem spread_runs (track : Bytes) : spread (runs track) = track := by
  induction track with
  | nil => rfl
  | cons b rest ih =>
    change spread (addToRuns b (runs rest)) = b :: rest
    rw [spread_addToRuns, ih]

theorem unpackOnto_replicate {size : Nat} {v : UInt8} (hv : v ≠ marker) (rest : Bytes) (n : Nat) :
    ∀ (filled : Nat) (track : Bytes), filled + n ≤ size →
      unpackOnto size (List.replicate n v ++ rest) filled track =
        unpackOnto size rest (filled + n) (List.replicate n v ++ track) := by
  induction n with
  | zero =>
    intro filled track h
    rfl
  | succ n ih =>
    intro filled track h
    have hs : List.replicate (n + 1) v ++ track = List.replicate n v ++ v :: track := by
      rw [List.replicate_succ', List.append_assoc]
      rfl
    have hf : ¬size ≤ filled := by omega
    have hn : filled + (n + 1) = filled + 1 + n := by omega
    have hrest := ih (filled + 1) (v :: track) (by omega)
    rw [hs, hn, ← hrest, List.replicate_succ, List.cons_append, unpackOnto.eq_def]
    dsimp only
    rw [if_neg hv, if_neg hf]

theorem unpackOnto_packRun {size : Nat} (hsize : size < 65536) (r : UInt8 × Nat) (rest : Bytes)
    (filled : Nat) (track : Bytes) (h : filled + r.2 ≤ size) :
    unpackOnto size (packRun r ++ rest) filled track =
      unpackOnto size rest (filled + r.2) (List.replicate r.2 r.1 ++ track) := by
  unfold packRun
  by_cases hr : 4 ≤ r.2 ∨ r.1 = marker
  · have hlim : r.2 < Bytes.limit 2 := by
      change r.2 < 65536
      omega
    have hcount := Bytes.beNat_toBE 2 r.2 hlim
    obtain ⟨high, low, hb⟩ : ∃ high low, Bytes.toBE 2 r.2 = [high, low] := ⟨_, _, rfl⟩
    have hf : ¬size < filled + r.2 := by omega
    rw [hb] at hcount
    rw [if_pos hr, hb, List.cons_append, unpackOnto.eq_def]
    dsimp only [List.cons_append, List.nil_append]
    rw [if_pos rfl, hcount, if_neg hf]
  · rw [if_neg hr]
    apply unpackOnto_replicate
    · exact fun hv => hr (.inr hv)
    · exact h

theorem unpackOnto_runs {size : Nat} (hsize : size < 65536) (rs : List (UInt8 × Nat)) :
    ∀ (filled : Nat) (track : Bytes), filled + (spread rs).length ≤ size →
      unpackOnto size (rs.flatMap packRun) filled track =
        unpackOnto size [] (filled + (spread rs).length) ((spread rs).reverse ++ track) := by
  induction rs with
  | nil =>
    intro filled track h
    rfl
  | cons r rest ih =>
    intro filled track h
    have hl : (spread (r :: rest)).length = r.2 + (spread rest).length := by
      rw [spread_cons, List.length_append, List.length_replicate]
    have hs : (spread (r :: rest)).reverse ++ track =
        (spread rest).reverse ++ (List.replicate r.2 r.1 ++ track) := by
      rw [spread_cons, List.reverse_append, List.reverse_replicate, List.append_assoc]
    rw [List.flatMap_cons, unpackOnto_packRun hsize r _ filled track (by omega),
      ih _ _ (by omega), hs, hl, Nat.add_assoc]

theorem unpack_pack {track : Bytes} (h : track.length < 65536) :
    unpack track.length (pack track) = .ok track := by
  have hs := spread_runs track
  have hu := unpackOnto_runs h (runs track) 0 [] (by rw [hs]; omega)
  rw [hs, Nat.zero_add, List.append_nil] at hu
  rw [unpack, pack, hu, unpackOnto, if_pos rfl, List.reverse_reverse]

example : unpack 6 (pack [7, 7, 0xE5, 1, 1, 1]) = .ok [7, 7, 0xE5, 1, 1, 1] := by rfl

end Diskette.Msa
