import Diskette.Zip.Inflate

/-!
# How much a deflated stream can hold

Whatever a deflated stream says about itself, it cannot hold more than 129 bytes for each of its
bits: a match is at most 258 bytes long and takes a symbol for its length and one for its distance.
The output together with what the bits that are left could still become is a bound that no step of
the reader raises.
-/

set_option autoImplicit false

namespace Diskette.Zip.Inflate

namespace State

def left (s : State) : Nat := s.count + 8 * s.input.length

def worth (s : State) : Int := s.output.size + 129 * s.left

end State

/-- When `m` comes to an end, the bound on the output is up by the cost of its result at most. -/
def Costs {α : Type} (m : Reading α) (cost : α → Int) : Prop :=
  ∀ s a s', m.run s = .ok (a, s') → s'.worth ≤ s.worth + cost a

namespace Costs

variable {α β : Type} {m : Reading α} {cost : α → Int}

theorem mono (h : Costs m cost) {more : α → Int} (hle : ∀ a, cost a ≤ more a) : Costs m more :=
  fun s a s' hr => Int.le_trans (h s a s' hr) (Int.add_le_add_left (hle a) _)

protected theorem pure {a : α} (h : 0 ≤ cost a) : Costs (pure a) cost := by
  intro s b s' hr
  cases hr
  omega

protected theorem throw (stop : Stop) : Costs (throw stop) cost := by
  intro s a s' hr
  cases hr

protected theorem bind {f : α → Reading β} {total : β → Int} (hm : Costs m cost)
    (hf : ∀ a, Costs (f a) (fun b => total b - cost a)) : Costs (m >>= f) total := by
  intro s b s' hr
  rw [StateT.run_bind] at hr
  cases hfirst : m.run s with
  | error stop =>
    rw [hfirst] at hr
    cases hr
  | ok r =>
    rw [hfirst] at hr
    have hfirst := hm s r.1 r.2 hfirst
    have hthen : s'.worth ≤ r.2.worth + (total b - cost r.1) := hf r.1 r.2 b s' hr
    omega

protected theorem modify {f : State → State} {c : Int} (h : ∀ s, (f s).worth ≤ s.worth + c) :
    Costs (modify f) (fun _ => c) := by
  intro s a s' hr
  cases hr
  exact h s

theorem check {c : Prop} [Decidable c] {stop : Stop} {f : Unit → Reading α} (h : Costs m cost) :
    Costs (if c then (throw stop : Reading Unit) >>= f else m) cost := by
  split
  · intro s a s' hr
    cases hr
  · exact h

end Costs

theorem fill_eq_some {n held count held' count' : Nat} {input input' : Bytes}
    (h : fill n held count input = some (held', count', input')) :
    n ≤ count' ∧ count' + 8 * input'.length = count + 8 * input.length := by
  fun_induction fill n held count input with
  | case1 held count hn =>
    cases h
    exact ⟨hn, rfl⟩
  | case2 held count hn => cases h
  | case3 held count b rest hn =>
    cases h
    exact ⟨hn, rfl⟩
  | case4 held count b rest hn ih =>
    have := ih h
    rw [List.length_cons]
    omega

theorem run_bits_eq_ok {n a : Nat} {s s' : State} (h : (bits n).run s = .ok (a, s')) :
    a < 1 <<< n ∧ s'.left + n = s.left ∧ s'.output = s.output := by
  rw [bits, StateT.run_bind, StateT.run_get, pure_bind] at h
  dsimp only at h
  split at h
  · cases h
  · rename_i held count input hf
    cases h
    obtain ⟨hn, hleft⟩ := fill_eq_some hf
    refine ⟨?_, ?_, rfl⟩
    · apply Nat.mod_lt
      rw [Nat.one_shiftLeft]
      exact Nat.two_pow_pos n
    · simp only [State.left]
      omega

theorem costs_bits (n : Nat) : Costs (bits n) (fun _ => -(129 * n)) := by
  intro s a s' h
  obtain ⟨-, hleft, houtput⟩ := run_bits_eq_ok h
  simp only [State.worth, houtput]
  omega

theorem costs_push (b : UInt8) : Costs (push b) (fun _ => 1) := by
  apply Costs.modify
  intro s
  simp only [State.worth, State.left, Array.size_push]
  omega

theorem Code.costs_readFrom (symbols : Array Nat) (counts : List Nat) (code first index : Nat) :
    Costs (readFrom symbols counts code first index) (fun _ => -129) := by
  induction counts generalizing code first index with
  | nil => exact .throw _
  | cons n counts ih =>
    rw [readFrom]
    refine (costs_bits 1).bind fun bit => ?_
    dsimp only
    split
    · split
      · exact .pure (by omega)
      · exact .throw _
    · exact (ih _ _ _).mono (by omega)

theorem Code.costs_read (c : Code) : Costs c.read (fun _ => -129) :=
  costs_readFrom _ _ _ _ _

theorem run_extended_eq_ok {table : Array (Nat × Nat)} {symbol n : Nat} {s s' : State}
    (h : (extended table symbol).run s = .ok (n, s')) :
    ∃ base extra, (base, extra) ∈ table.toList ∧ n < base + 1 <<< extra ∧ s'.worth ≤ s.worth := by
  rw [extended] at h
  split at h
  · cases h
  · rename_i base extra htable
    rw [StateT.run_bind] at h
    cases hbits : (bits extra).run s with
    | error stop =>
      rw [hbits] at h
      cases h
    | ok r =>
      rw [hbits] at h
      cases h
      obtain ⟨hmore, -, -⟩ := run_bits_eq_ok hbits
      have hworth : r.2.worth ≤ s.worth + -(129 * extra) := costs_bits extra s r.1 r.2 hbits
      refine ⟨base, extra, ?_, by omega, by omega⟩
      exact Array.mem_toList_iff.mpr (Array.mem_of_getElem? htable)

theorem lengthTable_le : ∀ entry ∈ lengthTable.toList, entry.1 + 1 <<< entry.2 ≤ 259 := by
  decide

theorem costs_length (symbol : Nat) : Costs (extended lengthTable symbol) (fun n => 258 - n) := by
  intro s n s' h
  obtain ⟨base, extra, hentry, hn, hworth⟩ := run_extended_eq_ok h
  have hle : base + 1 <<< extra ≤ 259 := lengthTable_le _ hentry
  change s'.worth ≤ s.worth + (258 - n)
  omega

theorem costs_distance (symbol : Nat) : Costs (extended distanceTable symbol) (fun _ => 0) := by
  intro s n s' h
  obtain ⟨-, -, -, -, hworth⟩ := run_extended_eq_ok h
  rwa [Int.add_zero]

theorem size_repeatBack (distance length : Nat) (out : Array UInt8) :
    (repeatBack distance length out).size = out.size + length := by
  induction length generalizing out with
  | zero => rfl
  | succ n ih =>
    rw [repeatBack, ih, Array.size_push]
    omega

theorem costs_repeatBack (distance length : Nat) :
    Costs (modify fun s => { s with output := repeatBack distance length s.output })
      (fun _ => length) := by
  apply Costs.modify
  intro s
  simp only [State.worth, State.left, size_repeatBack]
  omega

theorem costs_symbols (literals distances : Code) (fuel : Nat) :
    Costs (symbols literals distances fuel) (fun _ => 0) := by
  induction fuel with
  | zero => exact .throw _
  | succ fuel ih =>
    rw [symbols]
    refine literals.costs_read.bind fun symbol => ?_
    split
    · exact (costs_push _).bind fun _ => ih.mono (by omega)
    · split
      · exact .pure (by omega)
      · -- each of the two symbols of a match pays for half of the longest one
        refine (costs_length _).bind fun length => ?_
        refine distances.costs_read.bind fun symbol => ?_
        refine (costs_distance symbol).bind fun distance => ?_
        refine (costs_repeatBack distance length).bind fun _ => ih.mono ?_
        omega

theorem costs_storedBlock : Costs storedBlock (fun _ => 0) := by
  have hwhole : Costs (modify fun s => { s with held := 0, count := 0 }) (fun _ => 0) := by
    apply Costs.modify
    intro s
    simp only [State.worth, State.left]
    omega
  rw [storedBlock]
  refine hwhole.bind fun _ => (costs_bits 16).bind fun length => (costs_bits 16).bind fun _ => ?_
  refine .check ?_
  intro s a s' h
  -- what is copied out of the input is as much shorter there, at eight bits to a byte
  let copied : State :=
    { s with input := s.input.drop length, output := s.output ++ (s.input.take length).toArray }
  change (if (s.input.take length).length < length then throw .cutShort else pure () :
    Reading Unit).run copied = .ok (a, s') at h
  split at h
  · cases h
  · rename_i hfull
    have hs' : s' = copied := (congrArg Prod.snd (Except.ok.inj h)).symm
    have hlength : length ≤ s.input.length := by
      rw [List.length_take] at hfull
      omega
    have hsize : copied.output.size = s.output.size + length := by
      simp [copied, hlength]
    have hleft : copied.left + 8 * length = s.left := by
      simp only [copied, State.left, List.length_drop]
      omega
    simp only [State.worth, hs', hsize]
    omega

theorem costs_readLengths (code : Code) (total fuel : Nat) (lengths : List Nat) :
    Costs (readLengths code total fuel lengths) (fun _ => 0) := by
  induction fuel generalizing lengths with
  | zero => exact .throw _
  | succ fuel ih =>
    rw [readLengths.eq_def]
    dsimp only
    split
    · exact .pure (by omega)
    · split
      · exact .throw _
      · refine code.costs_read.bind fun symbol => ?_
        split
        · exact (ih _).mono (by omega)
        · split
          · split
            · exact .throw _
            · exact (costs_bits 2).bind fun _ => (ih _).mono (by omega)
          · split
            · exact (costs_bits 3).bind fun _ => (ih _).mono (by omega)
            · exact (costs_bits 7).bind fun _ => (ih _).mono (by omega)

theorem costs_readTriples (n : Nat) : Costs (readTriples n) (fun _ => 0) := by
  induction n with
  | zero => exact .pure (by omega)
  | succ n ih =>
    rw [readTriples]
    exact (costs_bits 3).bind fun _ => ih.bind fun _ => .pure (by omega)

theorem costs_readCodes : Costs readCodes (fun _ => 0) := by
  rw [readCodes]
  refine (costs_bits 5).bind fun _ => (costs_bits 5).bind fun _ => (costs_bits 4).bind fun _ => ?_
  refine .check ?_
  refine (costs_readTriples _).bind fun _ => .check ?_
  refine (costs_readLengths _ _ _ _).bind fun _ => .check ?_
  exact .pure (by omega)

theorem costs_blocks (fuel : Nat) : Costs (blocks fuel) (fun _ => 0) := by
  induction fuel with
  | zero => exact .throw _
  | succ fuel ih =>
    have hmore (last : Nat) : Costs (if last = 0 then blocks fuel else pure ()) (fun _ => 0) := by
      split
      · exact ih
      · exact .pure (by omega)
    rw [blocks]
    refine (costs_bits 1).bind fun last => (costs_bits 2).bind fun kind => ?_
    dsimp only
    split
    · refine costs_storedBlock.bind fun _ => ?_
      exact (hmore last).mono (by omega)
    · refine (costs_symbols _ _ _).bind fun _ => ?_
      exact (hmore last).mono (by omega)
    · refine costs_readCodes.bind fun codes => ?_
      refine (costs_symbols codes.1 codes.2 fuel).bind fun _ => ?_
      exact (hmore last).mono (by omega)
    · exact .throw _

end Inflate

/-- What a deflated stream holds is 1032 times as long as the stream at most. -/
theorem length_le_of_inflate {stream data : Bytes} (h : inflate stream = .ok data) :
    data.length ≤ 1032 * stream.length := by
  let s : Inflate.State := { held := 0, count := 0, input := stream, output := #[] }
  rw [inflate] at h
  cases hblocks : (Inflate.blocks (8 * stream.length + 1)).run s with
  | error stop =>
    rw [hblocks] at h
    cases h
  | ok r =>
    rw [hblocks] at h
    cases h
    have hworth : r.2.worth ≤ s.worth + 0 := Inflate.costs_blocks _ s r.1 r.2 hblocks
    simp only [Inflate.State.worth, Inflate.State.left, s, List.size_toArray,
      List.length_nil] at hworth
    rw [Array.length_toList]
    omega

end Diskette.Zip
