import Diskette.Fault

/-!
# Packed tracks

A packed track is a sequence of tokens: a byte that stands for itself, or the marker followed by a
value and a count, which stands for a run of the value. The marker never stands for itself.
`pack` writes long runs, and all runs of the marker, as runs; `unpack` reads any sequence of tokens
that fills the track exactly.
-/

set_option autoImplicit false

namespace Diskette.Msa

def marker : UInt8 := 0xE5

def addToRuns (b : UInt8) : List (UInt8 × Nat) → List (UInt8 × Nat)
  | [] => [(b, 1)]
  | (v, n) :: rest => if v = b then (v, n + 1) :: rest else (b, 1) :: (v, n) :: rest

def runs (track : Bytes) : List (UInt8 × Nat) := track.foldr addToRuns []

def packRun (run : UInt8 × Nat) : Bytes :=
  if 4 ≤ run.2 ∨ run.1 = marker then marker :: run.1 :: Bytes.toBE 2 run.2
  else List.replicate run.2 run.1

def pack (track : Bytes) : Bytes := (runs track).flatMap packRun

/-- Read tokens into a track of `size` bytes of which `filled` are there already, in reverse. -/
def unpackOnto (size : Nat) : (packed : Bytes) → (filled : Nat) → (track : Bytes) →
    Except Fault Bytes
  | [], filled, track =>
    if filled = size then .ok track.reverse
    else .error (.decode (.msaUnfilled filled size))
  | b :: rest, filled, track =>
    if b = marker then
      match rest with
      | value :: high :: low :: rest =>
        let count := Bytes.beNat [high, low]
        if size < filled + count then .error (.decode .msaRunOverflow)
        else unpackOnto size rest (filled + count) (List.replicate count value ++ track)
      | _ => .error (.decode .msaRunCutShort)
    else if size ≤ filled then .error (.decode .msaOverflow)
    else unpackOnto size rest (filled + 1) (b :: track)

def unpack (size : Nat) (packed : Bytes) : Except Fault Bytes := unpackOnto size packed 0 []

end Diskette.Msa
