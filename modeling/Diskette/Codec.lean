import Diskette.Fault

/-!
# Codecs

Protected formats describe tracks in more detail than sectors can hold. A host may bring a codec
that turns them into sectors; without one they are refused.
-/

set_option autoImplicit false

namespace Diskette

structure Decoded where
  data : Bytes
  layout : Layout := ⟨0, 0⟩
  deriving DecidableEq, Repr

structure Codec where
  name : String
  isAvailable : Bool
  decode : Format → Bytes → Except Fault Decoded

namespace Codec

def unavailable : Codec where
  name := "unavailable"
  isAvailable := false
  decode f _ := .error (.codecMissing f)

def protectedOf (formats : List Format) : List Format := formats.filter Format.isProtected

/-- A host's decoder for some protected formats. Only whole sectors are accepted from it. -/
def external (name : String) (formats : List Format)
    (decoder : Format → Bytes → Except Fault Decoded) : Codec where
  name := name
  isAvailable := !(protectedOf formats).isEmpty
  decode f file :=
    if !(protectedOf formats).contains f then .error (.codecMissing f)
    else do
      let decoded ← decoder f file
      let length := decoded.data.length
      if length = 0 ∨ length % sectorSize ≠ 0 then .error (.decode (.codecRagged name length))
      else .ok decoded

end Codec

end Diskette
