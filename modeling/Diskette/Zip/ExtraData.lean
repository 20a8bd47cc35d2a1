import Diskette.Bytes
import Diskette.Zip.Crc32

/-!
# Extra data of archive entries

An entry of the directory may carry fields of further data, each with its kind and length in front.
A field can give the name or the comment once more in UTF-8, or the method under a cipher; times
only have to be well formed. Fields of other kinds are passed over, and a field that is cut short
ends the extra data without harm.
-/

set_option autoImplicit false

namespace Diskette.Zip

structure Labels where
  storedName : Bytes
  name : String
  comment : String
  method : Nat
  hasCipher : Bool := false
  deriving DecidableEq, Repr

namespace ExtraData

inductive Stop where
  | cutShort
  | broken
  deriving DecidableEq, Repr

abbrev Reader := Bytes.Reader Stop

def chunk (n : Nat) : Reader Bytes := Bytes.next .cutShort n

def number (width : Nat) : Reader Nat := do
  let b ← chunk width
  pure (Bytes.leNat b)

def fileTimesKind : Nat := 0x000A

def timesKind : Nat := 0x5455

def commentKind : Nat := 0x6375

def nameKind : Nat := 0x7075

def cipherKind : Nat := 0x9901

def fileTimes (length : Nat) : Reader Unit := do
  if length ≠ 32 then throw .broken
  let _ ← chunk 4
  if (← number 2) ≠ 1 then throw .broken
  if (← number 2) ≠ 24 then throw .broken
  let _ ← chunk 24

/-- Three flags and a time for each that is set. There may also be a single time under any flags. -/
def times (length : Nat) : Reader Unit := do
  let flags ← number 1
  let count := [0, 1, 2].countP flags.testBit
  if 8 ≤ flags ∨ length ≠ 5 ∧ length ≠ 1 + 4 * count then throw .broken
  let _ ← chunk (length - 1)

def betterText (length : Nat) (old : Bytes) : Reader (Bytes × String) := do
  let _version ← chunk 1
  let checksum ← number 4
  if length < 5 then throw .broken
  let text ← chunk (length - 5)
  if crc32 old ≠ UInt32.ofNat checksum then throw .broken
  match String.fromUTF8? ⟨text.toArray⟩ with
  | some s => pure (text, s)
  | none => throw .broken

def cipher (length : Nat) : Reader Nat := do
  if length ≠ 7 then throw .broken
  let version ← number 2
  let vendor ← number 2
  let strength ← number 1
  let method ← number 2
  if vendor ≠ 0x4541 ∨ version ∉ [1, 2] ∨ strength ∉ [1, 2, 3] then throw .broken
  pure method

def readField (l : Labels) : Reader Labels := do
  let kind ← number 2
  let length ← number 2
  if kind = fileTimesKind then
    fileTimes length
    pure l
  else if kind = timesKind then
    times length
    pure l
  else if kind = commentKind then
    let (_, comment) ← betterText length l.comment.toUTF8.toList
    pure { l with comment }
  else if kind = nameKind then
    let (storedName, name) ← betterText length l.storedName
    pure { l with storedName, name }
  else if kind = cipherKind then
    let method ← cipher length
    pure { l with method, hasCipher := true }
  else
    let _ ← chunk length
    pure l

def readFields? : (fuel : Nat) → Labels → Bytes → Option Labels
  | 0, l, _ => some l
  | fuel + 1, l, b =>
    match (readField l).run b with
    | .ok (l, rest) => readFields? fuel l rest
    | .error .cutShort => some l
    | .error .broken => none

/-- Apply the extra data of an entry; `none` if one of its fields is broken. A field takes some
bytes, so there are no more fields than bytes. -/
def relabel? (l : Labels) (extra : Bytes) : Option Labels := readFields? extra.length l extra

end ExtraData

end Diskette.Zip
