import Diskette.Bytes
import Diskette.FileName

/-!
# Names of archive entries

An entry's name is stored in UTF-8 if a flag says so, and else in code page 437. Bytes that are no
UTF-8 read as replacement characters. A name that would lead out of the folder an archive is
unpacked into is not listed.
-/

set_option autoImplicit false

namespace Diskette.Zip.EntryName

def upperHalf : Array Nat :=
  #[0x00C7, 0x00FC, 0x00E9, 0x00E2, 0x00E4, 0x00E0, 0x00E5, 0x00E7,
    0x00EA, 0x00EB, 0x00E8, 0x00EF, 0x00EE, 0x00EC, 0x00C4, 0x00C5,
    0x00C9, 0x00E6, 0x00C6, 0x00F4, 0x00F6, 0x00F2, 0x00FB, 0x00F9,
    0x00FF, 0x00D6, 0x00DC, 0x00A2, 0x00A3, 0x00A5, 0x20A7, 0x0192,
    0x00E1, 0x00ED, 0x00F3, 0x00FA, 0x00F1, 0x00D1, 0x00AA, 0x00BA,
    0x00BF, 0x2310, 0x00AC, 0x00BD, 0x00BC, 0x00A1, 0x00AB, 0x00BB,
    0x2591, 0x2592, 0x2593, 0x2502, 0x2524, 0x2561, 0x2562, 0x2556,
    0x2555, 0x2563, 0x2551, 0x2557, 0x255D, 0x255C, 0x255B, 0x2510,
    0x2514, 0x2534, 0x252C, 0x251C, 0x2500, 0x253C, 0x255E, 0x255F,
    0x255A, 0x2554, 0x2569, 0x2566, 0x2560, 0x2550, 0x256C, 0x2567,
    0x2568, 0x2564, 0x2565, 0x2559, 0x2558, 0x2552, 0x2553, 0x256B,
    0x256A, 0x2518, 0x250C, 0x2588, 0x2584, 0x258C, 0x2590, 0x2580,
    0x03B1, 0x00DF, 0x0393, 0x03C0, 0x03A3, 0x03C3, 0x00B5, 0x03C4,
    0x03A6, 0x0398, 0x03A9, 0x03B4, 0x221E, 0x03C6, 0x03B5, 0x2229,
    0x2261, 0x00B1, 0x2265, 0x2264, 0x2320, 0x2321, 0x00F7, 0x2248,
    0x00B0, 0x2219, 0x00B7, 0x221A, 0x207F, 0x00B2, 0x25A0, 0x00A0]

def ofCodePage (b : Bytes) : String :=
  String.ofList (b.map (fun x =>
    Char.ofNat (if x < 128 then x.toNat else upperHalf.getD (x.toNat - 128) 0xFFFD)))

def replacement : Char := Char.ofNat 0xFFFD

/-- A character of which some bytes are still missing; the next one must lie within the bounds. -/
structure Unfinished where
  value : Nat
  missing : Nat
  low : UInt8 := 0x80
  high : UInt8 := 0xBF

/-- Read a byte that no character waits for. The bounds on what follows leave out overlong forms,
surrogates and numbers beyond the last code point. -/
def startChar (b : UInt8) : List Char × Option Unfinished :=
  let lead (first missing : Nat) (low high : UInt8) : List Char × Option Unfinished :=
    ([], some ⟨b.toNat - first, missing, low, high⟩)
  if b < 0x80 then ([Char.ofNat b.toNat], none)
  else if b < 0xC2 then ([replacement], none)
  else if b < 0xE0 then lead 0xC0 1 0x80 0xBF
  else if b = 0xE0 then lead 0xE0 2 0xA0 0xBF
  else if b = 0xED then lead 0xE0 2 0x80 0x9F
  else if b < 0xF0 then lead 0xE0 2 0x80 0xBF
  else if b = 0xF0 then lead 0xF0 3 0x90 0xBF
  else if b < 0xF4 then lead 0xF0 3 0x80 0xBF
  else if b = 0xF4 then lead 0xF0 3 0x80 0x8F
  else ([replacement], none)

def readByte (p : Option Unfinished) (b : UInt8) : List Char × Option Unfinished :=
  match p with
  | none => startChar b
  | some u =>
    if u.low ≤ b ∧ b ≤ u.high then
      let value := u.value * 64 + (b.toNat - 0x80)
      if u.missing = 1 then ([Char.ofNat value], none)
      else ([], some { value := value, missing := u.missing - 1 })
    else
      let (chars, next) := startChar b
      (replacement :: chars, next)

def charsOfUtf8 : Option Unfinished → Bytes → List Char
  | none, [] => []
  | some _, [] => [replacement]
  | p, b :: rest =>
    let (chars, next) := readByte p b
    chars ++ charsOfUtf8 next rest

def ofUtf8 (b : Bytes) : String := String.ofList (charsOfUtf8 none b)

def isFolder (name : String) : Bool :=
  match name.toList.getLast? with
  | some c => FileName.isSeparator c
  | none => false

def descends : (depth : Nat) → List (List Char) → Bool
  | _, [] => true
  | depth, part :: rest =>
    if part = ['.', '.'] then
      match depth with
      | 0 => false
      | d + 1 => descends d rest
    else if part = [] ∨ part = ['.'] then descends depth rest
    else descends (depth + 1) rest

def staysInside (name : String) : Bool :=
  let chars := name.toList
  chars.head? != some '/' && !chars.contains (Char.ofNat 0) &&
    descends 0 (FileName.splitAtSlashes chars)

end Diskette.Zip.EntryName
