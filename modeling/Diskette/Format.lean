/-!
# Image formats

The file formats a disk image may come in, the kind of content each decodes to, and what each can
do. `Format.all` fixes the order in which formats are listed everywhere. Snapshots store formats
and kinds as tags; a tag that is read back gives the format it was written for.
-/

set_option autoImplicit false

namespace Diskette

inductive Format where
  | st
  | msa
  | dim
  | ipf
  | stx
  | zip
  deriving DecidableEq, Repr

/-- Which decoder produced the content of an image; `none` stands for no content at all. -/
inductive Kind where
  | none
  | plainSector
  | protectedIpf
  | protectedStx
  deriving DecidableEq, Repr

namespace Kind

def label : Kind → String
  | .none => "None"
  | .plainSector => "Plain Sector"
  | .protectedIpf => "Protected (IPF)"
  | .protectedStx => "Protected (STX)"

def tag : Kind → UInt8
  | .none => 0
  | .plainSector => 1
  | .protectedIpf => 2
  | .protectedStx => 3

def ofTag? (t : UInt8) : Option Kind :=
  if t = 0 then some .none
  else if t = 1 then some .plainSector
  else if t = 2 then some .protectedIpf
  else if t = 3 then some .protectedStx
  else Option.none

theorem ofTag?_tag (k : Kind) : ofTag? k.tag = some k := by
  cases k <;> rfl

end Kind

abbrev Abilities := BitVec 5

namespace Abilities

def writeBack : Abilities := 0b00001#5

def geometryHeader : Abilities := 0b00010#5

def compression : Abilities := 0b00100#5

def protection : Abilities := 0b01000#5

def container : Abilities := 0b10000#5

def ofNat (n : Nat) : Abilities := BitVec.ofNat 5 n

def contains (a b : Abilities) : Bool := a &&& b == b

end Abilities

namespace Format

def all : List Format := [st, msa, dim, ipf, stx, zip]

def label : Format → String
  | st => "ST Sector"
  | msa => "MSA Sector"
  | dim => "DIM Sector"
  | ipf => "IPF Protected"
  | stx => "STX Protected"
  | zip => "Zip Archive"

def kind : Format → Kind
  | st | msa | dim => .plainSector
  | ipf => .protectedIpf
  | stx => .protectedStx
  | zip => .none

def isPlain (f : Format) : Bool := f.kind == .plainSector

def isProtected (f : Format) : Bool := f.kind == .protectedIpf || f.kind == .protectedStx

def extensions : Format → List String
  | st => ["st"]
  | msa => ["msa"]
  | dim => ["dim"]
  | ipf => ["ipf", "ctr", "raw"]
  | stx => ["stx"]
  | zip => ["zip"]

def abilities : Format → Abilities
  | st => .writeBack
  | msa => .writeBack ||| .geometryHeader ||| .compression
  | dim => .writeBack ||| .geometryHeader
  | ipf | stx => .protection
  | zip => .container ||| .compression

def tag : Format → UInt8
  | st => 1
  | msa => 2
  | dim => 3
  | ipf => 4
  | stx => 5
  | zip => 6

def ofTag? (t : UInt8) : Option Format :=
  all.find? (fun f => f.tag == t)

def allExtensions : List String := all.flatMap extensions

def withAbilities (a : Abilities) : List Format :=
  all.filter (fun f => f.abilities.contains a)

theorem ofTag?_tag (f : Format) : ofTag? f.tag = some f := by
  cases f <;> rfl

end Format

end Diskette
