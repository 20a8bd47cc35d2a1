import Diskette.Fault

/-!
# Boot sectors

The first sector of a disk carries the parameter block that declares its geometry, and may be a
program. Disks are often mislabelled, so nothing here is taken on trust: `isTrustworthy` says
whether a disk may be written back at all.
-/

set_option autoImplicit false

namespace Diskette

structure ParameterBlock where
  bytesPerSector : UInt16
  sectorsPerCluster : UInt8
  reservedSectors : UInt16
  fatCount : UInt8
  rootEntries : UInt16
  totalSectors : UInt16
  mediaDescriptor : UInt8
  sectorsPerFat : UInt16
  sectorsPerTrack : UInt16
  sides : UInt16
  hiddenSectors : UInt16
  deriving DecidableEq, Repr

namespace ParameterBlock

def byteAt (sector : Bytes) (offset : Nat) : UInt8 := (sector.drop offset).headD 0

def wordAt (sector : Bytes) (offset : Nat) : UInt16 :=
  UInt16.ofNat (Bytes.leNat (Bytes.slice sector offset 2))

def ofSector (sector : Bytes) : ParameterBlock where
  bytesPerSector := wordAt sector 11
  sectorsPerCluster := byteAt sector 13
  reservedSectors := wordAt sector 14
  fatCount := byteAt sector 16
  rootEntries := wordAt sector 17
  totalSectors := wordAt sector 19
  mediaDescriptor := byteAt sector 21
  sectorsPerFat := wordAt sector 22
  sectorsPerTrack := wordAt sector 24
  sides := wordAt sector 26
  hiddenSectors := wordAt sector 28

def isPlausible (p : ParameterBlock) : Bool :=
  p.bytesPerSector.toNat == sectorSize &&
    (1 ≤ p.sectorsPerTrack && p.sectorsPerTrack ≤ 12) && (1 ≤ p.sides && p.sides ≤ 2)

def layout (p : ParameterBlock) : Layout := ⟨p.sides, p.sectorsPerTrack⟩

def declaredSize (p : ParameterBlock) : Nat := p.totalSectors.toNat * sectorSize

end ParameterBlock

structure BootSector where
  bytes : Bytes
  parameters : ParameterBlock
  deriving DecidableEq, Repr

namespace BootSector

def ofImage (image : Bytes) : Except Fault BootSector :=
  match Bytes.split? sectorSize image with
  | some (sector, _) => .ok ⟨sector, .ofSector sector⟩
  | none => .error (.decode .noBootSector)

/-- The sum of the big-endian words, modulo 2 ^ 16. A last odd byte does not count. -/
def wordSum : Bytes → UInt16
  | high :: low :: rest => high.toUInt16 * 256 + low.toUInt16 + wordSum rest
  | _ => 0

def checksum (s : BootSector) : UInt16 := wordSum s.bytes

def programChecksum : UInt16 := 0x1234

def isProgram (s : BootSector) : Bool := s.checksum == programChecksum

/-- Zero sectors per cluster mark a disk that a faulty tool made; only a program may do so. -/
def isTrustworthy (s : BootSector) : Bool :=
  s.parameters.sectorsPerCluster != 0 || s.isProgram

def hexText (width n : Nat) : String :=
  let digits := (Nat.toDigits 16 n).map Char.toUpper
  String.ofList (List.replicate (width - digits.length) '0' ++ digits)

def report (s : BootSector) : String :=
  let p := s.parameters
  let line (name value : String) : String := "\t" ++ name ++ ": " ++ value ++ "\n"
  "BIOS Parameter Block:\n" ++
    line "Bytes per sector" (toString p.bytesPerSector.toNat) ++
    line "Sectors per cluster" (toString p.sectorsPerCluster.toNat) ++
    line "Reserved sectors" (toString p.reservedSectors.toNat) ++
    line "Number of FATs" (toString p.fatCount.toNat) ++
    line "Root entries" (toString p.rootEntries.toNat) ++
    line "Total sectors" (toString p.totalSectors.toNat) ++
    line "Media descriptor" ("0x" ++ hexText 2 p.mediaDescriptor.toNat) ++
    line "Sectors per FAT" (toString p.sectorsPerFat.toNat) ++
    line "Sectors per track" (toString p.sectorsPerTrack.toNat) ++
    line "Number of sides" (toString p.sides.toNat) ++
    line "Hidden sectors" (toString p.hiddenSectors.toNat) ++
    "\nBoot sector checksum: " ++ hexText 4 s.checksum.toNat ++ "\n" ++
    (if s.isProgram then "Boot sector is executable.\n" else "")

def imageIsTrustworthy (image : Bytes) : Bool :=
  match ofImage image with
  | .ok s => s.isTrustworthy
  | .error _ => false

end BootSector

namespace Geometry

/-- The layout that an image declares: the one in its boot sector, or the one its file recorded if
the boot sector has a zero in either place. -/
def declaredLayout (image : Bytes) (recorded : Option Layout) : Layout :=
  let own :=
    match BootSector.ofImage image with
    | .ok s => s.parameters.layout
    | .error _ => ⟨0, 0⟩
  match recorded with
  | some l => if own.isUsable then own else l
  | none => own

def declaredTotal (image : Bytes) : Nat :=
  match BootSector.ofImage image with
  | .ok s => s.parameters.totalSectors.toNat
  | .error _ => 0

/-- The geometry to present for an image. The declared layout stands as long as the boot sector
counts the sectors right; otherwise a tabled layout of the same length goes before it. -/
def ofImage (image : Bytes) (recorded : Option Layout) : Geometry :=
  let declared := declaredLayout image recorded
  let length := image.length
  if declaredTotal image = length / sectorSize then ofLength length declared
  else ofLength length (Layout.infer length declared)

end Geometry

end Diskette
