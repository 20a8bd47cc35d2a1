import Diskette.SectorImage

/-!
# DIM files

A header of 32 bytes, then every sector of the disk. The header is kept when a file is read and
written again with only its geometry changed, so that what is not understood here survives.
-/

set_option autoImplicit false

namespace Diskette.Dim

def headerSize : Nat := 32

def magic : Bytes := [0x42, 0x42]

/-! The header fields that are understood, by offset. -/

def usedSectorsOnlyAt : Nat := 3

def lastSideAt : Nat := 6

def sectorsPerTrackAt : Nat := 8

def startTrackAt : Nat := 10

def endTrackAt : Nat := 12

def fieldAt (header : Bytes) (offset : Nat) : UInt8 := (header.drop offset).headD 0

def blankHeader : Bytes := magic ++ List.replicate (headerSize - magic.length) 0

/-- Only files that hold every sector, from the first track on, are read. -/
def isSupported (header : Bytes) : Bool :=
  header.take 2 == magic && fieldAt header usedSectorsOnlyAt == 0 &&
    fieldAt header startTrackAt == 0

def headerLayout (header : Bytes) : Layout :=
  ⟨(fieldAt header lastSideAt).toUInt16 + 1, (fieldAt header sectorsPerTrackAt).toUInt16⟩

def load (file : Bytes) : Except Fault SectorImage :=
  if maxImageSize < file.length then .error (.decode (.tooLarge "DIM"))
  else
    match Bytes.split? headerSize file with
    | none => .error (.decode .dimCutShort)
    | some (header, data) =>
      if !isSupported header then .error (.decode .dimUnsupported)
      else if data.length = 0 ∨ data.length % sectorSize ≠ 0 then
        .error (.decode (.dimRagged data.length))
      else .ok { data := data, layout := headerLayout header, header := some header }

def setGeometry (header : Bytes) (l : Layout) (tracks : Nat) : Bytes :=
  let set (h : Bytes) (offset n : Nat) : Bytes := Bytes.overwrite h offset [UInt8.ofNat n]
  set (set (set (set header lastSideAt (l.sides.toNat - 1)) sectorsPerTrackAt
    l.sectorsPerTrack.toNat) startTrackAt 0) endTrackAt (tracks - 1)

def save (i : SectorImage) : Except Fault Bytes :=
  let sides := i.layout.sides.toNat
  let spt := i.layout.sectorsPerTrack.toNat
  let trackSize := spt * sectorSize * sides
  let length := i.data.length
  let tracks := length / trackSize
  if sides = 0 ∨ 2 < sides ∨ spt = 0 ∨ 255 < spt then
    .error (.encode (.layout "DIM" i.layout))
  else if length = 0 ∨ length % trackSize ≠ 0 then .error (.encode (.partialTracks length))
  else if 256 < tracks then .error (.encode (.tooManyTracks "DIM" tracks))
  else
    match Bytes.split? headerSize (i.header.getD blankHeader) with
    | none => .error (.decode .headerCutShort)
    | some (header, _) => .ok (setGeometry header i.layout tracks ++ i.data)

def isDim (file : Bytes) : Bool :=
  match Bytes.split? headerSize file with
  | some (header, _) => header.take 2 == magic
  | none => false

end Diskette.Dim
