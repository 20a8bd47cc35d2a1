import Diskette.SectorImage
import Diskette.Msa.Packing

/-!
# MSA files

A short header, then every track of every side, in the order of the disk. Each track is stored
behind its stored length, packed if that is shorter than the track itself.
-/

set_option autoImplicit false

namespace Diskette.Msa

structure Header where
  signature : UInt16
  sectorsPerTrack : UInt16
  lastSide : UInt16
  startTrack : UInt16
  endTrack : UInt16
  deriving DecidableEq, Repr

def magicNumber : UInt16 := 0x0E0F

def headerSize : Nat := 10

def maxTrack : Nat := 85

def maxSectorsPerTrack : Nat := 64

namespace Header

def ofBytes (b : Bytes) : Header :=
  let word (offset : Nat) : UInt16 := UInt16.ofNat (Bytes.beNat (Bytes.slice b offset 2))
  ⟨word 0, word 2, word 4, word 6, word 8⟩

def bytes (h : Header) : Bytes :=
  [h.signature, h.sectorsPerTrack, h.lastSide, h.startTrack, h.endTrack].flatMap
    (fun w => Bytes.toBE 2 w.toNat)

def isValid (h : Header) : Bool :=
  h.signature == magicNumber &&
    (1 ≤ h.sectorsPerTrack && h.sectorsPerTrack.toNat ≤ maxSectorsPerTrack) &&
    h.lastSide ≤ 1 && h.startTrack ≤ h.endTrack && h.endTrack.toNat ≤ maxTrack

def layout (h : Header) : Layout := ⟨h.lastSide + 1, h.sectorsPerTrack⟩

def trackSize (h : Header) : Nat := h.sectorsPerTrack.toNat * sectorSize

def stored (h : Header) : List (Nat × Nat) :=
  (List.range' h.startTrack.toNat (h.endTrack.toNat + 1 - h.startTrack.toNat)).flatMap
    (fun track => (List.range h.layout.sides.toNat).map (fun side => (track, side)))

end Header

def loadTracks (size : Nat) : List (Nat × Nat) → Bytes → Except Fault (List Bytes)
  | [], _ => .ok []
  | (track, side) :: more, file =>
    match Bytes.split? 2 file with
    | none => .error (.decode (.msaCutShort track side))
    | some (field, rest) =>
      let stored := Bytes.beNat field
      if size < stored then .error (.decode (.msaOverlong track side stored))
      else
        match Bytes.split? stored rest with
        | none => .error (.decode (.msaCutShort track side))
        | some (content, rest) => do
          let first ← if stored = size then .ok content else unpack size content
          let others ← loadTracks size more rest
          .ok (first :: others)

/-- Tracks before the first stored one are blank. -/
def load (file : Bytes) : Except Fault SectorImage :=
  if maxImageSize < file.length then .error (.decode (.tooLarge "MSA"))
  else
    match Bytes.split? headerSize file with
    | none => .error (.decode .headerCutShort)
    | some (front, rest) =>
      let h := Header.ofBytes front
      if !h.isValid then .error (.decode .msaHeader)
      else do
        let tracks ← loadTracks h.trackSize h.stored rest
        let blank := h.startTrack.toNat * h.layout.sides.toNat * h.trackSize
        .ok { data := List.replicate blank 0 ++ tracks.flatten, layout := h.layout }

/-- One track behind its stored length, packed if that makes it shorter. -/
def saveTrack (track : Bytes) : Bytes :=
  let packed := pack track
  let stored := if packed.length < track.length then packed else track
  Bytes.toBE 2 stored.length ++ stored

def save (i : SectorImage) : Except Fault Bytes :=
  let sides := i.layout.sides.toNat
  let spt := i.layout.sectorsPerTrack.toNat
  let trackSize := spt * sectorSize
  let length := i.data.length
  let tracks := length / (trackSize * sides)
  if sides = 0 ∨ 2 < sides ∨ spt = 0 ∨ maxSectorsPerTrack < spt then
    .error (.encode (.layout "MSA" i.layout))
  else if length = 0 ∨ length % (trackSize * sides) ≠ 0 then
    .error (.encode (.partialTracks length))
  else if maxTrack + 1 < tracks then .error (.encode (.tooManyTracks "MSA" tracks))
  else
    let header : Header :=
      ⟨magicNumber, i.layout.sectorsPerTrack, i.layout.sides - 1, 0, UInt16.ofNat (tracks - 1)⟩
    .ok (header.bytes ++ (Bytes.pieces trackSize (tracks * sides) i.data).flatMap saveTrack)

def isMsa (file : Bytes) : Bool :=
  match Bytes.split? headerSize file with
  | some (front, _) => (Header.ofBytes front).isValid
  | none => false

end Diskette.Msa
