import Diskette.Bytes

/-!
# Geometry

A drive addresses an image by track, side and sector. A `Layout` says how many sides and sectors
per track there are; together with the length of the image it gives a `Geometry`. The sizes in
common use are tabled, so that a layout can be told from a length alone.
-/

set_option autoImplicit false

namespace Diskette

structure Layout where
  sides : UInt16
  sectorsPerTrack : UInt16
  deriving DecidableEq, Repr

structure Geometry where
  tracks : UInt16 := 0
  sides : UInt16 := 0
  sectorsPerTrack : UInt16 := 0
  deriving DecidableEq, Repr

/-- The place of a sector on a disk. Sectors count from one, tracks and sides from zero. -/
structure Address where
  track : UInt16
  side : UInt16
  sector : UInt16
  deriving DecidableEq, Repr

namespace Layout

def isUsable (l : Layout) : Bool := l.sides != 0 && l.sectorsPerTrack != 0

def usable? (l : Layout) : Option Layout := if l.isUsable then some l else none

end Layout

namespace Geometry

def layout (g : Geometry) : Layout := ⟨g.sides, g.sectorsPerTrack⟩

def trackSize (g : Geometry) : Nat := g.sectorsPerTrack.toNat * sectorSize

def totalSectors (g : Geometry) : Nat := g.tracks.toNat * g.sides.toNat * g.sectorsPerTrack.toNat

def totalSize (g : Geometry) : Nat := g.totalSectors * sectorSize

/-- As many whole tracks as `length` bytes hold, up to the largest track count; none if the layout
has a zero in it. -/
def ofLength (length : Nat) (l : Layout) : Geometry where
  tracks := UInt16.ofNat (min (length / sectorSize / l.sectorsPerTrack.toNat / l.sides.toNat) 65535)
  sides := l.sides
  sectorsPerTrack := l.sectorsPerTrack

def contains (g : Geometry) (a : Address) : Bool :=
  a.side < g.sides && a.track < g.tracks && (1 ≤ a.sector && a.sector ≤ g.sectorsPerTrack)

/-- Where a sector starts in the data, which runs through all sides of a track before the next. -/
def offset (g : Geometry) (a : Address) : Nat :=
  g.trackSize * a.side.toNat + g.trackSize * g.sides.toNat * a.track.toNat +
    sectorSize * (a.sector.toNat - 1)

def aligned (n : UInt16) : String :=
  if n < 10 then " " ++ toString n.toNat else toString n.toNat

def text (g : Geometry) : String :=
  "[t:" ++ aligned g.tracks ++ " h:" ++ toString g.sides.toNat ++
    " s:" ++ aligned g.sectorsPerTrack ++ "]"

@[simp]
theorem layout_ofLength (n : Nat) (l : Layout) : (ofLength n l).layout = l := rfl

end Geometry

namespace Layout

def tabledSectors : List Nat := [9, 10, 11, 12]

def tabledTracks : List Nat := [80, 81, 82, 83, 84]

def doubleSidedFrom : Nat := 500 * 1024

def guessedSides (length : Nat) : Nat := if length < doubleSidedFrom then 1 else 2

def tabled (sides : Nat) : List Geometry :=
  tabledSectors.flatMap (fun s =>
    tabledTracks.map (fun t => ⟨UInt16.ofNat t, UInt16.ofNat sides, UInt16.ofNat s⟩))

def ofLength? (length : Nat) : Option Geometry :=
  (tabled (guessedSides length)).find? (fun g => g.totalSectors == length / sectorSize)

/-- The tabled layout for the length of an image, or else the one it declares. -/
def infer (length : Nat) (declared : Layout) : Layout :=
  match ofLength? length with
  | some g => g.layout
  | none => declared

end Layout

end Diskette
