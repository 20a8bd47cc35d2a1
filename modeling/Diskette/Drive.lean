import Diskette.DiskImage
import Diskette.SwapTimer

/-!
# Drives

A drive has a slot of the catalog selected and may hold a working copy of the disk in it. Sectors
are read from and written to that copy, at addresses of the geometry that the disk presents.
-/

set_option autoImplicit false

namespace Diskette

inductive DriveId where
  | a
  | b
  deriving DecidableEq, Repr

namespace DriveId

def all : List DriveId := [a, b]

def index : DriveId → Nat
  | a => 0
  | b => 1

def ofIndex? : Nat → Option DriveId
  | 0 => some a
  | 1 => some b
  | _ => none

def other : DriveId → DriveId
  | a => b
  | b => a

def letter : DriveId → Char
  | a => 'A'
  | b => 'B'

def label (d : DriveId) : String := d.letter.toString ++ ":"

end DriveId

/-- The working copy of an image that a drive owns while it is inserted. -/
structure WorkingCopy where
  name : String
  disk : Disk
  isSaved : Bool := false
  isModified : Bool := false
  deriving DecidableEq, Repr

/-- A disk in a drive. Its geometry and the permission to keep changes were settled when it went
in. -/
structure InsertedDisk extends WorkingCopy where
  geometry : Geometry
  okToPersist : Bool
  deriving DecidableEq, Repr

namespace InsertedDisk

def ofDisk (name : String) (disk : Disk) (isSaved : Bool) : InsertedDisk where
  name := name
  disk := disk
  isSaved := isSaved
  geometry := disk.geometry
  okToPersist := disk.canPersist

def toImage (i : InsertedDisk) : DiskImage where
  name := i.name
  disk := some i.disk
  isSaved := i.isSaved

/-- Where some sectors start in the data and how many bytes they hold. A negative count stands for
a track's worth of sectors. -/
def range (i : InsertedDisk) (a : Address) (count : Int) : Except Fault (Nat × Nat) :=
  if !i.geometry.contains a then .error (.outOfRange a i.geometry)
  else
    let offset := i.geometry.offset a
    let sectors := if count < 0 then i.geometry.sectorsPerTrack.toNat else count.toNat
    let length := sectors * sectorSize
    if i.disk.data.length < offset + length then .error (.outOfRange a i.geometry)
    else .ok (offset, length)

def read (i : InsertedDisk) (a : Address) (count : Int) : Except Fault Bytes := do
  let (offset, length) ← i.range a count
  .ok (Bytes.slice i.disk.data offset length)

/-- Write data from the start of a sector on. The last sector may be written in part. An address
that is not on the disk is reported even if the disk is protected. -/
def write (i : InsertedDisk) (a : Address) (data : Bytes) (isProtected : Bool) :
    Except Fault InsertedDisk := do
  let sectors := (data.length + sectorSize - 1) / sectorSize
  let (offset, _) ← i.range a sectors
  if isProtected then .error .writeProtected
  else
    .ok { i with
      disk := { i.disk with data := Bytes.overwrite i.disk.data offset data }
      isModified := true }

end InsertedDisk

structure Drive where
  slot : Option Nat := none
  copy : Option WorkingCopy := none
  geometry : Geometry := {}
  okToPersist : Bool := false
  isWriteProtected : Bool := false
  timer : SwapTimer := {}
  deriving DecidableEq, Repr

namespace Drive

def empty (delay : UInt32) : Drive := { timer := { delay := delay } }

def inserted (d : Drive) : Option InsertedDisk :=
  d.copy.map (fun copy => { copy with geometry := d.geometry, okToPersist := d.okToPersist })

def isInserted (d : Drive) : Bool := d.inserted.isSome

def kind (d : Drive) : Kind := (d.inserted.map (·.disk.kind)).getD .none

def isModified (d : Drive) : Bool := d.inserted.any (·.isModified)

def presents (d : Drive) (slot : Nat) : Bool := d.isInserted && d.slot == some slot

@[simp]
theorem inserted_with (d : Drive) (slot : Option Nat) (on : Bool) (timer : SwapTimer) :
    ({ d with slot := slot, isWriteProtected := on, timer := timer } : Drive).inserted =
      d.inserted := rfl

/-- Put a disk into the drive or leave it empty. An empty drive has no geometry, and nothing in it
may be kept. -/
def put (d : Drive) : Option InsertedDisk → Drive
  | none => { d with copy := none, geometry := {}, okToPersist := false }
  | some disk =>
    { d with
      copy := some disk.toWorkingCopy
      geometry := disk.geometry
      okToPersist := disk.okToPersist }

@[simp]
theorem inserted_put (d : Drive) (content : Option InsertedDisk) :
    (d.put content).inserted = content := by
  cases content <;> rfl

@[simp]
theorem slot_put (d : Drive) (content : Option InsertedDisk) : (d.put content).slot = d.slot := by
  cases content <;> rfl

@[simp]
theorem timer_put (d : Drive) (content : Option InsertedDisk) :
    (d.put content).timer = d.timer := by
  cases content <;> rfl

@[simp]
theorem isWriteProtected_put (d : Drive) (content : Option InsertedDisk) :
    (d.put content).isWriteProtected = d.isWriteProtected := by
  cases content <;> rfl

def insert (d : Drive) (slot : Nat) (disk : InsertedDisk) (now : UInt64) : Drive :=
  { d.put (some disk) with slot := some slot, timer := d.timer.schedule .insert now }

def eject (d : Drive) (now : UInt64) : Drive :=
  { d.put none with timer := d.timer.schedule .eject now }

@[simp]
theorem inserted_eject (d : Drive) (now : UInt64) : (d.eject now).inserted = none := rfl

def sectorOffset (d : Drive) (a : Address) : Except Fault Nat :=
  match d.inserted with
  | none => .error .imageUnavailable
  | some i =>
    if i.geometry.contains a then .ok (i.geometry.offset a)
    else .error (.outOfRange a i.geometry)

def read (d : Drive) (a : Address) (count : Int) : Except Fault Bytes :=
  match d.inserted with
  | none => .error .imageUnavailable
  | some i => i.read a count

def write (d : Drive) (a : Address) (data : Bytes) (isProtected : Bool) : Except Fault Drive :=
  match d.inserted with
  | none => .error .imageUnavailable
  | some i => do
    let i ← i.write a data isProtected
    .ok { d with copy := some i.toWorkingCopy }

def updateTimer (d : Drive) (now : UInt64) : Drive := { d with timer := d.timer.update now }

end Drive

end Diskette
