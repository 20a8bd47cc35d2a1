import Diskette.Drive

/-!
# Snapshots

The state of both drives at a tick, as a byte string. A record is a sequence of big-endian numbers
and of byte strings that their lengths precede; the image and its header are left out for an empty
drive. What is read is checked in full before anything is made of it.
-/

set_option autoImplicit false

namespace Diskette

structure DriveState where
  inserted : Option InsertedDisk := none
  first : Option Phase := none
  second : Option Phase := none
  deriving DecidableEq, Repr

structure Snapshot where
  tick : UInt64
  driveA : DriveState
  driveB : DriveState
  deriving DecidableEq, Repr

/-- The fields of a drive in a snapshot, as they are stored. -/
structure DriveRecord where
  kind : UInt8 := 0
  format : UInt8 := 0
  inserted : UInt8 := 0
  image : Bytes := []
  name : Bytes := []
  isModified : UInt8 := 0
  okToPersist : UInt8 := 0
  sides : UInt16 := 0
  sectorsPerTrack : UInt16 := 0
  isArchived : UInt8 := 0
  header : Bytes := []
  firstEvent : UInt8 := 0
  firstStart : UInt64 := 0
  secondEvent : UInt8 := 0
  secondStart : UInt64 := 0
  deriving DecidableEq, Repr

namespace Snapshot

def magic : Bytes := [0x46, 0x42, 0x53, 0x53]

def version : Nat := 1

def eventTag : Option SwapEvent → UInt8
  | none => 0
  | some .insert => 1
  | some .eject => 2

def phaseOf (tag : UInt8) (start : UInt64) : Except SnapshotFault (Option Phase) :=
  if tag = 0 then .ok none
  else if tag = 1 then .ok (some ⟨.insert, start⟩)
  else if tag = 2 then .ok (some ⟨.eject, start⟩)
  else .error (.transition tag)

def flag (b : Bool) : UInt8 := if b then 1 else 0

end Snapshot

namespace DriveRecord

open Snapshot

def ofPhases (s : DriveState) : DriveRecord where
  firstEvent := eventTag (s.first.map (·.event))
  firstStart := (s.first.map (·.start)).getD 0
  secondEvent := eventTag (s.second.map (·.event))
  secondStart := (s.second.map (·.start)).getD 0

def ofState (s : DriveState) : DriveRecord :=
  match s.inserted with
  | none => ofPhases s
  | some i =>
    { ofPhases s with
      kind := i.disk.kind.tag
      format := i.disk.format.tag
      inserted := 1
      image := i.disk.data
      name := i.name.toUTF8.toList
      isModified := flag i.isModified
      okToPersist := flag i.okToPersist
      sides := i.geometry.sides
      sectorsPerTrack := i.geometry.sectorsPerTrack
      isArchived := flag i.disk.isArchived
      header := i.disk.header.getD [] }

def oversize? (r : DriveRecord) : Option EncodeFault :=
  if Bytes.limit 4 ≤ r.image.length then some .imageTooLarge
  else if Bytes.limit 2 ≤ r.name.length then some .nameTooLong
  else if Bytes.limit 2 ≤ r.header.length then some .headerTooLong
  else none

def bytes (r : DriveRecord) : Bytes :=
  [r.kind, r.format, r.inserted] ++ Bytes.toBE 4 r.image.length ++ r.image ++
    Bytes.toBE 2 r.name.length ++ r.name ++ [r.isModified, r.okToPersist] ++
    Bytes.toBE 2 r.sides.toNat ++ Bytes.toBE 2 r.sectorsPerTrack.toNat ++ [r.isArchived] ++
    Bytes.toBE 2 r.header.length ++ r.header ++
    [r.firstEvent] ++ Bytes.toBE 8 r.firstStart.toNat ++
    [r.secondEvent] ++ Bytes.toBE 8 r.secondStart.toNat

def write (s : DriveState) : Except Fault Bytes :=
  let r := ofState s
  match r.oversize? with
  | some cause => .error (.encode cause)
  | none => .ok r.bytes

end DriveRecord

namespace Snapshot

abbrev Reader := Bytes.Reader SnapshotFault

def chunk (n : Nat) : Reader Bytes := Bytes.next .cutShort n

def number (width : Nat) : Reader Nat := do
  let b ← chunk width
  pure (Bytes.beNat b)

def byte : Reader UInt8 := do
  let n ← number 1
  pure (UInt8.ofNat n)

def word : Reader UInt16 := do
  let n ← number 2
  pure (UInt16.ofNat n)

def long : Reader UInt64 := do
  let n ← number 8
  pure (UInt64.ofNat n)

end Snapshot

namespace DriveRecord

open Snapshot

def read (position : Nat) : Reader DriveRecord := do
  let kind ← byte
  let format ← byte
  let inserted ← byte
  let isEmpty := inserted = 0
  let imageLength ← number 4
  if maxImageSize < imageLength then
    throw (.imageTooLarge (UInt32.ofNat imageLength) position)
  let image ← chunk (if isEmpty then 0 else imageLength)
  let name ← chunk (← number 2)
  let isModified ← byte
  let okToPersist ← byte
  let sides ← word
  let sectorsPerTrack ← word
  let isArchived ← byte
  let headerLength ← number 2
  let header ← chunk (if isEmpty then 0 else headerLength)
  let firstEvent ← byte
  let firstStart ← long
  let secondEvent ← byte
  let secondStart ← long
  pure
    { kind, format, inserted, image, name, isModified, okToPersist, sides, sectorsPerTrack,
      isArchived, header, firstEvent, firstStart, secondEvent, secondStart }

/-- The disk that a record of an inserted disk describes. The layout is the one that the drive
presented, whatever the disk itself declares. -/
def disk (r : DriveRecord) : Except SnapshotFault InsertedDisk :=
  match Kind.ofTag? r.kind with
  | none | some .none => .error (.kind r.kind)
  | some kind =>
    match (Format.ofTag? r.format).filter (fun f => f.kind == kind) with
    | none => .error (.format r.format)
    | some format =>
      if r.image.isEmpty then .error .noImage
      else
        match String.fromUTF8? ⟨r.name.toArray⟩ with
        | none => .error .name
        | some name =>
          let layout : Layout := ⟨r.sides, r.sectorsPerTrack⟩
          .ok
            { name := name
              disk :=
                { format := format
                  kind := kind
                  data := r.image
                  isArchived := r.isArchived != 0
                  recorded := layout.usable?
                  header := if r.header.isEmpty then none else some r.header }
              isModified := r.isModified != 0
              geometry := .ofLength r.image.length layout
              okToPersist := r.okToPersist != 0 }

def state (r : DriveRecord) : Except SnapshotFault DriveState := do
  let first ← phaseOf r.firstEvent r.firstStart
  let second ← phaseOf r.secondEvent r.secondStart
  if r.inserted = 0 then .ok { first := first, second := second }
  else
    let inserted ← r.disk
    .ok { inserted := some inserted, first := first, second := second }

end DriveRecord

namespace Snapshot

def prologueSize : Nat := 16

def bytes (s : Snapshot) : Except Fault Bytes := do
  let a ← DriveRecord.write s.driveA
  let b ← DriveRecord.write s.driveB
  .ok (magic ++ Bytes.toBE 4 version ++ Bytes.toBE 8 s.tick.toNat ++ a ++ b)

def readTick : Reader UInt64 := do
  let found ← number 4
  let tick ← long
  if found ≠ version then throw (.version (UInt32.ofNat found))
  pure tick

/-- Read a snapshot of a file of `size` bytes behind the magic bytes. The record of drive A is
checked before the one of drive B is read. -/
def readBody (size : Nat) : Reader Snapshot := do
  let tick ← readTick
  let recordA ← DriveRecord.read prologueSize
  let driveA ← recordA.state
  let rest ← get
  let recordB ← DriveRecord.read (size - rest.length)
  let driveB ← recordB.state
  pure ⟨tick, driveA, driveB⟩

def parse (file : Bytes) : Except SnapshotFault Snapshot :=
  match Bytes.split? magic.length file with
  | none => .error .noMagic
  | some (found, rest) =>
    if found ≠ magic then .error (.magic found)
    else (readBody file.length).run' rest

def ofBytes (file : Bytes) : Except Fault Snapshot :=
  match parse file with
  | .ok s => .ok s
  | .error cause => .error (.snapshot cause)

end Snapshot

end Diskette
