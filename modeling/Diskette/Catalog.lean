import Diskette.Drive
import Diskette.Policy
import Diskette.SaveStore

/-!
# The catalog

Up to 32 slots with disk images and two drives that present them. A slot is in one drive at most. A
changed disk that leaves its drive goes back into its slot and into the save store, if it may be
kept; otherwise its changes are lost. The save store is any type with the operations of one.
-/

set_option autoImplicit false

namespace Diskette

structure Catalog (σ : Type) where
  policy : Policy
  slots : List DiskImage
  driveA : Drive
  driveB : Drive
  codec : Codec
  store : σ
  tick : UInt64

namespace Catalog

def maxSlots : Nat := 32

variable {σ : Type}

def new (policy : Policy) (store : σ) : Catalog σ where
  policy := policy
  slots := []
  driveA := .empty policy.delay
  driveB := .empty policy.delay
  codec := .unavailable
  store := store
  tick := 0

def drive (c : Catalog σ) : DriveId → Drive
  | .a => c.driveA
  | .b => c.driveB

def setDrive (c : Catalog σ) (id : DriveId) (d : Drive) : Catalog σ :=
  match id with
  | .a => { c with driveA := d }
  | .b => { c with driveB := d }

@[simp]
theorem drive_setDrive_self (c : Catalog σ) (id : DriveId) (d : Drive) :
    (c.setDrive id d).drive id = d := by
  cases id <;> rfl

@[simp]
theorem drive_setDrive_other (c : Catalog σ) (id : DriveId) (d : Drive) :
    (c.setDrive id d).drive id.other = c.drive id.other := by
  cases id <;> rfl

@[simp]
theorem slots_setDrive (c : Catalog σ) (id : DriveId) (d : Drive) :
    (c.setDrive id d).slots = c.slots := by
  cases id <;> rfl

@[simp]
theorem store_setDrive (c : Catalog σ) (id : DriveId) (d : Drive) :
    (c.setDrive id d).store = c.store := by
  cases id <;> rfl

@[simp]
theorem policy_setDrive (c : Catalog σ) (id : DriveId) (d : Drive) :
    (c.setDrive id d).policy = c.policy := by
  cases id <;> rfl

@[simp]
theorem tick_setDrive (c : Catalog σ) (id : DriveId) (d : Drive) :
    (c.setDrive id d).tick = c.tick := by
  cases id <;> rfl

abbrev Outcome (σ α : Type) := Catalog σ × Except Fault α

namespace Outcome

def andThen {α β : Type} (o : Outcome σ α) (next : Catalog σ → α → Outcome σ β) :
    Outcome σ β :=
  match o with
  | (c, .ok x) => next c x
  | (c, .error fault) => (c, .error fault)

end Outcome

def slotName (c : Catalog σ) (slot : Nat) : Except Fault String :=
  match c.slots[slot]? with
  | some image => .ok image.name
  | none => .error (.invalidSlot slot)

def label (c : Catalog σ) (slot : Nat) : Except Fault String :=
  match c.slotName slot with
  | .error fault => .error fault
  | .ok name =>
    match DriveId.all.find? (fun id => (c.drive id).presents slot) with
    | some id => .ok ("[" ++ id.label ++ "] " ++ name)
    | none => .ok name

/-- Put a disk back into the slot it came from, if the slot still has its name. -/
def putBack (c : Catalog σ) (slot : Option Nat) (disk : InsertedDisk) : Catalog σ :=
  match slot with
  | none => c
  | some i =>
    match c.slots[i]? with
    | none => c
    | some image =>
      if image.name = disk.name then
        { c with slots := c.slots.set i { disk.toImage with isSaved := true } }
      else c

variable [SaveStore σ]

/-- Keep a changed disk if it may be kept and can be written in its own format: in the save store
if saving is enabled, whether or not the store takes it, and in its slot. -/
def persist (c : Catalog σ) (slot : Option Nat) (disk : InsertedDisk) : Catalog σ :=
  if !disk.okToPersist then c
  else
    match disk.disk.encode disk.disk.format with
    | .error _ => c
    | .ok file =>
      let store :=
        if c.policy.saveEnabled then (SaveStore.store c.store disk.name file).1 else c.store
      { c with store := store }.putBack slot disk

/-- Eject the disk of a drive. Its changes are lost unless they are to be kept. -/
def eject (c : Catalog σ) (id : DriveId) (keep : Bool) : Catalog σ :=
  let d := c.drive id
  match d.inserted with
  | none => c
  | some disk =>
    let c := c.setDrive id (d.eject c.tick)
    if disk.isModified && keep then c.persist d.slot disk else c

def add (c : Catalog σ) : Outcome σ Nat :=
  if maxSlots ≤ c.slots.length then (c, .error .catalogFull)
  else ({ c with slots := c.slots ++ [{}] }, .ok c.slots.length)

def ejectFrom (c : Catalog σ) (slot : Nat) (id : DriveId) : Catalog σ :=
  if (c.drive id).presents slot then c.eject id true else c

def namelessImage (slot : Nat) : String := "<Image " ++ toString slot ++ ">.st"

/-- Decode a file into a slot. Drives that present the slot are ejected first. A save under the
name goes before the file. If decoding fails the slot keeps nothing but the name. -/
def replace [Zip.Library] (c : Catalog σ) (slot : Nat) (name : Option String) (file : Bytes) :
    Outcome σ Unit :=
  if c.slots.length ≤ slot then (c, .error (.invalidSlot slot))
  else
    let c := (c.ejectFrom slot .a).ejectFrom slot .b
    let imageName := (name.map FileName.base).getD (namelessImage slot)
    let saved :=
      if name.isSome && c.policy.saveEnabled then SaveStore.load c.store imageName else none
    match DiskImage.ofFile name (saved.getD file) c.codec with
    | .ok image =>
      let image := { image with name := imageName, isSaved := saved.isSome }
      ({ c with slots := c.slots.set slot image }, .ok ())
    | .error fault => ({ c with slots := c.slots.set slot (.empty imageName) }, .error fault)

def select (c : Catalog σ) (id : DriveId) (slot : Nat) : Outcome σ Unit :=
  if c.slots.length ≤ slot then (c, .error (.invalidSlot slot))
  else if (c.drive id).slot = some slot then (c, .ok ())
  else
    let c := c.eject id true
    (c.setDrive id { c.drive id with slot := some slot }, .ok ())

/-- Insert the disk of the selected slot, which leaves the other drive first if it is there. -/
def insert (c : Catalog σ) (id : DriveId) : Outcome σ Unit :=
  if (c.drive id).isInserted then (c, .ok ())
  else
    match (c.drive id).slot with
    | none => (c, .error .noImageSelected)
    | some slot =>
      let c := c.ejectFrom slot id.other
      match c.slots[slot]? with
      | none => (c, .error .imageUnavailable)
      | some image =>
        match image.disk.filter Disk.isPopulated with
        | none => (c, .error .imageUnavailable)
        | some disk =>
          let working := InsertedDisk.ofDisk image.name disk image.isSaved
          (c.setDrive id ((c.drive id).insert slot working c.tick), .ok ())

def setInserted (c : Catalog σ) (id : DriveId) (inserted : Bool) : Outcome σ Unit :=
  if inserted then c.insert id else (c.eject id true, .ok ())

def reinsert (c : Catalog σ) (id : DriveId) : Outcome σ Unit :=
  if (c.drive id).isInserted then (c.eject id true).insert id else (c, .ok ())

/-- Eject and insert the disks of both drives, as in a reset of the machine. A disabled drive B is
left alone. The first fault is reported after both have been tried. -/
def reinsertAll (c : Catalog σ) : Outcome σ Unit :=
  let (c, first) := c.reinsert .a
  if c.policy.driveBEnabled then
    let (c, second) := c.reinsert .b
    match first with
    | .error fault => (c, .error fault)
    | .ok () => (c, second)
  else (c, first)

def read (c : Catalog σ) (id : DriveId) (a : Address) (count : Int) : Except Fault Bytes :=
  (c.drive id).read a count

def lineOverride (c : Catalog σ) (id : DriveId) : Catalog σ × LineOverride :=
  (c.setDrive id ((c.drive id).updateTimer c.tick), (c.drive id).timer.lineOverride c.tick)

def isSetProtected (c : Catalog σ) (id : DriveId) : Bool :=
  c.policy.writeProtection || (c.drive id).isWriteProtected

/-- The level of the line: as a disk change makes it, or else protected if there is no disk or
writes are refused. -/
def lineSignal (c : Catalog σ) (id : DriveId) : Catalog σ × Bool :=
  let (c, override) := c.lineOverride id
  match override with
  | .forceProtected => (c, true)
  | .forceUnprotected => (c, false)
  | .none => (c, !(c.drive id).isInserted || c.isSetProtected id)

def write (c : Catalog σ) (id : DriveId) (a : Address) (data : Bytes) : Outcome σ Unit :=
  let (c, isProtected) :=
    if c.isSetProtected id then (c, true)
    else
      let (c, override) := c.lineOverride id
      (c, override == .forceProtected)
  match (c.drive id).write a data isProtected with
  | .ok d => (c.setDrive id d, .ok ())
  | .error fault => (c, .error fault)

def setWriteProtected (c : Catalog σ) (id : DriveId) (on : Bool) : Catalog σ :=
  c.setDrive id { c.drive id with isWriteProtected := on }

def setTick (c : Catalog σ) (tick : UInt64) : Catalog σ := { c with tick := tick }

def advance (c : Catalog σ) : Catalog σ := { c with tick := SwapTimer.later c.tick 1 }

def setPolicy (c : Catalog σ) (policy : Policy) : Catalog σ :=
  let withDelay (d : Drive) : Drive := { d with timer := d.timer.setDelay policy.delay }
  { c with policy := policy, driveA := withDelay c.driveA, driveB := withDelay c.driveB }

def setCodec (c : Catalog σ) (codec : Codec) : Catalog σ := { c with codec := codec }

def resetTimers (c : Catalog σ) : Catalog σ :=
  let reset (d : Drive) : Drive := { d with timer := d.timer.reset }
  { c with driveA := reset c.driveA, driveB := reset c.driveB }

def unload (c : Catalog σ) (id : DriveId) : Catalog σ :=
  let c := c.eject id true
  c.setDrive id { c.drive id with slot := none }

def clear (c : Catalog σ) : Catalog σ :=
  { (c.unload .a).unload .b with slots := [] }

def loadTitle [Zip.Library] (c : Catalog σ) (name : Option String) (file : Bytes) :
    Outcome σ Unit :=
  Outcome.andThen c.clear.add fun c slot =>
  Outcome.andThen (c.replace slot name file) fun c _ =>
  Outcome.andThen (c.select .a slot) fun c _ =>
  c.setInserted .a true

def addAll [Zip.Library] (c : Catalog σ) : List (Option String × Bytes) → Outcome σ Unit
  | [] => (c, .ok ())
  | (name, file) :: more =>
    Outcome.andThen c.add fun c slot => addAll (c.replace slot name file).1 more

def insertSecond (c : Catalog σ) (first : Nat) : Outcome σ Unit :=
  if c.policy.driveBEnabled && 1 < c.slots.length then
    Outcome.andThen (c.select .b ((first + 1) % c.slots.length)) fun c _ =>
    ((c.setInserted .b true).1, .ok ())
  else (c, .ok ())

/-- Load a title of several disks and insert one of them into drive A, the first if there is no
such disk. The disk after it goes into drive B. -/
def loadPlaylist [Zip.Library] (c : Catalog σ) (start : Nat)
    (files : List (Option String × Bytes)) :
    Outcome σ Unit :=
  Outcome.andThen (c.clear.addAll files) fun c _ =>
  if c.slots.isEmpty then (c, .error .noImageSelected)
  else
    let first := if start < c.slots.length then start else 0
    Outcome.andThen (c.select .a first) fun c _ =>
    Outcome.andThen (c.setInserted .a true) fun c _ =>
    c.insertSecond first

end Catalog

end Diskette
