import Diskette.Catalog
import Diskette.Snapshot

/-!
# Snapshots of a catalog

A snapshot captures the drives, not the slots. When it is restored, each disk is matched by its
name with a slot of the catalog as it is then.
-/

set_option autoImplicit false

namespace Diskette.Catalog

variable {σ : Type}

def driveState (d : Drive) : DriveState where
  inserted := d.inserted
  first := d.timer.first
  second := d.timer.second

def snapshot (c : Catalog σ) : Snapshot where
  tick := c.tick
  driveA := driveState c.driveA
  driveB := driveState c.driveB

def save (c : Catalog σ) : Except Fault Bytes := c.snapshot.bytes

def slotOf? (c : Catalog σ) (name : String) (taken : Option Nat) : Option Nat :=
  (c.slots.zipIdx.find? (fun (image, i) => image.name == name && taken != some i)).map (·.2)

def matchSlot? (c : Catalog σ) (s : DriveState) (taken : Option Nat) : Option Nat :=
  s.inserted.bind (fun disk => c.slotOf? disk.name taken)

variable [SaveStore σ]

/-- A save of the disk exists: its slot holds a saved copy, or if it has no slot, the save store
has one of its name. -/
def hasSave (c : Catalog σ) (disk : InsertedDisk) (slot : Option Nat) : Bool :=
  match slot with
  | some i => (c.slots[i]?).any (·.isSaved)
  | none => SaveStore.holds c.store disk.name

/-- Put a drive into a state. A disk that has a save counts as changed, or else the save would
outlive what was restored. A drive without a disk keeps its selection. -/
def restoreDrive (c : Catalog σ) (id : DriveId) (s : DriveState) (slot : Option Nat) :
    Catalog σ :=
  let d := c.drive id
  let d := { d with timer := { d.timer with first := s.first, second := s.second } }
  match s.inserted with
  | none => c.setDrive id (d.put none)
  | some disk =>
    let disk := { disk with isModified := disk.isModified || c.hasSave disk slot }
    c.setDrive id { d.put (some disk) with slot := slot }

/-- Eject both drives, then put them into the state of a snapshot. A slot goes to one drive only,
even if two have its name. -/
def restoreState (c : Catalog σ) (s : Snapshot) : Catalog σ :=
  let keep := c.policy.persistOnRestore
  let c := (c.eject .a keep).eject .b keep
  let c := { c with tick := s.tick }
  let slotA := c.matchSlot? s.driveA none
  let slotB := c.matchSlot? s.driveB slotA
  (c.restoreDrive .a s.driveA slotA).restoreDrive .b s.driveB slotB

def restore (c : Catalog σ) (file : Bytes) : Outcome σ Unit :=
  match Snapshot.ofBytes file with
  | .ok s => (c.restoreState s, .ok ())
  | .error fault => (c, .error fault)

end Diskette.Catalog
