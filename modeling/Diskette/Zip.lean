import Diskette.Fault

/-!
# Zip archives

Archives are read by a library that is not a part of this development: it opens a file, knows its
entries by number and by name, and reads an entry to its end. What is done with it is all here. The
size that an entry states is compared with the greatest size allowed before the entry is read, and
with nothing after that.
-/

set_option autoImplicit false

namespace Diskette.Zip

def localSignature : Bytes := [0x50, 0x4B, 0x03, 0x04]

def stored : Nat := 0

def deflated : Nat := 8

/-- An entry that was opened. Name, size, method and checksum are what the directory states. -/
structure Entry where
  name : String
  isFolder : Bool
  /-- The path below the folder the archive is unpacked into; none if it would lead out of it. -/
  enclosedName : Option String
  size : Nat
  method : Nat
  checksum : UInt32
  packed : Bytes
  readToEnd : Unit → Except Fault Bytes

structure Archive where
  count : Nat
  byIndex : Nat → Except Fault Entry
  byName : String → Except Fault Entry

class Library where
  openArchive : Bytes → Except Fault Archive

/-- What the data of an entry unpacks to, by the two methods whose results are documented. -/
def Entry.unpacked? (e : Entry) (inflate : Bytes → Option Bytes) : Option Bytes :=
  if e.method = stored then some e.packed
  else if e.method = deflated then inflate e.packed
  else none

section

variable [Library]

def Entry.IsIn (e : Entry) (file : Bytes) : Prop :=
  ∃ a index, Library.openArchive file = .ok a ∧ index < a.count ∧ a.byIndex index = .ok e

/-- What is documented of a library. Names are unique, data that is corrupt or has another checksum
is an error, and nothing is said about how much comes out of an entry of some stated size. -/
structure Library.Documented (inflate : Bytes → Option Bytes) (crc32 : Bytes → UInt32) :
    Prop where
  byName : ∀ {file a index e}, Library.openArchive file = .ok a → a.byIndex index = .ok e →
    a.byName e.name = .ok e
  enclosedName : ∀ {file e name}, Entry.IsIn e file → e.enclosedName = some name → name = e.name
  packed : ∀ {file e}, Entry.IsIn e file → e.packed <:+: file
  readToEnd : ∀ {file e}, Entry.IsIn e file → e.method = stored ∨ e.method = deflated →
    ∀ data, e.readToEnd () = .ok data ↔ e.unpacked? inflate = some data ∧ crc32 data = e.checksum

def count? (file : Bytes) : Option Nat :=
  match Library.openArchive file with
  | .ok a => some a.count
  | .error _ => none

def Archive.listed? (a : Archive) (index : Nat) : Except Fault (Option (String × Nat)) := do
  let e ← a.byIndex index
  if e.isFolder then pure none else pure (e.enclosedName.map (fun name => (name, e.size)))

/-- The files listed in an archive, by name and stated size. Every entry has to open for that. -/
def listing (file : Bytes) : Except Fault (List (String × Nat)) := do
  let a ← Library.openArchive file
  let files ← (List.range a.count).mapM a.listed?
  pure (files.filterMap id)

def extract (file : Bytes) (name : String) : Except Fault Bytes := do
  let a ← Library.openArchive file
  let e ← a.byName name
  if maxImageSize < e.size then .error (.decode (.archive (.entryTooLarge name e.size)))
  else e.readToEnd ()

end

end Diskette.Zip
