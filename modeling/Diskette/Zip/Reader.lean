import Diskette.Zip
import Diskette.Zip.Crc32
import Diskette.Zip.Inflate
import Diskette.Zip.EntryName
import Diskette.Zip.ExtraData

/-!
# A reader of archives

A library that runs. An archive ends in a record that says where its directory is. The directory
names every entry and has the last word on its size, method and checksum; the header in front of an
entry's data only says how long that header is. Bytes in front of the archive do not matter. Entries
of all the usual methods are opened, but only stored and deflated data is unpacked here.
-/

set_option autoImplicit false

namespace Diskette.Zip.Reader

def directorySignature : Bytes := [0x50, 0x4B, 0x01, 0x02]

def endSignature : Bytes := [0x50, 0x4B, 0x05, 0x06]

def localHeaderSize : Nat := 30

def directoryHeaderSize : Nat := 46

def endRecordSize : Nat := 22

def field (record : Bytes) (offset width : Nat) : Nat :=
  Bytes.leNat (Bytes.slice record offset width)

def record? (signature : Bytes) (size : Nat) (b : Bytes) : Option (Bytes × Bytes) :=
  (Bytes.split? size b).filter (fun (record, _) => signature.isPrefixOf record)

def placesOf (signature : Bytes) : (b : Bytes) → (start : Nat) → List Nat → List Nat
  | [], _, found => found
  | b :: rest, start, found =>
    placesOf signature rest (start + 1)
      (if signature.isPrefixOf (b :: rest) then start :: found else found)

structure DirectoryEntry where
  name : String
  isEncrypted : Bool
  /-- The extra data names a cipher, whether the flag of encrypted data is set or not. -/
  hasCipher : Bool
  method : Nat
  checksum : UInt32
  packedSize : Nat
  size : Nat
  position : Nat
  deriving DecidableEq, Repr

def nameBit : Nat := 11

def encryptionBit : Nat := 0

/-- The method of an entry under a cipher, unless its extra data gives another one. -/
def enciphered : Nat := 99

def readEntry? (start directory : Nat) (b : Bytes) : Option (DirectoryEntry × Bytes) := do
  let (h, rest) ← record? directorySignature directoryHeaderSize b
  let (name, rest) ← Bytes.split? (field h 28 2) rest
  let (extra, rest) ← Bytes.split? (field h 30 2) rest
  let (comment, rest) ← Bytes.split? (field h 32 2) rest
  let flags := field h 8 2
  let text := if flags.testBit nameBit then EntryName.ofUtf8 else EntryName.ofCodePage
  let labels ← ExtraData.relabel?
    { storedName := name, name := text name, comment := text comment, method := field h 10 2 } extra
  guard (labels.method ≠ enciphered ∨ labels.hasCipher)
  let entry : DirectoryEntry :=
    { name := labels.name
      isEncrypted := flags.testBit encryptionBit
      hasCipher := labels.hasCipher
      method := labels.method
      checksum := UInt32.ofNat (field h 16 4)
      packedSize := field h 20 4
      size := field h 24 4
      position := start + field h 42 4 }
  guard (entry.position < directory)
  some (entry, rest)

def addEntry (e : DirectoryEntry) : List DirectoryEntry → List DirectoryEntry
  | [] => [e]
  | f :: rest => if f.name = e.name then e :: rest else f :: addEntry e rest

def readEntries? (start directory : Nat) :
    (count : Nat) → Bytes → List DirectoryEntry → Option (List DirectoryEntry)
  | 0, _, entries => some entries
  | n + 1, b, entries =>
    match readEntry? start directory b with
    | some (e, rest) => readEntries? start directory n rest (addEntry e entries)
    | none => none

structure Directory where
  file : Bytes
  entries : List DirectoryEntry

namespace Directory

/-- Where the directory stands that an end record at `place` points at. It is the first directory
header at or behind the offset that the record gives, since bytes in front of the archive can only
move it back. A directory of no entries stands in front of its end record, or at the offset. -/
def directory? (file : Bytes) (place : Nat) (record : Bytes) : Option Nat :=
  let offset := field record 16 4
  if field record 10 2 = 0 then some (max place offset)
  else
    let between := Bytes.slice file offset (place - offset)
    ((placesOf directorySignature between 0 []).getLast?).map (offset + ·)

def entriesAt? (file : Bytes) (directory : Nat) (record : Bytes) : Option (List DirectoryEntry) :=
  if field record 4 2 ≠ field record 6 2 then none
  else
    readEntries? (directory - field record 16 4) directory (field record 8 2)
      (file.drop directory) []

/-- Try the end records at the given places in turn. If none will do, the file ends too early if
its last record is cut short, and is malformed in all other cases. -/
def ofPlaces (file : Bytes) : List Nat → Option Fault → Except Fault Directory
  | [], fault => .error (fault.getD (.decode (.archive .malformed)))
  | place :: more, fault =>
    match Bytes.split? endRecordSize (file.drop place) with
    | none => ofPlaces file more (some (fault.getD (.read .cutShort)))
    | some (record, comment) =>
      if comment.length < field record 20 2 then
        ofPlaces file more (some (fault.getD (.decode (.archive .malformed))))
      else
        match directory? file place record with
        | none => ofPlaces file more (some (.decode (.archive .malformed)))
        | some directory =>
          match entriesAt? file directory record with
          | some entries => .ok ⟨file, entries⟩
          | none => ofPlaces file more none

def ofBytes (file : Bytes) : Except Fault Directory :=
  ofPlaces file (placesOf endSignature file 0 []) none

/-- Stored, deflated, deflate64, bzip2, LZMA and Zstandard. -/
def knownMethods : List Nat := [stored, deflated, 9, 12, 14, 93]

def packedData (d : Directory) (e : DirectoryEntry) : Except Fault Bytes :=
  if e.isEncrypted then .error (.decode (.archive .encrypted))
  else
    match Bytes.split? localHeaderSize (d.file.drop e.position) with
    | none => .error (.read .cutShort)
    | some (h, rest) =>
      if !localSignature.isPrefixOf h then .error (.decode (.archive .malformed))
      else if e.method ∉ knownMethods then .error (.decode (.archive .unknownMethod))
      else if e.hasCipher then .error (.decode (.archive .enciphered))
      else .ok (Bytes.slice rest (field h 26 2 + field h 28 2) e.packedSize)

end Directory

def unpack (method : Nat) (packed : Bytes) : Except Fault Bytes :=
  if method = stored then .ok packed
  else if method = deflated then
    match inflate packed with
    | .ok data => .ok data
    | .error .cutShort => .error (.read .deflateCutShort)
    | .error .corrupt => .error (.read .deflateCorrupt)
  else .error (.decode (.archive .unknownMethod))

def DirectoryEntry.contentOf (e : DirectoryEntry) (packed : Bytes) : Except Fault Bytes := do
  let data ← unpack e.method packed
  if crc32 data = e.checksum then .ok data else .error (.read .checksum)

namespace Directory

def openEntry (d : Directory) (e : DirectoryEntry) : Except Fault Entry := do
  let packed ← d.packedData e
  .ok {
    name := e.name
    isFolder := EntryName.isFolder e.name
    enclosedName := if EntryName.staysInside e.name then some e.name else none
    size := e.size
    method := e.method
    checksum := e.checksum
    packed := packed
    readToEnd := fun _ => e.contentOf packed }

def openFirst (d : Directory) : Option DirectoryEntry → Except Fault Entry
  | some e => d.openEntry e
  | none => .error (.decode (.archive .noSuchEntry))

def toArchive (d : Directory) : Archive where
  count := d.entries.length
  byIndex i := d.openFirst d.entries[i]?
  byName name := d.openFirst (d.entries.find? (fun e => e.name == name))

end Directory

scoped instance : Library where
  openArchive file := (Directory.ofBytes file).map Directory.toArchive

end Diskette.Zip.Reader
