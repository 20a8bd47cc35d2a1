import Diskette.Format
import Diskette.Geometry

/-!
# Faults

Why an operation was refused, as data. `Fault.message?` words every cause for the user; a record
that ends in the middle of a field has no wording of its own.
-/

set_option autoImplicit false

namespace Diskette

inductive ArchiveFault where
  | malformed
  | encrypted
  | enciphered
  | unknownMethod
  | noSuchEntry
  | entryTooLarge (name : String) (size : Nat)
  deriving DecidableEq, Repr

inductive DecodeFault where
  | noBootSector
  | headerCutShort
  | tooLarge (format : String)
  | stTooSmall (length : Nat)
  | stRagged (length : Nat)
  | msaHeader
  | msaCutShort (track side : Nat)
  | msaOverlong (track side stored : Nat)
  | msaOverflow
  | msaRunCutShort
  | msaRunOverflow
  | msaUnfilled (length expected : Nat)
  | dimCutShort
  | dimUnsupported
  | dimRagged (length : Nat)
  | packed
  | archive (cause : ArchiveFault)
  | codec (text : String)
  | codecRagged (codec : String) (length : Nat)
  deriving DecidableEq, Repr

inductive EncodeFault where
  | readOnlyFormat (format : Format)
  | empty
  | stRagged (length : Nat)
  | layout (format : String) (layout : Layout)
  | partialTracks (length : Nat)
  | tooManyTracks (format : String) (tracks : Nat)
  | imageTooLarge
  | nameTooLong
  | headerTooLong
  deriving DecidableEq, Repr

inductive FolderFault where
  | folderIsFile
  | underFile
  | isFolder (path : String)
  | nameTooLong (path : String)
  | nulInName (path : String)
  deriving DecidableEq, Repr

inductive PersistFault where
  | readOnly (name : String)
  | invalidName (quoted : String)
  | folder (cause : FolderFault)
  deriving DecidableEq, Repr

inductive SnapshotFault where
  | noMagic
  | magic (found : Bytes)
  | version (found : UInt32)
  | cutShort
  | imageTooLarge (length : UInt32) (position : Nat)
  | transition (tag : UInt8)
  | kind (tag : UInt8)
  | format (tag : UInt8)
  | noImage
  | name
  deriving DecidableEq, Repr

inductive ReadFault where
  | cutShort
  | checksum
  | deflateCutShort
  | deflateCorrupt
  deriving DecidableEq, Repr

inductive Fault where
  | formatUnrecognized
  | decode (cause : DecodeFault)
  | codecMissing (format : Format)
  | encode (cause : EncodeFault)
  | catalogFull
  | invalidSlot (slot : Nat)
  | noImageSelected
  | imageUnavailable
  | outOfRange (address : Address) (geometry : Geometry)
  | writeProtected
  | snapshot (cause : SnapshotFault)
  | persist (cause : PersistFault)
  | read (cause : ReadFault)
  deriving DecidableEq, Repr

def ArchiveFault.message : ArchiveFault → String
  | malformed => "invalid Zip archive"
  | encrypted => "unsupported Zip archive: Password required to decrypt file"
  | enciphered => "provided password is incorrect"
  | unknownMethod => "unsupported Zip archive: Compression method not supported"
  | noSuchEntry => "specified file not found in archive"
  | entryTooLarge name size =>
    "zip entry " ++ name ++ " is too large: " ++ toString size ++ " bytes"

def DecodeFault.message? : DecodeFault → Option String
  | noBootSector => "image is shorter than a boot sector"
  | headerCutShort => none
  | tooLarge format => format ++ " image is too large"
  | stTooSmall n => "ST image of " ++ toString n ++ " bytes is too small"
  | stRagged n => "ST image size " ++ toString n ++ " is not a multiple of " ++ toString sectorSize
  | msaHeader => "invalid MSA header"
  | msaCutShort t s => "MSA image truncated at track " ++ toString t ++ " side " ++ toString s
  | msaOverlong t s n =>
    "MSA track " ++ toString t ++ " side " ++ toString s ++ " stores " ++ toString n ++
      " bytes, more than a full track"
  | msaOverflow => "MSA track data overflows the track"
  | msaRunCutShort => "MSA run truncated"
  | msaRunOverflow => "MSA run overflows the track"
  | msaUnfilled n e =>
    "MSA track expands to " ++ toString n ++ " bytes, expected " ++ toString e
  | dimCutShort => "DIM header truncated"
  | dimUnsupported => "not a supported DIM image"
  | dimRagged n =>
    "DIM sector data of " ++ toString n ++ " bytes is not a whole number of sectors"
  | packed => "zip archives must be unpacked before parsing"
  | archive cause => cause.message
  | codec text => text
  | codecRagged name n => name ++ " codec returned " ++ toString n ++ " bytes"

def EncodeFault.message : EncodeFault → String
  | readOnlyFormat f => f.label ++ " images cannot be written back"
  | empty => "image has no content"
  | stRagged n => "cannot write " ++ toString n ++ " bytes as an ST image"
  | layout format l =>
    "cannot write " ++ format ++ " with " ++ toString l.sides.toNat ++ " sides and " ++
      toString l.sectorsPerTrack.toNat ++ " sectors per track"
  | partialTracks n => "image of " ++ toString n ++ " bytes is not a whole number of tracks"
  | tooManyTracks format n => toString n ++ " tracks is too many for " ++ format
  | imageTooLarge => "image too large for a snapshot"
  | nameTooLong => "image name too long for a snapshot"
  | headerTooLong => "image header too long for a snapshot"

def FolderFault.message : FolderFault → String
  | folderIsFile => "File exists (os error 17)"
  | underFile => "Not a directory (os error 20)"
  | isFolder path => path ++ ": Is a directory (os error 21)"
  | nameTooLong path => path ++ ": File name too long (os error 36)"
  | nulInName path => path ++ ": file name contained an unexpected NUL byte"

def PersistFault.message : PersistFault → String
  | readOnly name => "save store is read only: " ++ name
  | invalidName quoted => "invalid save name: " ++ quoted
  | folder cause => cause.message

def hexadecimal (n : Nat) : String := String.ofList (Nat.toDigits 16 n)

def SnapshotFault.message? : SnapshotFault → Option String
  | noMagic => "failed to fill whole buffer"
  | magic found =>
    "bad magic at 0x0: [" ++ String.intercalate ", " (found.map (fun b => toString b.toNat)) ++ "]"
  | version v => "version " ++ toString v.toNat ++ " (expected 1)"
  | cutShort => none
  | imageTooLarge n position =>
    "image length " ++ toString n.toNat ++ " is too large at 0x" ++ hexadecimal position
  | transition t => "bad transition tag " ++ toString t.toNat
  | kind t => "bad image kind " ++ toString t.toNat
  | format t => "bad image format " ++ toString t.toNat
  | noImage => "inserted drive has no image"
  | name => "image name is not valid UTF-8"

def ReadFault.message : ReadFault → String
  | cutShort => "failed to fill whole buffer"
  | checksum => "Invalid checksum"
  | deflateCutShort => "incomplete deflate stream"
  | deflateCorrupt => "corrupt deflate stream"

def Fault.message? : Fault → Option String
  | formatUnrecognized => "Disk image format was not recognized from its name or content"
  | decode cause => cause.message?.map ("The disk image is truncated or corrupt: " ++ ·)
  | codecMissing f => "No codec is available to decode " ++ f.label ++ " images"
  | encode cause => "The disk image cannot be written back: " ++ cause.message
  | catalogFull => "The image catalog is full"
  | invalidSlot n => "Catalog slot " ++ toString n ++ " does not exist"
  | noImageSelected => "No image is selected for the drive"
  | imageUnavailable => "The selected image has no valid content"
  | outOfRange a g =>
    "Address out of range: track " ++ toString a.track.toNat ++ " side " ++
      toString a.side.toNat ++ " sector " ++ toString a.sector.toNat ++ " (geometry " ++
      g.text ++ ")"
  | writeProtected => "The disk in the drive is write protected"
  | snapshot cause => cause.message?.map ("The snapshot is not compatible: " ++ ·)
  | persist cause => "Failed to persist disk image: " ++ cause.message
  | read cause => "An IO error occurred: " ++ cause.message

end Diskette
