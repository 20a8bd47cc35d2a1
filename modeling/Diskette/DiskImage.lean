import Diskette.Codec
import Diskette.ImageFile

/-!
# Disk images

A `Disk` is the decoded content of an image: its sectors, in order of track, side and sector, and
what is needed to write them back. A `DiskImage` is what a slot of the catalog holds: a name, and a
disk if one could be decoded.
-/

set_option autoImplicit false

namespace Diskette

structure Disk where
  format : Format
  kind : Kind
  data : Bytes
  isArchived : Bool := false
  recorded : Option Layout := none
  header : Option Bytes := none
  deriving DecidableEq, Repr

namespace Disk

def isPopulated (d : Disk) : Bool := d.kind != .none && !d.data.isEmpty

def geometry (d : Disk) : Geometry := .ofImage d.data d.recorded

def bootSectorIsTrustworthy (d : Disk) : Bool := BootSector.imageIsTrustworthy d.data

/-- Changes to the disk may be kept: it is plain, not out of an archive, and its boot sector can be
trusted. -/
def canPersist (d : Disk) : Bool :=
  d.kind == .plainSector && !d.isArchived && d.bootSectorIsTrustworthy

def ofFormat (f : Format) (file : Bytes) (codec : Codec) : Except Fault Disk :=
  match f.kind with
  | .plainSector => do
    let i ← f.load file
    .ok
      { format := f, kind := .plainSector, data := i.data, recorded := i.recorded?,
        header := i.header }
  | .protectedIpf | .protectedStx => do
    let decoded ← codec.decode f file
    .ok { format := f, kind := f.kind, data := decoded.data, recorded := decoded.layout.usable? }
  | .none => .error .formatUnrecognized

def ofFile [Zip.Library] (name : Option String) (content : Bytes) (codec : Codec) :
    Except Fault Disk := do
  let source ← Source.ofFile name content
  let file ← source.read content
  let disk ← ofFormat source.format file codec
  .ok { disk with isArchived := source.isArchived }

def toSectorImage (d : Disk) : SectorImage where
  data := d.data
  layout := d.geometry.layout
  header := d.header

def encode (d : Disk) (f : Format) : Except Fault Bytes :=
  if !f.isPlain then .error (.encode (.readOnlyFormat f))
  else if !d.isPopulated then .error (.encode .empty)
  else f.save d.toSectorImage

end Disk

structure DiskImage where
  name : String := ""
  disk : Option Disk := none
  /-- The content is a saved copy, loaded from the save store or written to it. -/
  isSaved : Bool := false
  deriving DecidableEq, Repr

namespace DiskImage

def empty (name : String) : DiskImage := { name := name }

def ofFile [Zip.Library] (name : Option String) (content : Bytes) (codec : Codec) :
    Except Fault DiskImage := do
  let disk ← Disk.ofFile name content codec
  .ok { name := (name.map FileName.base).getD "", disk := some disk }

def kind (i : DiskImage) : Kind := (i.disk.map Disk.kind).getD .none

def data (i : DiskImage) : Bytes := (i.disk.map Disk.data).getD []

def isPopulated (i : DiskImage) : Bool := i.disk.any Disk.isPopulated

/-- An image without a disk has the geometry of no data at all. -/
def geometry (i : DiskImage) : Geometry := (i.disk.map Disk.geometry).getD {}

def bootSectorIsTrustworthy (i : DiskImage) : Bool := i.disk.any Disk.bootSectorIsTrustworthy

def canPersist (i : DiskImage) : Bool := i.disk.any Disk.canPersist

def encode (i : DiskImage) (f : Format) : Except Fault Bytes :=
  match i.disk with
  | some d => d.encode f
  | none => if f.isPlain then .error (.encode .empty) else .error (.encode (.readOnlyFormat f))

end DiskImage

end Diskette
