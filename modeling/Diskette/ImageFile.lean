import Diskette.BootSector
import Diskette.Dim
import Diskette.FileName
import Diskette.Msa
import Diskette.Zip

/-!
# Image files

What can be told of a file before it is decoded: its format, by name or by content, and the archive
entry that holds the image. Plain files are read into sector images here and written back.
-/

set_option autoImplicit false

namespace Diskette

namespace Format

def signature? : Format → Option Bytes
  | .ipf => some [0x43, 0x41, 0x50, 0x53]
  | .stx => some [0x52, 0x53, 0x59, 0x00]
  | .zip => some Zip.localSignature
  | _ => none

/-- Bare sectors have no signature: whole sectors of a tabled length, or behind a boot sector with
plausible parameters, will do. -/
def isBareSectors (file : Bytes) : Bool :=
  let length := file.length
  sectorSize ≤ length && length % sectorSize == 0 &&
    ((Layout.ofLength? length).isSome ||
      match BootSector.ofImage file with
      | .ok s => s.parameters.isPlausible
      | .error _ => false)

def fits (f : Format) (file : Bytes) : Bool :=
  match f with
  | .st => isBareSectors file
  | .msa => Msa.isMsa file
  | .dim => Dim.isDim file
  | f => f.signature?.any (fun s => s.isPrefixOf file)

/-- The order in which content is tried, from the surest sign to none at all. -/
def bySurety : List Format := [.zip, .msa, .dim, .ipf, .stx, .st]

def ofContent? (file : Bytes) : Option Format :=
  bySurety.find? (fun f => f.fits file)

def load (f : Format) (file : Bytes) : Except Fault SectorImage :=
  match f with
  | .st => St.load file
  | .msa => Msa.load file
  | .dim => Dim.load file
  | .ipf | .stx => .error (.codecMissing f)
  | .zip => .error (.decode .packed)

def save (f : Format) (i : SectorImage) : Except Fault Bytes :=
  match f with
  | .st => St.save i
  | .msa => Msa.save i
  | .dim => Dim.save i
  | f => .error (.encode (.readOnlyFormat f))

end Format

inductive Source where
  | file (format : Format)
  | entry (format : Format) (name : String)
  deriving DecidableEq, Repr

namespace Source

def format : Source → Format
  | file f => f
  | entry f _ => f

def isArchived : Source → Bool
  | file _ => false
  | entry _ _ => true

def label : Source → String
  | file f => f.label
  | entry f name => "Zipped " ++ f.label ++ " (" ++ name ++ ")"

/-- The first entry with an image's extension, or else the first entry of all if its content fits
a format. An archive in an archive is no image. -/
def inArchive [Zip.Library] (archive : Bytes) : Except Fault Source := do
  let files ← Zip.listing archive
  let named := files.findSome? (fun (name, _) =>
    match Format.ofName? name with
    | some .zip | none => none
    | some f => some (entry f name))
  match named, files with
  | some source, _ => .ok source
  | none, [] => .error .formatUnrecognized
  | none, (name, _) :: _ => do
    let content ← Zip.extract archive name
    match Format.ofContent? content with
    | some .zip | none => .error .formatUnrecognized
    | some f => .ok (entry f name)

/-- Find the image in a file. The extension of its name decides on the format before its content
does. -/
def ofFile [Zip.Library] (name : Option String) (content : Bytes) : Except Fault Source :=
  match name.bind Format.ofName? <|> Format.ofContent? content with
  | none => .error .formatUnrecognized
  | some .zip => inArchive content
  | some f => .ok (file f)

def read [Zip.Library] (source : Source) (content : Bytes) : Except Fault Bytes :=
  match source with
  | file _ => .ok content
  | entry _ name => Zip.extract content name

end Source

end Diskette
