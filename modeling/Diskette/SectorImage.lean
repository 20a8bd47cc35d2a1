import Diskette.Fault

/-!
# Sector images

What a plain image file holds once it is read: every sector of the disk in order of track, side
and sector, the layout its file recorded, and the file header if it has to be kept. The simplest
file is the bare sectors, which is the ST format.
-/

set_option autoImplicit false

namespace Diskette

structure SectorImage where
  data : Bytes
  /-- The layout in the file header; zeros if there is no such header. -/
  layout : Layout := ⟨0, 0⟩
  header : Option Bytes := none
  deriving DecidableEq, Repr

namespace SectorImage

def recorded? (i : SectorImage) : Option Layout := i.layout.usable?

end SectorImage

namespace St

def load (file : Bytes) : Except Fault SectorImage :=
  let length := file.length
  if length < sectorSize then .error (.decode (.stTooSmall length))
  else if length % sectorSize ≠ 0 then .error (.decode (.stRagged length))
  else if maxImageSize < length then .error (.decode (.tooLarge "ST"))
  else .ok { data := file }

def save (i : SectorImage) : Except Fault Bytes :=
  let length := i.data.length
  if length = 0 ∨ length % sectorSize ≠ 0 then .error (.encode (.stRagged length))
  else .ok i.data

end St

end Diskette
