import Diskette.Bytes

/-!
# Checksums of archive entries

The cyclic redundancy check of the reflected polynomial `0xEDB88320`, from all ones, complemented.
-/

set_option autoImplicit false

namespace Diskette.Zip

def crcBit (c : UInt32) : UInt32 :=
  if c &&& 1 = 1 then (c >>> 1) ^^^ 0xEDB88320 else c >>> 1

def crcByte (c : UInt32) (b : UInt8) : UInt32 :=
  crcBit (crcBit (crcBit (crcBit (crcBit (crcBit (crcBit (crcBit (c ^^^ b.toUInt32))))))))

def crc32 (data : Bytes) : UInt32 := data.foldl crcByte 0xFFFFFFFF ^^^ 0xFFFFFFFF

end Diskette.Zip
