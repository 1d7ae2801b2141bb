import Balancer.Text.Quoted

/-!
# CRC-32

The cyclic redundancy check with the reversed polynomial `0xEDB88320`, a bit at a time.
-/

namespace Balancer.Digest

set_option autoImplicit false

/-- One bit of the division. -/
def crcShift (r : UInt32) : UInt32 := if r &&& 1 = 1 then (r >>> 1) ^^^ 0xEDB88320 else r >>> 1

/-- The remainder after one more byte. -/
def crcByte (r : UInt32) (b : UInt8) : UInt32 :=
  (List.range 8).foldl (fun r _ => crcShift r) (r ^^^ b.toUInt32)

def crc32 (bytes : List UInt8) : UInt32 := (bytes.foldl crcByte 0xFFFFFFFF) ^^^ 0xFFFFFFFF

/-- The checksum of a text in UTF-8, as eight hexadecimal digits. -/
def crc32Hex (s : String) : String := String.ofList (Text.hex 8 (crc32 s.toUTF8.toList).toNat)

end Balancer.Digest
