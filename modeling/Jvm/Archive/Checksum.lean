import Jvm.Bytes

/-!
The 32-bit cyclic redundancy check of archives: the remainder of a byte string by a fixed polynomial,
lowest bit first, with the bits flipped before and after.
-/

set_option autoImplicit false

namespace Jvm.Checksum

/-- The polynomial, lowest power in the highest bit. -/
def polynomial : UInt32 := 0xEDB88320

def bit (r : UInt32) : UInt32 := if r % 2 = 1 then (r / 2) ^^^ polynomial else r / 2

def bits : Nat -> UInt32 -> UInt32
  | 0, r => r
  | n + 1, r => bits n (bit r)

def byte (r : UInt32) (b : UInt8) : UInt32 := bits 8 (r ^^^ b.toUInt32)

def crc32 (data : Bytes) : UInt32 := data.foldl byte 0xFFFFFFFF ^^^ 0xFFFFFFFF

example : crc32 (utf8 "123456789") = 0xCBF43926 := by decide +kernel

end Jvm.Checksum
