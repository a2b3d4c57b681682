/-!
Byte strings. Every text of the library is a byte string, because a class file may hold text that is
not valid UTF-8 and must be shown as it stands. The module also writes numbers: big-endian as files
store them, and in decimal and hexadecimal as messages show them.
-/

set_option autoImplicit false

namespace Jvm

abbrev Bytes := List UInt8

def utf8 (s : String) : Bytes := s.toUTF8.data.toList

namespace Bytes

def bigEndian (b : Bytes) : Nat := b.foldl (fun n x => n * 256 + x.toNat) 0

def littleEndian : Bytes -> Nat
  | [] => 0
  | x :: b => x.toNat + 256 * littleEndian b

/-- The `width` low bytes of a number, most significant byte first. -/
def ofNat : Nat -> Nat -> Bytes
  | 0, _ => []
  | width + 1, n => ofNat width (n / 256) ++ [n.toUInt8]

def ofUInt32 (n : UInt32) : Bytes := ofNat 4 n.toNat

def ofUInt16 (n : UInt16) : Bytes := ofNat 2 n.toNat

/-- The digits of a natural number in a base of at most sixteen, letters in lower case. -/
def digits (base n : Nat) : Bytes := (Nat.toDigits base n).map fun c => c.toNat.toUInt8

def nat (n : Nat) : Bytes := digits 10 n

def int : Int -> Bytes
  | .ofNat n => nat n
  | .negSucc n => 45 :: nat (n + 1)

def padLeft (width : Nat) (c : UInt8) (b : Bytes) : Bytes := List.replicate (width - b.length) c ++ b

def padRight (width : Nat) (b : Bytes) : Bytes := b ++ List.replicate (width - b.length) 32

/-- An ASCII letter in upper case; every other byte is kept. -/
def upperByte (c : UInt8) : UInt8 := if 97 <= c && c <= 122 then c - 32 else c

def lowerByte (c : UInt8) : UInt8 := if 65 <= c && c <= 90 then c + 32 else c

def hex (width n : Nat) : Bytes := padLeft width 48 ((digits 16 n).map upperByte)

def lowerHex (width n : Nat) : Bytes := padLeft width 48 (digits 16 n)

def join (sep : Bytes) : List Bytes -> Bytes
  | [] => []
  | [b] => b
  | b :: rest => b ++ sep ++ join sep rest

end Bytes

example : Bytes.int (-2147483648) = utf8 "-2147483648" := by decide
example : Bytes.hex 4 0x1f = utf8 "001F" := by decide
example : Bytes.bigEndian (Bytes.ofNat 4 0xCAFEBABE) = 0xCAFEBABE := by decide

end Jvm
