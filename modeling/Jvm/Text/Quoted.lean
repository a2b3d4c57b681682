import Jvm.Text.Printable
import Jvm.Text.Utf8

/-!
Quoted texts: a text between double quotes, in which the quote, the backslash, every character that
is not printable and every byte that is not UTF-8 is written as an escape.
-/

set_option autoImplicit false

namespace Jvm.Quoted

def letter? (n : Nat) : Option UInt8 :=
  if n = 7 then some 97
  else if n = 8 then some 98
  else if n = 12 then some 102
  else if n = 10 then some 110
  else if n = 13 then some 114
  else if n = 9 then some 116
  else if n = 11 then some 118
  else none

def scalar (n : Nat) : Bytes :=
  if n = 34 || n = 92 then [92, n.toUInt8]
  else if Printable.isPrintable n then Utf8.encode n
  else
    match letter? n with
    | some c => [92, c]
    | none =>
      if n < 0x80 then 92 :: 120 :: Bytes.lowerHex 2 n
      else if n < 0x10000 then 92 :: 117 :: Bytes.lowerHex 4 n
      else 92 :: 85 :: Bytes.lowerHex 8 n

/-- A piece of a text inside quotes; a stray byte is written as two hexadecimal digits. -/
def piece : Utf8.Piece -> Bytes
  | .scalar n => scalar n
  | .stray b => 92 :: 120 :: Bytes.lowerHex 2 b.toNat

def quote (b : Bytes) : Bytes := 34 :: (Utf8.pieces b).flatMap piece ++ [34]

end Jvm.Quoted
