import Jvm.Bytes

/-!
CBOR data items and their heads.
-/

set_option autoImplicit false

namespace Jvm.Cbor

/-- A data item. A text keeps the chunks it was written in; an item of definite length has one. -/
inductive Item where
  | unsigned (n : Nat)
  /-- the number -1 - n -/
  | negative (n : Nat)
  | bytes (b : Bytes)
  | text (chunks : List Bytes)
  | array (items : List Item)
  | map (pairs : List (Item × Item))
  | tagged (tag : Nat) (content : Item)
  | simple (n : Nat)
  | float

inductive Major where
  | unsigned
  | negative
  | bytes
  | text
  | array
  | map
  | tag
  | other
  deriving DecidableEq

namespace Major

def number : Major -> Nat
  | unsigned => 0
  | negative => 1
  | bytes => 2
  | text => 3
  | array => 4
  | map => 5
  | tag => 6
  | other => 7

def ofByte (b : UInt8) : Major :=
  if b < 0x20 then unsigned
  else if b < 0x40 then negative
  else if b < 0x60 then bytes
  else if b < 0x80 then text
  else if b < 0xA0 then array
  else if b < 0xC0 then map
  else if b < 0xE0 then tag
  else other

end Major

def head (major : Major) (n : Nat) : Bytes :=
  let first := major.number * 32
  if n < 24 then [(first + n).toUInt8]
  else if n < 0x100 then (first + 24).toUInt8 :: Bytes.ofNat 1 n
  else if n < 0x10000 then (first + 25).toUInt8 :: Bytes.ofNat 2 n
  else if n < 0x100000000 then (first + 26).toUInt8 :: Bytes.ofNat 4 n
  else (first + 27).toUInt8 :: Bytes.ofNat 8 n

def null : Bytes := [0xF6]

def number (n : Nat) : Bytes := head .unsigned n

def byteString (b : Bytes) : Bytes := head .bytes b.length ++ b

/-- A text string, written as it stands whether or not it is UTF-8. -/
def textString (b : Bytes) : Bytes := head .text b.length ++ b

def array (items : List Bytes) : Bytes := head .array items.length ++ items.flatten

def map (pairs : List (String × Bytes)) : Bytes :=
  head .map pairs.length ++ pairs.flatMap fun p => textString (utf8 p.1) ++ p.2

end Jvm.Cbor
