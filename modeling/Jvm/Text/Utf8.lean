import Jvm.Bytes

/-!
UTF-8 on byte strings: the scalar value at the head of a text, and the texts that consist of scalar
values only. Surrogates, overlong forms and values beyond U+10FFFF are not UTF-8.
-/

set_option autoImplicit false

namespace Jvm.Utf8

def isTail (b : UInt8) : Bool := 0x80 <= b && b <= 0xBF

def payload (b : UInt8) : Nat := b.toNat % 64

/-- The least and the greatest second byte after a lead byte of a three- or four-byte form. The
narrowed ranges exclude overlong forms, surrogates and values beyond the last plane. -/
def secondRange (lead : UInt8) : UInt8 × UInt8 :=
  if lead = 0xE0 then (0xA0, 0xBF)
  else if lead = 0xED then (0x80, 0x9F)
  else if lead = 0xF0 then (0x90, 0xBF)
  else if lead = 0xF4 then (0x80, 0x8F)
  else (0x80, 0xBF)

def isSecond (lead b : UInt8) : Bool := (secondRange lead).1 <= b && b <= (secondRange lead).2

/-- The scalar value at the head of a text and the text behind it. -/
def head? : Bytes -> Option (Nat × Bytes)
  | [] => none
  | a :: rest =>
    if a < 0x80 then some (a.toNat, rest)
    else if 0xC2 <= a && a <= 0xDF then
      match rest with
      | b :: r => if isTail b then some (a.toNat % 32 * 64 + payload b, r) else none
      | _ => none
    else if 0xE0 <= a && a <= 0xEF then
      match rest with
      | b :: c :: r =>
        if isSecond a b && isTail c then
          some ((a.toNat % 16 * 64 + payload b) * 64 + payload c, r)
        else none
      | _ => none
    else if 0xF0 <= a && a <= 0xF4 then
      match rest with
      | b :: c :: d :: r =>
        if isSecond a b && isTail c && isTail d then
          some (((a.toNat % 8 * 64 + payload b) * 64 + payload c) * 64 + payload d, r)
        else none
      | _ => none
    else none

theorem head?_length {b r : Bytes} {n : Nat} (h : head? b = some (n, r)) : r.length < b.length := by
  unfold head? at h
  repeat' split at h
  all_goals simp_all <;> omega

inductive Piece where
  | scalar (code : Nat)
  | stray (byte : UInt8)
  deriving DecidableEq

/-- A text read from left to right: a scalar value wherever one starts, else a single stray byte. -/
def pieces (b : Bytes) : List Piece :=
  match _h : head? b with
  | some (n, r) => .scalar n :: pieces r
  | none =>
    match b with
    | [] => []
    | a :: r => .stray a :: pieces r
termination_by b.length
decreasing_by
  · exact head?_length _h
  · simp

def isValid (b : Bytes) : Bool :=
  (pieces b).all fun
    | .scalar _ => true
    | .stray _ => false

def encode (n : Nat) : Bytes :=
  if n < 0x80 then [n.toUInt8]
  else if n < 0x800 then [(0xC0 + n / 64).toUInt8, (0x80 + n % 64).toUInt8]
  else if n < 0x10000 then
    [(0xE0 + n / 4096).toUInt8, (0x80 + n / 64 % 64).toUInt8, (0x80 + n % 64).toUInt8]
  else
    [(0xF0 + n / 262144).toUInt8, (0x80 + n / 4096 % 64).toUInt8, (0x80 + n / 64 % 64).toUInt8,
      (0x80 + n % 64).toUInt8]

example : head? (utf8 "€x") = some (0x20AC, utf8 "x") := by decide
example : head? [0xED, 0xA0, 0x80] = none := by decide
example : encode 0x1F600 = utf8 "😀" := by decide

end Jvm.Utf8
