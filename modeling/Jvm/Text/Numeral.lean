import Jvm.Bytes

/-!
Integer numerals with a radix: decimal, or binary, octal or hexadecimal after `0b`, `0o` or `0x`, or
octal after a zero. Underscores may stand between digits.
-/

set_option autoImplicit false

namespace Jvm.Numeral

inductive NumeralError where
  | malformed
  | outOfRange
  deriving DecidableEq

def digit? (c : UInt8) : Option Nat :=
  let c := Bytes.lowerByte c
  if 48 <= c && c <= 57 then some (c.toNat - 48)
  else if 97 <= c && c <= 122 then some (c.toNat - 87)
  else none

/-- Whether every underscore stands between digits; `digit` tells whether a digit stands before. -/
def isSeparated (digit : Bool) : Bytes -> Bool
  | [] => digit
  | 95 :: rest => digit && isSeparated false rest
  | _ :: rest => isSeparated true rest

/-- The number below 2^64 that digits spell after the digits of `n`, underscores aside. -/
def magnitude (radix n : Nat) : Bytes -> Except NumeralError Nat
  | [] => .ok n
  | 95 :: rest => magnitude radix n rest
  | c :: rest =>
    match digit? c with
    | none => .error .malformed
    | some d =>
      if radix <= d then .error .malformed
      else if Nat.pow 2 64 <= n * radix + d then .error .outOfRange
      else magnitude radix (n * radix + d) rest

/-- The radix that the start of a numeral tells, whether that start counts as a digit, and the
digits. -/
def radixOf : Bytes -> Nat × Bool × Bytes
  | 48 :: c :: d :: rest =>
    match Bytes.lowerByte c with
    | 98 => (2, true, d :: rest)
    | 111 => (8, true, d :: rest)
    | 120 => (16, true, d :: rest)
    | _ => (8, true, c :: d :: rest)
  | 48 :: rest => (8, true, rest)
  | b => (10, false, b)

def unsigned (b : Bytes) : Except NumeralError Nat := do
  let (radix, digit, digits) := radixOf b
  let n <- magnitude radix 0 digits
  if isSeparated digit digits then return n else throw .malformed

def int64 : Bytes -> Except NumeralError Int
  | 45 :: b => do
    let n <- unsigned b
    if Nat.pow 2 63 < n then throw .outOfRange else return -(n : Int)
  | b => do
    let n <- unsigned (match b with
      | 43 :: b => b
      | b => b)
    if Nat.pow 2 63 <= n then throw .outOfRange else return (n : Int)

example : int64 (utf8 "-0x1F") = .ok (-31) := rfl
example : int64 (utf8 "010") = .ok 8 := rfl
example : int64 (utf8 "1__0") = .error .malformed := rfl
example : int64 (utf8 "9223372036854775808") = .error .outOfRange := rfl

end Jvm.Numeral
