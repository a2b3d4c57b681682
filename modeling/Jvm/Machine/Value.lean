import Jvm.Text.Quoted

/-!
The values of the machine: 32-bit integers, texts, and the void that an unset local slot holds.
-/

set_option autoImplicit false

namespace Jvm

inductive Kind where
  | void
  | int
  | string
  deriving DecidableEq

namespace Kind

def name : Kind -> Bytes
  | void => utf8 "void"
  | int => utf8 "int"
  | string => utf8 "string"

/-- The name of the kind with a number. Numbers from three on name no kind and are shown as they are;
a negative number has no name at all. -/
def nameOfNumber? : Int -> Option Bytes
  | 0 => some void.name
  | 1 => some int.name
  | 2 => some string.name
  | .ofNat n => some (utf8 "Kind(" ++ Bytes.nat n ++ utf8 ")")
  | .negSucc _ => none

end Kind

inductive Value where
  | void
  | int (n : Int32)
  | string (text : Bytes)
  deriving DecidableEq

namespace Value

def kind : Value -> Kind
  | void => .void
  | int _ => .int
  | string _ => .string

def text : Value -> Bytes
  | void => Kind.void.name
  | int n => Bytes.int n.toInt
  | string s => Quoted.quote s

end Value

end Jvm
