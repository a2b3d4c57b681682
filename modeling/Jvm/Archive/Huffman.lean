import Jvm.Bytes

/-!
Canonical prefix codes. A code is given by the length of each symbol's codeword; codewords of one
length are consecutive numbers in symbol order, and shorter ones come first. Codewords are held with
their first bit lowest, which is how a stream of bytes delivers them.
-/

set_option autoImplicit false

namespace Jvm

/-- A codeword; the first of its bits is the lowest of `bits`. -/
structure Codeword where
  length : Nat
  bits : Nat
  symbol : Nat
  deriving DecidableEq

/-- A prefix code. At least `least` bits are read before a symbol is looked up. -/
structure PrefixCode where
  least : Nat
  words : List Codeword
  deriving DecidableEq

namespace PrefixCode

def reverseBits : Nat -> Nat -> Nat
  | 0, _ => 0
  | length + 1, n => n % 2 * Nat.pow 2 length + reverseBits length (n / 2)

def symbolsOf (lengths : List Nat) (length : Nat) : List Nat :=
  (lengths.zipIdx.filter fun p => p.1 = length).map Prod.snd

def consecutive (length code : Nat) : List Nat -> List Codeword
  | [] => []
  | s :: rest => ⟨length, reverseBits length code, s⟩ :: consecutive length (code + 1) rest

/-- The codewords of the lengths in a list of successive lengths, and the first number that is free
after them. -/
def assign (lengths : List Nat) (free : Nat) : List Nat -> List Codeword × Nat
  | [] => ([], free)
  | length :: rest =>
    let code := 2 * free
    let symbols := symbolsOf lengths length
    let (words, free) := assign lengths (code + symbols.length) rest
    (consecutive length code symbols ++ words, free)

/-- The code with the given codeword lengths; a length of zero leaves a symbol out. The lengths must
use up all codewords, but a code may be empty or consist of one codeword of one bit. -/
def ofLengths? (lengths : List Nat) : Option PrefixCode :=
  let used := lengths.filter (· ≠ 0)
  let longest := used.foldl max 0
  let (words, free) := assign lengths 0 ((List.range longest).map (· + 1))
  if longest = 0 then some ⟨0, []⟩
  else if free = Nat.pow 2 longest || (free = 1 && longest = 1) then
    some ⟨used.foldl min longest, words⟩
  else none

/-- The codeword that a bit stream starts with; `bits` holds the stream, first bit lowest. -/
def lookup? (c : PrefixCode) (bits : Nat) : Option Codeword :=
  c.words.find? fun w => bits % Nat.pow 2 w.length = w.bits

end PrefixCode

end Jvm
