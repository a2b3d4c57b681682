import Jvm.Bytes

/-!
Where a program's output goes. A sink keeps every write it accepts; one with a budget accepts that
many more writes and refuses the rest, of which it keeps nothing.
-/

set_option autoImplicit false

namespace Jvm

/-- An output sink: the accepted writes, latest first, and how many more it accepts. -/
structure Sink where
  writes : List Bytes
  budget : Option Nat
  deriving DecidableEq

namespace Sink

def unlimited : Sink := { writes := [], budget := none }

def output (s : Sink) : Bytes := s.writes.reverse.flatten

def write? (s : Sink) (b : Bytes) : Option Sink :=
  match s.budget with
  | none => some { s with writes := b :: s.writes }
  | some 0 => none
  | some (n + 1) => some { writes := b :: s.writes, budget := some n }

def println? (s : Sink) (text : Bytes) : Option Sink := s.write? (text ++ utf8 "\n")

def printlnInt? (s : Sink) (n : Int32) : Option Sink := s.println? (Bytes.int n.toInt)

/-- Set how many more writes are accepted; a negative number lifts the limit. -/
def withBudget (s : Sink) : Int -> Sink
  | .ofNat n => { s with budget := some n }
  | .negSucc _ => { s with budget := none }

end Sink

end Jvm
