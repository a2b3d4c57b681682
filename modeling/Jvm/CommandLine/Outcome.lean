import Jvm.Files.Tree
import Jvm.Journal

/-!
What a call of the program comes to: the text it prints, its failure if it fails, and its journal.
-/

set_option autoImplicit false

namespace Jvm.CommandLine

/-- A failure. One with a status is printed and ends the program with it; one without is left to the
caller. -/
structure Failure where
  message : Bytes
  status : Option Nat
  deriving DecidableEq

structure Outcome where
  stdout : Bytes
  failure : Option Failure
  journal : Journal
  deriving DecidableEq

namespace Outcome

def printed (stdout : Bytes) (j : Journal) : Outcome :=
  { stdout := stdout, failure := none, journal := j }

def failed (stdout message : Bytes) (j : Journal) : Outcome :=
  { stdout := stdout, failure := some ⟨message, some 1⟩, journal := j }

def stderr (o : Outcome) : Bytes :=
  match o.failure with
  | some ⟨message, some _⟩ => if message = [] then [] else message ++ utf8 "\n"
  | _ => []

def status (o : Outcome) : Nat := (o.failure.bind Failure.status).getD 0

/-- The files after a call: an opened journal is added to its file. -/
def filesAfter (run : Bytes) (files : FileTree) (o : Outcome) : FileTree :=
  match o.journal.file, o.journal.isOpen with
  | some path, true => files.append path (o.journal.text run)
  | _, _ => files

end Outcome

end Jvm.CommandLine
