import Jvm.Bytes

/-!
The journal of a run: records of a level each. The verbosity decides which levels are shown, and at
the lowest verbosity there is no journal at all.
-/

set_option autoImplicit false

namespace Jvm

inductive Level where
  | error
  | info
  | debug
  deriving DecidableEq

namespace Level

def leastVerbosity : Level -> Int
  | error => -2
  | info => 1
  | debug => 2

def name : Level -> Bytes
  | error => utf8 "ERROR"
  | info => utf8 "INFO"
  | debug => utf8 "DEBUG"

end Level

structure Record where
  level : Level
  text : Bytes
  deriving DecidableEq

def Record.line (run : Bytes) (r : Record) : Bytes :=
  Bytes.padLeft 6 32 r.level.name ++ utf8 " [tinyjvm.run] [" ++ run ++ utf8 "] " ++ r.text ++ utf8 "\n"

/-- A journal: its file, or the standard error stream when there is none, whether it was opened, and
the records it shows. -/
structure Journal where
  file : Option Bytes
  isOpen : Bool
  records : List Record
  deriving DecidableEq

namespace Journal

/-- The verbosity at and below which nothing is opened. -/
def silence : Int := -4

def start (file : Option Bytes) (verbosity : Int) : Journal :=
  { file := file, isOpen := silence < verbosity, records := [] }

/-- Add records at a verbosity, which opens the journal if it is above silence. -/
def add (verbosity : Int) (records : List Record) (j : Journal) : Journal :=
  { j with
    isOpen := j.isOpen || silence < verbosity
    records := j.records ++ records.filter fun r => r.level.leastVerbosity <= verbosity }

def text (run : Bytes) (j : Journal) : Bytes := j.records.flatMap (Record.line run)

end Journal

end Jvm
