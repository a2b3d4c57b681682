import Jvm.ClassFile.Description
import Jvm.ClassPath
import Jvm.CommandLine.Command
import Jvm.CommandLine.Outcome
import Jvm.Disassembly
import Jvm.HexDump
import Jvm.Inspection
import Jvm.Settings
import Jvm.Snapshot.Codec

/-!
The actions of the commands. An action reads files, and prints or fails; a run also executes a class
and keeps a journal.
-/

set_option autoImplicit false

namespace Jvm.CommandLine

/-! ## Targets -/

/-- A class to load: a file or a class name, and where names are looked for. -/
structure ClassTarget where
  target : Bytes
  classPath : Bytes
  deriving DecidableEq

namespace ClassTarget

def className (t : ClassTarget) : Bytes := t.target.map fun c => if c = 46 then 47 else c

/-- Whether a target is a file: it ends like a class file, or it exists. -/
def isFile (files : FileSystem) (t : ClassTarget) : Bool :=
  (utf8 ".class").isSuffixOf t.target || files.isFile t.target

def load (files : FileSystem) (t : ClassTarget) : Except Bytes ClassFile :=
  if t.target = [] then .error (utf8 "missing class file argument")
  else if t.isFile files then (ClassFile.load files t.target).mapError ClassFileError.message
  else ((ClassLoader.ofPath t.classPath).load files t.className).1.mapError LoadError.message

end ClassTarget

def readTarget (files : FileSystem) (path : Bytes) : Except Bytes Bytes :=
  if path = [] then .error (utf8 "missing file argument")
  else (files.read (Path.clean path)).mapError FileError.message

/-! ## Runs -/

/-- The options of a run; those that are not given leave the settings as they are. -/
structure RunOptions where
  trace : Option Bool
  maxSteps : Option Int
  locals : Option Int
  deriving DecidableEq

def RunOptions.over (o : RunOptions) (s : Settings) : Settings :=
  { s with
    trace := o.trace.getD s.trace
    maxSteps := o.maxSteps.getD s.maxSteps
    localSlots := o.locals.getD s.localSlots }

/-- The verbosity of a run: a trace is shown at any verbosity. -/
def runVerbosity (s : Settings) : Int := if s.trace then max s.verbosity 2 else s.verbosity

def instructionRecord (e : TraceEntry) : Record :=
  ⟨.debug, utf8 "pc=" ++ Bytes.int e.pc ++ utf8 " " ++ mnemonic e.opcode ++ utf8 " depth="
    ++ Bytes.nat e.depth⟩

def endRecord (name : Bytes) (vm : Vm) : Record :=
  let ended := vm.state.name ++ utf8 " after " ++ Bytes.nat vm.steps ++ utf8 " steps"
  match vm.error with
  | none => ⟨.info, name ++ utf8 " " ++ ended⟩
  | some e => ⟨.error, name ++ utf8 ": " ++ ended ++ utf8 ": " ++ e.message⟩

def runRecords (s : Settings) (name : Bytes) (vm : Vm) (trace : List TraceEntry) : List Record :=
  ⟨.info, utf8 "running " ++ name⟩ :: (if s.trace then trace.map instructionRecord else [])
    ++ [endRecord name vm]

/-- The settings and the class of a run, or why there is no run. Settings are checked before the class
is loaded. -/
def prepareRun (files : FileSystem) (s : Settings) (o : RunOptions) (t : ClassTarget) :
    Except Bytes (Settings × ClassFile) := do
  let s := o.over s
  s.validate.mapError InvalidSetting.message
  let c <- t.load files
  return (s, c)

def run (rounds : Nat) (files : FileSystem) (s : Settings) (o : RunOptions) (t : ClassTarget)
    (j : Journal) : Option Outcome :=
  match prepareRun files s o t with
  | .error message => some (.failed [] message j)
  | .ok (s, c) =>
    match (s.apply (Vm.start c)).execute rounds with
    | none => none
    | some (vm, trace) =>
      let j := j.add (runVerbosity s) (runRecords s t.target vm trace)
      match vm.error with
      | none => some (.printed vm.sink.output j)
      | some e => some (.failed vm.sink.output e.message j)

/-! ## Views -/

def dump (files : FileSystem) (path : Bytes) : Except Bytes Bytes := do
  let data <- readTarget files path
  return unlines (HexDump.lines data)

def disassemble (files : FileSystem) (t : ClassTarget) : Except Bytes Bytes := do
  let c <- t.load files
  let code <- c.entryPoint.mapError EntryError.message
  return unlines (Disassembly.listing c code)

def inspect (files : FileSystem) (path : Bytes) : Except Bytes Bytes := do
  let data <- readTarget files path
  let lines <- (Inspection.report data).mapError fun e => path ++ utf8 ": " ++ e.message
  return unlines lines

def parse (files : FileSystem) (format : Bytes) (t : ClassTarget) : Except Bytes Bytes := do
  let c <- t.load files
  if format = utf8 "text" then return unlines c.describe
  else if format = utf8 "cbor" then return c.toSnapshot
  else throw (utf8 "unknown format " ++ Quoted.quote format)

def shown (j : Journal) : Except Bytes Bytes -> Outcome
  | .ok stdout => .printed stdout j
  | .error message => .failed [] message j

end Jvm.CommandLine
