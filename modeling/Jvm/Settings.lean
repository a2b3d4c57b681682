import Jvm.Files.System
import Jvm.Machine.Vm
import Jvm.Toml.Document

/-!
Settings of the interpreter and of logging: their defaults, the configuration file that overrides
them, and the rules they must satisfy.
-/

set_option autoImplicit false

namespace Jvm

/-- The settings. An empty log file means the standard error stream. -/
structure Settings where
  localSlots : Int
  maxSteps : Int
  trace : Bool
  verbosity : Int
  logFile : Bytes
  deriving DecidableEq

inductive InvalidSetting where
  | localSlots (n : Int)
  | maxSteps (n : Int)
  deriving DecidableEq

def InvalidSetting.message : InvalidSetting -> Bytes
  | .localSlots n => utf8 "vm.local_slots must be at least 2, got " ++ Bytes.int n
  | .maxSteps n => utf8 "vm.max_steps must not be negative, got " ++ Bytes.int n

inductive SettingsError where
  | unreadable (path : Bytes) (e : FileError)
  | malformed (path : Bytes)
  | unknownKey (path : Bytes) (key : Toml.Key)
  | invalid (path : Bytes) (e : InvalidSetting)
  deriving DecidableEq

def SettingsError.message : SettingsError -> Bytes
  | .unreadable path e => utf8 "cannot read " ++ path ++ utf8 ": " ++ e.message
  | .malformed path => utf8 "parse error in " ++ path
  | .unknownKey path key => path ++ utf8 ": unknown key " ++ Toml.keyText key
  | .invalid path e => path ++ utf8 ": " ++ e.message

namespace Settings

def default : Settings :=
  { localSlots := defaultSlots, maxSteps := 0, trace := false, verbosity := 0, logFile := [] }

def validate (s : Settings) : Except InvalidSetting Unit :=
  if s.localSlots < 2 then .error (.localSlots s.localSlots)
  else if s.maxSteps < 0 then .error (.maxSteps s.maxSteps)
  else .ok ()

def logPath (s : Settings) : Option Bytes := if s.logFile = [] then none else some s.logFile

def apply (s : Settings) (vm : Vm) : Vm := { vm with slots := s.localSlots, maxSteps := s.maxSteps }

/-- The name among `names` that a key's part spells: exactly, or else letter case aside. -/
def nameOf? (names : List String) (part : Bytes) : Option String :=
  match names.find? fun n => utf8 n = part with
  | some n => some n
  | none => names.find? fun n => Toml.matchesName (utf8 n) part

def setVm (s : Settings) (name : String) (v : Toml.Value) : Option Settings :=
  match name, v with
  | "local_slots", .integer n => some { s with localSlots := n }
  | "max_steps", .integer n => some { s with maxSteps := n }
  | "trace", .boolean b => some { s with trace := b }
  | _, _ => none

def setLog (s : Settings) (name : String) (v : Toml.Value) : Option Settings :=
  match name, v with
  | "verbosity", .integer n => some { s with verbosity := n }
  | "file", .string text => some { s with logFile := text }
  | _, _ => none

/-- The settings after some entries of a table, and the keys that were settings. -/
def setEntries (names : List String) (set? : Settings -> String -> Toml.Value -> Option Settings)
    (above : Toml.Key) (s : Settings) : Toml.Table -> Option (Settings × List Toml.Key)
  | [] => some (s, [])
  | (part, v) :: rest =>
    match nameOf? names part with
    | none => setEntries names set? above s rest
    | some name =>
      match set? s name v with
      | none => none
      | some s => (setEntries names set? above s rest).map fun r => (r.1, (above ++ [part]) :: r.2)

def setSection (s : Settings) (name : String) (part : Bytes) (t : Toml.Table) :
    Option (Settings × List Toml.Key) :=
  if name = "vm" then setEntries ["local_slots", "max_steps", "trace"] setVm [part] s t
  else setEntries ["verbosity", "file"] setLog [part] s t

/-- The settings after some sections of a document, and the keys that were settings or sections. -/
def setSections (s : Settings) : Toml.Table -> Option (Settings × List Toml.Key)
  | [] => some (s, [])
  | (part, v) :: rest =>
    match nameOf? ["vm", "log"] part, v with
    | none, _ => setSections s rest
    | some name, .table t =>
      match setSection s name part t with
      | none => none
      | some (s, known) => (setSections s rest).map fun r => (r.1, [part] :: known ++ r.2)
    | some _, _ => none

/-- Read the text of a configuration file over the defaults. A malformed text comes before an unknown
key, and an unknown key before a broken rule. -/
def ofText (path text : Bytes) : Except SettingsError Settings :=
  match (Toml.document? text).bind fun d => (setSections default d.root).map fun r => (d, r) with
  | none => .error (.malformed path)
  | some (d, s, known) =>
    match d.keys.find? fun k => !known.contains k with
    | some key => .error (.unknownKey path key)
    | none =>
      match s.validate with
      | .ok () => .ok s
      | .error e => .error (.invalid path e)

def load (files : FileSystem) (path : Bytes) : Except SettingsError Settings :=
  match files.read path with
  | .ok text => ofText path text
  | .error e => .error (.unreadable path e)

end Settings

end Jvm
