import Jvm.CommandLine.Action

/-!
The program: global flags, set-up, and the command with its own flags. Help that is asked for in
front of the command comes before the set-up, and help of a command after it.
-/

set_option autoImplicit false

namespace Jvm.CommandLine

def noJournal : Journal := { file := none, isOpen := false, records := [] }

def usageText (intro : String) (gap : Bytes) (e : UsageError) (help : Bytes) : Bytes :=
  match e with
  | .twoForms _ _ => e.message ++ utf8 "\n" ++ gap ++ help
  | _ => utf8 intro ++ e.message ++ utf8 "\n\n" ++ help

def refused (stdout : Bytes) (e : UsageError) (j : Journal) : Outcome :=
  { stdout := stdout, failure := some ⟨e.message, none⟩, journal := j }

/-- The settings of a call: those of the configuration file if one is named, with the global flags over
them. -/
def setUp (files : FileSystem) (a : Arguments) : Except SettingsError Settings := do
  let path := a.text configFlag
  let s <- if path = [] then pure Settings.default else Settings.load files path
  let file := a.text logFileFlag
  return { s with
    verbosity := (a.number? verbosityFlag).getD s.verbosity
    logFile := if file = [] then s.logFile else file }

def journalOf (s : Settings) : Journal := .start s.logPath s.verbosity

def helpAbout (topic : Bytes) (j : Journal) : Outcome :=
  match Command.named? topic with
  | some c => .printed c.helpText j
  | none =>
    { stdout := [], failure := some ⟨utf8 "No help topic for '" ++ topic ++ utf8 "'", some 3⟩,
      journal := j }

def help (a : Arguments) (j : Journal) : Outcome :=
  match a.rest with
  | [] => .printed helpText j
  | topic :: _ => helpAbout topic j

def classTarget (a : Arguments) : ClassTarget :=
  { target := a.target, classPath := a.text classPathFlag }

def runOptions (a : Arguments) : RunOptions :=
  { trace := a.switch? traceFlag, maxSteps := a.number? maxStepsFlag, locals := a.number? localsFlag }

def perform (rounds : Nat) (files : FileSystem) (s : Settings) (a : Arguments) (j : Journal) :
    Command -> Option Outcome
  | .run => run rounds files s (runOptions a) (classTarget a) j
  | .dump => some (shown j (dump files a.target))
  | .disassemble => some (shown j (disassemble files (classTarget a)))
  | .inspect => some (shown j (inspect files a.target))
  | .parse => some (shown j (parse files (a.text formatFlag) (classTarget a)))
  | .help => some (help a j)

def commandArguments (c : Command) (args : List Bytes) : Except UsageError Arguments :=
  readArguments (c.flags ++ [helpFlag]) (flagsFirst args)

def callCommand (rounds : Nat) (files : FileSystem) (s : Settings) (c : Command) (args : List Bytes) :
    Option Outcome :=
  let j := journalOf s
  match commandArguments c args with
  | .error e => some (refused (usageText "Incorrect Usage: " (utf8 "\n") e c.helpText) e j)
  | .ok a =>
    if a.switch? helpFlag = some true then some (.printed c.helpText j)
    else perform rounds files s a j c

/-- Call the program with arguments and a file system. A run that has not ended after `rounds` rounds
has no outcome. -/
def call (rounds : Nat) (files : FileSystem) (args : List Bytes) : Option Outcome :=
  match readArguments globalFlags args with
  | .error e => some (refused (usageText "Incorrect Usage. " [] e helpText) e noJournal)
  | .ok a =>
    if a.switch? helpFlag = some true then some (.printed helpText noJournal)
    else
      match setUp files a with
      | .error e => some (.failed helpText e.message noJournal)
      | .ok s =>
        match a.rest with
        | [] => some (.printed helpText (journalOf s))
        | name :: args =>
          match Command.named? name with
          | some c => callCommand rounds files s c args
          | none => some (helpAbout name (journalOf s))

/-! ## The files of a call -/

def ClassTarget.paths (t : ClassTarget) : List Bytes :=
  [t.target, t.classPath, Path.join t.classPath (t.className ++ utf8 ".class")]

/-- The paths that a call may read. -/
def readPaths (args : List Bytes) : List Bytes :=
  match readArguments globalFlags args with
  | .error _ => []
  | .ok a =>
    a.text configFlag ::
      (match a.rest with
        | [] => []
        | name :: args =>
          match (Command.named? name).map fun c => commandArguments c args with
          | some (.ok a) => Path.clean a.target :: (classTarget a).paths
          | _ => [])

end Jvm.CommandLine
