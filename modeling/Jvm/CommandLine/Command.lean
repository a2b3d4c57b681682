import Jvm.CommandLine.Flag

/-!
The commands with their flags, and the help texts that follow from them.
-/

set_option autoImplicit false

namespace Jvm.CommandLine

inductive Command where
  | run
  | dump
  | disassemble
  | inspect
  | parse
  | help
  deriving DecidableEq

/-! ## Flags -/

def configFlag : Flag := ⟨["config"], .text "", "TOML configuration file"⟩

def verbosityFlag : Flag := ⟨["verbosity", "v"], .number, "log verbosity (overrides [log] verbosity)"⟩

def logFileFlag : Flag := ⟨["log-file"], .text "", "write logs to this file instead of stderr"⟩

def helpFlag : Flag := ⟨["help", "h"], .switch, "show help"⟩

def traceFlag : Flag := ⟨["trace"], .switch, "log every instruction at debug level"⟩

def maxStepsFlag : Flag :=
  ⟨["max-steps"], .number, "stop after this many instructions (0 = no limit)"⟩

def localsFlag : Flag := ⟨["locals"], .number, "number of local variable slots"⟩

def classPathFlag : Flag :=
  ⟨["classpath", "cp"], .text ".",
    "directory or jar searched when a class name is given instead of a file"⟩

def formatFlag : Flag := ⟨["format"], .text "text", "output format: text or cbor"⟩

/-- The flags that stand in front of the command. -/
def globalFlags : List Flag := [configFlag, verbosityFlag, logFileFlag, helpFlag]

namespace Command

def all : List Command := [run, dump, disassemble, inspect, parse, help]

def names : Command -> List String
  | run => ["run"]
  | dump => ["dump"]
  | disassemble => ["disasm"]
  | inspect => ["inspect"]
  | parse => ["parse"]
  | help => ["help", "h"]

def usage : Command -> String
  | run => "Execute the main entry point of a class"
  | dump => "Print the raw bytes of a file as hex and ASCII"
  | disassemble => "List the instructions of the main entry point"
  | inspect => "Summarize a class file with a full class file parser"
  | parse => "Print the parsed class file model"
  | help => "Shows a list of commands or help for one command"

def arguments : Command -> String
  | run | disassemble | parse => "<file.class | ClassName>"
  | dump => "<file>"
  | inspect => "<file.class>"
  | help => "[command]"

/-- The flags of a command, the one that asks for help aside. -/
def flags : Command -> List Flag
  | run => [traceFlag, maxStepsFlag, localsFlag, classPathFlag]
  | disassemble => [classPathFlag]
  | parse => [formatFlag, classPathFlag]
  | dump | inspect | help => []

/-- How a command is called; the help command is left without a name there. -/
def call : Command -> String
  | help => ""
  | c => "tinyjvm " ++ c.names.headD ""

def named? (name : Bytes) : Option Command :=
  all.find? fun c => c.names.any fun n => utf8 n = name

end Command

/-! ## Help -/

/-- Rows of two columns: the first is as wide as its widest cell and two spaces. -/
def rows (cells : List (Bytes × Bytes)) : List Bytes :=
  let width := (cells.map fun c => c.1.length).foldl max 0 + 2
  cells.map fun c => Bytes.padRight width c.1 ++ c.2

def dashed (kind : FlagKind) (name : String) : Bytes :=
  utf8 (if name.length = 1 then "-" else "--") ++ utf8 name
    ++ (if kind = .switch then [] else utf8 " value")

def shownDefault : FlagKind -> Bytes
  | .switch => []
  | .number => utf8 " (default: 0)"
  | .text default =>
    if default = "" then [] else utf8 " (default: " ++ Quoted.quote (utf8 default) ++ utf8 ")"

def flagRows (flags : List Flag) : List Bytes :=
  rows (flags.map fun f =>
    (Bytes.join (utf8 ", ") (f.names.map (dashed f.kind)), utf8 f.usage ++ shownDefault f.kind))

def commandRows : List Bytes :=
  rows (Command.all.map fun c => (Bytes.join (utf8 ", ") (c.names.map utf8), utf8 c.usage))

def unlines (lines : List Bytes) : Bytes := lines.flatMap fun l => l ++ utf8 "\n"

def indent (width : Nat) (lines : List Bytes) : List Bytes :=
  lines.map fun l => List.replicate width 32 ++ l

def helpText : Bytes :=
  unlines
    ([utf8 "NAME:", utf8 "   tinyjvm - run and inspect class files", [], utf8 "USAGE:",
        utf8 "   tinyjvm [global options] command [command options] [arguments...]", [],
        utf8 "COMMANDS:"]
      ++ indent 5 commandRows ++ [[], utf8 "GLOBAL OPTIONS:"] ++ indent 3 (flagRows globalFlags))

def Command.helpText (c : Command) : Bytes :=
  let call := utf8 "   " ++ utf8 c.call
  unlines
    ([utf8 "NAME:", call ++ utf8 " - " ++ utf8 c.usage, [], utf8 "USAGE:",
        call ++ (if c.flags = [] then [] else utf8 " [command options]") ++ utf8 " "
          ++ utf8 c.arguments]
      ++ (if c.flags = [] then []
        else [[], utf8 "OPTIONS:"] ++ indent 3 (flagRows c.flags) ++ [utf8 "   "]))

end Jvm.CommandLine
