import Jvm.Text.Numeral
import Jvm.Text.Quoted

/-!
Flags of a command line. A flag is written with one dash or two, and its value follows an equals sign
or is the next argument; a switch needs no value. The flags of a command end at the first argument
that is none.
-/

set_option autoImplicit false

namespace Jvm.CommandLine

inductive FlagKind where
  | switch
  | number
  | text (default : String)
  deriving DecidableEq

/-- A flag with its names, the longest first. -/
structure Flag where
  names : List String
  kind : FlagKind
  usage : String
  deriving DecidableEq

inductive FlagValue where
  | switch (on : Bool)
  | number (n : Int)
  | text (b : Bytes)
  deriving DecidableEq

inductive UsageError where
  | malformed (arg : Bytes)
  | undefined (name : Bytes)
  | missingValue (name : String)
  | notSwitch (value : Bytes) (name : String)
  | notNumber (value : Bytes) (name : String) (e : Numeral.NumeralError)
  | twoForms (first second : String)
  deriving DecidableEq

def UsageError.message : UsageError -> Bytes
  | .malformed arg => utf8 "bad flag syntax: " ++ arg
  | .undefined name => utf8 "flag provided but not defined: -" ++ name
  | .missingValue name => utf8 "flag needs an argument: -" ++ utf8 name
  | .notSwitch value name =>
    utf8 "invalid boolean value " ++ Quoted.quote value ++ utf8 " for -" ++ utf8 name
      ++ utf8 ": parse error"
  | .notNumber value name e =>
    utf8 "invalid value " ++ Quoted.quote value ++ utf8 " for flag -" ++ utf8 name
      ++ (match e with
        | .malformed => utf8 ": parse error"
        | .outOfRange => utf8 ": value out of range")
  | .twoForms first second =>
    utf8 "Cannot use two forms of the same flag: " ++ utf8 second ++ utf8 " " ++ utf8 first

/-- Arguments: the flags given, under the names they were given by, latest first, and what follows
them. -/
structure Arguments where
  given : List (String × FlagValue)
  rest : List Bytes
  deriving DecidableEq

namespace Arguments

def value? (a : Arguments) (f : Flag) : Option FlagValue :=
  (a.given.find? fun g => f.names.contains g.1).map Prod.snd

def switch? (a : Arguments) (f : Flag) : Option Bool :=
  match a.value? f with
  | some (.switch on) => some on
  | _ => none

def number? (a : Arguments) (f : Flag) : Option Int :=
  match a.value? f with
  | some (.number n) => some n
  | _ => none

def text (a : Arguments) (f : Flag) : Bytes :=
  match a.value? f, f.kind with
  | some (.text b), _ => b
  | _, .text default => utf8 default
  | _, _ => []

def target (a : Arguments) : Bytes := a.rest.headD []

end Arguments

inductive ArgumentForm where
  | positional
  | terminator
  | malformed
  | flag (name : Bytes) (value : Option Bytes)
  deriving DecidableEq

/-- A flag's name and the value behind its equals sign; the name is not empty. -/
def flagForm (b : Bytes) : ArgumentForm :=
  match b with
  | [] | 45 :: _ | 61 :: _ => .malformed
  | _ =>
    match b.dropWhile (· ≠ 61) with
    | [] => .flag b none
    | _ :: value => .flag (b.takeWhile (· ≠ 61)) (some value)

/-- The form of an argument. A dash alone is no flag. -/
def argumentForm : Bytes -> ArgumentForm
  | [45, 45] => .terminator
  | 45 :: 45 :: b => flagForm b
  | [45] => .positional
  | 45 :: b => flagForm b
  | _ => .positional

def switchOf? (b : Bytes) : Option Bool :=
  if ["1", "t", "T", "TRUE", "true", "True"].any fun s => utf8 s = b then some true
  else if ["0", "f", "F", "FALSE", "false", "False"].any fun s => utf8 s = b then some false
  else none

def FlagKind.read (name : String) (b : Bytes) : FlagKind -> Except UsageError FlagValue
  | .switch =>
    match switchOf? b with
    | some on => .ok (.switch on)
    | none => .error (.notSwitch b name)
  | .number =>
    match Numeral.int64 b with
    | .ok n => .ok (.number n)
    | .error e => .error (.notNumber b name e)
  | .text _ => .ok (.text b)

def flagNamed? (flags : List Flag) (name : Bytes) : Option (String × FlagKind) :=
  flags.findSome? fun f => (f.names.find? fun n => utf8 n = name).map fun n => (n, f.kind)

def readFlags (flags : List Flag) (given : List (String × FlagValue)) :
    List Bytes -> Except UsageError Arguments
  | [] => .ok ⟨given, []⟩
  | arg :: rest =>
    match argumentForm arg with
    | .positional => .ok ⟨given, arg :: rest⟩
    | .terminator => .ok ⟨given, rest⟩
    | .malformed => .error (.malformed arg)
    | .flag name value =>
      match flagNamed? flags name with
      | none => .error (.undefined name)
      | some (name, kind) =>
        match value, kind, rest with
        | some value, kind, rest =>
          match kind.read name value with
          | .ok v => readFlags flags ((name, v) :: given) rest
          | .error e => .error e
        | none, .switch, rest => readFlags flags ((name, .switch true) :: given) rest
        | none, _, [] => .error (.missingValue name)
        | none, kind, value :: rest =>
          match kind.read name value with
          | .ok v => readFlags flags ((name, v) :: given) rest
          | .error e => .error e

def usedNames (given : List (String × FlagValue)) (f : Flag) : List String :=
  f.names.filter fun n => given.any fun g => g.1 = n

/-- Read arguments. No flag may be given under two of its names. -/
def readArguments (flags : List Flag) (args : List Bytes) : Except UsageError Arguments := do
  let a <- readFlags flags [] args
  match (flags.map (usedNames a.given)).find? fun names => 1 < names.length with
  | some (first :: second :: _) => throw (.twoForms first second)
  | _ => return a

def looksLikeFlag : Bytes -> Bool
  | [45] => false
  | 45 :: _ => true
  | _ => false

/-- Arguments with those in front of the first flag moved behind the flags, so that flags may follow
an argument. Nothing is moved past two dashes. -/
def flagsFirst (args : List Bytes) : List Bytes :=
  let isEnd := fun arg : Bytes => arg = [45, 45]
  let free := args.takeWhile fun arg => !isEnd arg
  let fixed := args.dropWhile fun arg => !isEnd arg
  free.dropWhile (fun arg => !looksLikeFlag arg) ++ free.takeWhile (fun arg => !looksLikeFlag arg) ++ fixed

example : flagsFirst (["A", "--n", "3"].map utf8) = ["--n", "3", "A"].map utf8 := by decide
example : argumentForm (utf8 "--format=cbor") = .flag (utf8 "format") (some (utf8 "cbor")) := by decide

end Jvm.CommandLine
