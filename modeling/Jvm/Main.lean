import Jvm.CommandLine.Program

/-!
The program on a real file system: it looks up the paths that a call may read, makes the call, prints
what it prints and adds to its journal.
-/

set_option autoImplicit false

namespace Jvm.CommandLine

/-- What a failed look-up shows. A directory is opened and then found unreadable, which has a number
of its own; so has a malformed path. -/
def lookUpFailure : IO.Error -> Except FileCause Found
  | .noFileOrDirectory _ _ _ => .error .notExist
  | .inappropriateType _ code _ => if code = 21 then .ok .directory else .error .notDirectory
  | .invalidArgument _ code _ => if code = 22 then .error .invalid else .error .nameTooLong
  | _ => .error .invalid

def lookUpPath (path : Bytes) : IO (Except FileCause Found) := do
  match String.fromUTF8? ⟨path.toArray⟩ with
  | none => return .error .notExist
  | some name =>
    try
      let data <- IO.FS.readBinFile name
      return .ok (.file data.toList)
    catch e => return lookUpFailure e

def lookUpPaths (paths : List Bytes) : IO FileSystem := do
  let found <- paths.mapM fun path => do return (path, <- lookUpPath path)
  return { find := fun path => (found.lookup path).getD (.error .notExist) }

def runIdentifier (n : Nat) : Bytes :=
  let digits := Bytes.lowerHex 32 n
  let group := fun start size => (digits.drop start).take size
  Bytes.join (utf8 "-") [group 0 8, group 8 4, group 12 4, group 16 4, group 20 12]

def keepJournal (j : Journal) : IO Unit := do
  if j.isOpen then
    let text := j.text (runIdentifier (<- IO.rand 0 (Nat.pow 2 128 - 1)))
    match j.file.bind fun path => String.fromUTF8? ⟨path.toArray⟩ with
    | some name =>
      let file <- IO.FS.Handle.mk name .append
      file.write ⟨text.toArray⟩
    | none => (<- IO.getStderr).write ⟨text.toArray⟩

/-- How many rounds a run may take; no run ends by it. -/
def unbounded : Nat := Nat.pow 2 62

end Jvm.CommandLine

open Jvm Jvm.CommandLine in
def main (args : List String) : IO UInt32 := do
  let args := args.map utf8
  let files <- lookUpPaths (readPaths args)
  match call unbounded files args with
  | none => return 1
  | some o =>
    (<- IO.getStdout).write ⟨o.stdout.toArray⟩
    keepJournal o.journal
    match o.failure with
    | none => return 0
    | some f => do
      (<- IO.getStderr).write ⟨(f.message ++ utf8 "\n").toArray⟩
      return (f.status.getD 1).toUInt32
