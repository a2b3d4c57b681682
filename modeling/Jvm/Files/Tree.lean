import Jvm.Files.Path
import Jvm.Files.System

/-!
File trees as values: directories of files below a working directory, and the file system that they
make. Paths are followed part by part, so every part but the last must be a directory.
-/

set_option autoImplicit false

namespace Jvm

inductive Node where
  | file (data : Bytes)
  | directory (entries : List (Bytes × Node))

def Node.found : Node -> Found
  | .file data => .file data
  | .directory _ => .directory

/-- The entries of the working directory. -/
abbrev FileTree := List (Bytes × Node)

namespace FileTree

def maxName : Nat := 255

def maxPath : Nat := 4095

/-- Follow parts of a path from a node; `above` holds the directories above it, nearest first. Above
the working directory lies a directory of which nothing is known. -/
def follow (above : List Node) (node : Node) : List Bytes -> Except FileCause Node
  | [] => .ok node
  | part :: rest =>
    match node with
    | .file _ => .error .notDirectory
    | .directory entries =>
      if Path.isHere part then follow above node rest
      else if Path.isUp part then
        match above with
        | [] => follow [] (.directory []) rest
        | up :: above => follow above up rest
      else if maxName < part.length then .error .nameTooLong
      else
        match entries.lookup part with
        | none => .error .notExist
        | some next => follow (node :: above) next rest

/-- What a path names. A rooted path leads outside the working directory. -/
def find (t : FileTree) (path : Bytes) : Except FileCause Node :=
  if path = [] then .error .notExist
  else if path.contains 0 then .error .invalid
  else if maxPath < path.length then .error .nameTooLong
  else follow [] (.directory (if Path.isRooted path then [] else t)) (Path.parts path)

def system (t : FileTree) : FileSystem where
  find path := (t.find path).map Node.found

def put (name : Bytes) (node : Node) : FileTree -> FileTree
  | [] => [(name, node)]
  | (n, old) :: rest => if n = name then (n, node) :: rest else (n, old) :: put name node rest

/-- Put a node at the end of the parts of a path; the directories above it are made. Parts that stay
in place are skipped, and the last part must be a name. -/
def putAt (node : Node) : List Bytes -> FileTree -> FileTree
  | [], t => t
  | [name], t => if Path.isHere name then t else put name node t
  | part :: rest, t =>
    if Path.isHere part then putAt node rest t
    else
      let entries :=
        match t.lookup part with
        | some (.directory entries) => entries
        | _ => []
      put part (.directory (putAt node rest entries)) t

/-- Write a file, or make a directory when the path ends with a slash. -/
def write (path data : Bytes) (t : FileTree) : FileTree :=
  let parts := Path.parts (Path.clean path)
  if path.getLast? = some 47 then
    match t.find path with
    | .ok (.directory _) => t
    | _ => putAt (.directory []) parts t
  else putAt (.file data) parts t

def removeAt : List Bytes -> FileTree -> FileTree
  | [], t => t
  | [name], t => t.filter fun e => e.1 ≠ name
  | part :: rest, t =>
    match t.lookup part with
    | some (.directory entries) => put part (.directory (removeAt rest entries)) t
    | _ => t

def remove (path : Bytes) (t : FileTree) : FileTree := removeAt (Path.parts (Path.clean path)) t

/-- Add data at the end of a file, which is made if its directory exists. A tree holds no file above
its working directory, and such a path changes nothing. -/
def append (path data : Bytes) (t : FileTree) : FileTree :=
  let parts := Path.parts (Path.clean path)
  let directory := Bytes.join (utf8 "/") (utf8 "." :: (Path.parts path).dropLast)
  match t.find path, t.find directory with
  | .ok (.file old), _ => putAt (.file (old ++ data)) parts t
  | .error .notExist, .ok (.directory _) =>
    if Path.isRooted path || parts.any Path.isUp || path.getLast? = some 47 then t
    else putAt (.file data) parts t
  | _, _ => t

end FileTree

end Jvm
