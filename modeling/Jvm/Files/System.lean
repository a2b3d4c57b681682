import Jvm.Bytes

/-!
File systems, as far as the program reads them: what each path names, or why it names nothing.
-/

set_option autoImplicit false

namespace Jvm

inductive FileCause where
  | notExist
  | notDirectory
  | isDirectory
  | nameTooLong
  | invalid
  deriving DecidableEq

structure FileError where
  path : Bytes
  cause : FileCause
  deriving DecidableEq

/-- The text of a file error. A directory can be opened but not read. -/
def FileError.message (e : FileError) : Bytes :=
  (if e.cause = .isDirectory then utf8 "read " else utf8 "open ") ++ e.path ++ utf8 ": "
    ++ (match e.cause with
      | .notExist => utf8 "no such file or directory"
      | .notDirectory => utf8 "not a directory"
      | .isDirectory => utf8 "is a directory"
      | .nameTooLong => utf8 "file name too long"
      | .invalid => utf8 "invalid argument")

inductive Found where
  | file (data : Bytes)
  | directory
  deriving DecidableEq

structure FileSystem where
  find : Bytes -> Except FileCause Found

namespace FileSystem

def read (fs : FileSystem) (path : Bytes) : Except FileError Bytes :=
  match fs.find path with
  | .ok (.file data) => .ok data
  | .ok .directory => .error ⟨path, .isDirectory⟩
  | .error cause => .error ⟨path, cause⟩

/-- Whether a path names something other than a directory. -/
def isFile (fs : FileSystem) (path : Bytes) : Bool :=
  match fs.find path with
  | .ok (.file _) => true
  | _ => false

end FileSystem

end Jvm
