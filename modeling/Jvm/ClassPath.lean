import Jvm.Archive.Zip
import Jvm.ClassFile.Parser
import Jvm.Files.Path
import Jvm.Files.System

/-!
Loading classes by name from a class path entry, which is a directory or an archive. A loader keeps
the classes that it has loaded, and an archive once it has been opened; failures leave no trace.
-/

set_option autoImplicit false

namespace Jvm

inductive ClassFileError where
  | unreadable (path : Bytes) (e : FileError)
  | malformed (e : ParseError)
  deriving DecidableEq

def ClassFileError.message : ClassFileError -> Bytes
  | .unreadable path e => utf8 "reading " ++ path ++ utf8 ": " ++ e.message
  | .malformed e => e.message

def ClassFile.load (files : FileSystem) (path : Bytes) : Except ClassFileError ClassFile :=
  match files.read path with
  | .error e => .error (.unreadable path e)
  | .ok data => (ClassFile.parse data).mapError .malformed

inductive LoadError where
  | file (name : Bytes) (e : ClassFileError)
  | archive (e : FileError)
  | malformedArchive (path : Bytes) (e : ZipError)
  | unopenedEntry (entry : Bytes) (e : ZipError)
  | unreadableEntry (entry : Bytes) (e : ZipError)
  /-- the class's entry in an archive -/
  | malformedEntry (name : Bytes) (e : ParseError)
  | notFound (name path : Bytes)
  deriving DecidableEq

def LoadError.message : LoadError -> Bytes
  | .file name e => utf8 "class " ++ name ++ utf8 ": " ++ e.message
  | .archive e => utf8 "archive: " ++ e.message
  | .malformedArchive path e => utf8 "archive: opening " ++ path ++ utf8 ": " ++ e.message
  | .unopenedEntry entry e => utf8 "archive: opening " ++ entry ++ utf8 ": " ++ e.message
  | .unreadableEntry entry e => utf8 "archive: reading " ++ entry ++ utf8 ": " ++ e.message
  | .malformedEntry name e => utf8 "archive: parsing " ++ name ++ utf8 ": " ++ e.message
  | .notFound name path => utf8 "archive: class " ++ name ++ utf8 " not found in " ++ path

inductive ClassPathKind where
  | directory
  | archive
  deriving DecidableEq

def ClassPathKind.ofPath (path : Bytes) : ClassPathKind :=
  if Path.hasExtension [".jar", ".zip", ".jmod"] path then .archive else .directory

namespace Zip

/-- What may stand in front of an archive of modules. -/
def moduleMagic : Bytes := utf8 "JM" ++ [1, 0]

def withoutMagic (data : Bytes) : Bytes :=
  if moduleMagic.isPrefixOf data then data.drop moduleMagic.length else data

def entryNames (name : Bytes) : List Bytes :=
  [name ++ utf8 ".class", utf8 "classes/" ++ name ++ utf8 ".class"]

def readClass (z : Zip) (name : Bytes) (e : ZipEntry) : Except LoadError ClassFile :=
  match z.openEntry e with
  | .error err => .error (.unopenedEntry e.name err)
  | .ok o =>
    match z.readContent e o with
    | .error err => .error (.unreadableEntry e.name err)
    | .ok content => (ClassFile.parse content).mapError (.malformedEntry name)

/-- Load a class from an archive at a path: the first entry that may hold it decides. -/
def loadClass (z : Zip) (path name : Bytes) : Except LoadError ClassFile :=
  match z.entries.find? fun e => (entryNames name).contains e.name with
  | none => .error (.notFound name path)
  | some e => z.readClass name e

def load (files : FileSystem) (path : Bytes) : Except LoadError Zip :=
  match files.read path with
  | .error e => .error (.archive e)
  | .ok data => (Zip.ofBytes (withoutMagic data)).mapError (.malformedArchive path)

end Zip

/-- A loader for one class path entry, with the classes it has loaded, latest first, and the archive
if it has opened it. -/
structure ClassLoader where
  path : Bytes
  loaded : List (Bytes × ClassFile)
  archive : Option Zip

namespace ClassLoader

def ofPath (path : Bytes) : ClassLoader := { path := path, loaded := [], archive := none }

def kind (l : ClassLoader) : ClassPathKind := .ofPath l.path

def readFile (l : ClassLoader) (files : FileSystem) (name : Bytes) : Except LoadError ClassFile :=
  (ClassFile.load files (Path.join l.path (name ++ utf8 ".class"))).mapError (.file name)

def openArchive (l : ClassLoader) (files : FileSystem) : Except LoadError Zip :=
  match l.archive with
  | some z => .ok z
  | none => Zip.load files l.path

def read (l : ClassLoader) (files : FileSystem) (name : Bytes) :
    Except LoadError ClassFile × ClassLoader :=
  match l.kind with
  | .directory => (l.readFile files name, l)
  | .archive =>
    match l.openArchive files with
    | .error e => (.error e, l)
    | .ok z => (z.loadClass l.path name, { l with archive := some z })

def load (l : ClassLoader) (files : FileSystem) (name : Bytes) :
    Except LoadError ClassFile × ClassLoader :=
  match l.loaded.lookup name with
  | some c => (.ok c, l)
  | none =>
    match l.read files name with
    | (.error e, l) => (.error e, l)
    | (.ok c, l) => (.ok c, { l with loaded := (name, c) :: l.loaded })

end ClassLoader

end Jvm
