import Jvm.ClassFile.Parser
import Jvm.Machine.EntryPoint

/-!
Inspection of ordinary class files: all kinds of constants, interfaces, fields, methods and their
code. This reading is stricter than the interpreter's about attributes and knows more constants; the
summary shows what it finds, and whether the interpreter would find an entry point.
-/

set_option autoImplicit false

namespace Jvm.Inspection

inductive InspectError where
  | short (need available : Nat)
  | ended
  | magic
  | tag (t : UInt8)
  | attributeName (index : Nat)
  | unknownAttribute (name : Bytes)
  deriving DecidableEq

def InspectError.message : InspectError -> Bytes
  | .short need available =>
    utf8 "cannot read " ++ Bytes.nat need ++ utf8 " bytes. got " ++ Bytes.nat available ++ utf8 " bytes"
  | .ended => utf8 "EOF"
  | .magic => utf8 "magic is wrong"
  | .tag t => utf8 "unsupported tags for constant pool. tag:" ++ Bytes.nat t.toNat
  | .attributeName index => utf8 "attribute name index is invalid: index:" ++ Bytes.nat index
  | .unknownAttribute name => utf8 "Unknown attributes:" ++ name

abbrev InspectM := StateT Bytes (Except InspectError)

def take (n : Nat) : InspectM Bytes := do
  let b <- get
  let found := b.take n
  if found.length < n then throw (.short n found.length)
  else do
    set (b.drop n)
    return found

def u16 : InspectM Nat := do return Bytes.bigEndian (<- take 2)

def u32 : InspectM Nat := do return Bytes.bigEndian (<- take 4)

def u8 : InspectM UInt8 := do
  match <- get with
  | [] => throw .ended
  | b :: rest => do
    set rest
    return b

def times {α : Type} (read : InspectM α) : Nat -> InspectM (List α)
  | 0 => return []
  | n + 1 => do
    let a <- read
    return a :: (<- times read n)

inductive Constant where
  | utf8 (text : Bytes)
  | classInfo (name : Nat)
  | other
  deriving DecidableEq

def readConstant : InspectM (Constant × Nat) := do
  let other (size : Nat) : InspectM (Constant × Nat) := do
    let _ <- times u16 (size / 2)
    return (.other, 1)
  match <- u8 with
  | 1 => do return (.utf8 (<- take (<- u16)), 1)
  | 3 | 4 => do
    let _ <- u32
    return (.other, 1)
  | 5 | 6 => do
    let _ <- u32
    let _ <- u32
    return (.other, 2)
  | 7 => do return (.classInfo (<- u16), 1)
  | 9 | 10 | 11 | 12 | 17 | 18 => other 4
  | 8 | 16 | 19 | 20 => other 2
  | 15 => do
    let _ <- u8
    other 2
  | t => throw (.tag t)

/-- Read constants into a number of slots. A constant that takes two slots leaves the second empty.
Every constant takes a slot, so `rounds` need not exceed the number of slots. -/
def readConstants (slots : Nat) : Nat -> InspectM (List Constant)
  | 0 => return []
  | rounds + 1 => do
    if slots = 0 then return []
    else do
      let (c, width) <- readConstant
      let rest <- readConstants (slots - width) rounds
      return c :: (List.replicate (width - 1) .other ++ rest)

/-- Constants by index; the first has index one. -/
abbrev Constants := List Constant

def Constants.at? (cs : Constants) : Nat -> Option Constant
  | 0 => none
  | i + 1 => cs[i]?

def Constants.text? (cs : Constants) (i : Nat) : Option Bytes :=
  match cs.at? i with
  | some (.utf8 text) => some text
  | _ => none

def Constants.className? (cs : Constants) (i : Nat) : Option Bytes :=
  match cs.at? i with
  | some (.classInfo name) => cs.text? name
  | _ => none

structure Code where
  maxStack : Nat
  maxLocals : Nat
  bytes : Bytes
  deriving DecidableEq

def codeBytes (n : Nat) : InspectM Bytes := do
  let b <- get
  let found := b.take n
  if found.length < n then throw .ended
  else do
    set (b.drop n)
    return found

/-- Read code: what stands behind the table of handlers is left unread. -/
def readCode : InspectM Code := do
  let maxStack <- u16
  let maxLocals <- u16
  let bytes <- codeBytes (<- u32)
  let _ <- times (times u16 4) (<- u16)
  return { maxStack := maxStack, maxLocals := maxLocals, bytes := bytes }

/-- Read an attribute; of the attributes only code is kept. The payload is read on its own, once the
name is known to be a text. -/
def readAttribute (cs : Constants) : InspectM (Option Code) := do
  let index <- u16
  let size <- u32
  match cs.text? index with
  | none => throw (.attributeName index)
  | some name => do
    let payload <- take size
    if name = utf8 "Code" then
      match readCode payload with
      | .ok (code, _) => return some code
      | .error e => throw e
    else if name = utf8 "Deprecated" || name = utf8 "Synthetic" then return none
    else throw (.unknownAttribute name)

def counted {α : Type} (read : InspectM α) : InspectM (List α) := do times read (<- u16)

structure Method where
  access : Nat
  name : Nat
  descriptor : Nat
  code : Option Code
  deriving DecidableEq

/-- Read a field or method; the first code among its attributes is its code. -/
def readMethod (cs : Constants) : InspectM Method := do
  let access <- u16
  let name <- u16
  let descriptor <- u16
  let attributes <- counted (readAttribute cs)
  return { access := access, name := name, descriptor := descriptor, code := attributes.findSome? id }

structure Summary where
  minor : Nat
  major : Nat
  constants : Constants
  thisClass : Nat
  superClass : Nat
  methods : List Method
  deriving DecidableEq

def magicNumber : Nat := 0xCAFEBABE

def readSummary : InspectM Summary := do
  if (<- u32) ≠ magicNumber then throw .magic
  let minor <- u16
  let major <- u16
  let slots := (<- u16) - 1
  let cs <- readConstants slots slots
  let _ <- u16
  let thisClass <- u16
  let superClass <- u16
  let _ <- counted u16
  let _ <- counted (readMethod cs)
  let methods <- counted (readMethod cs)
  let _ <- counted (readAttribute cs)
  return {
    minor := minor, major := major, constants := cs, thisClass := thisClass, superClass := superClass,
    methods := methods }

def inspect (data : Bytes) : Except InspectError Summary := (readSummary data).map Prod.fst

def flags : List (Nat × String) :=
  [(0, "public"), (1, "private"), (2, "protected"), (3, "static"), (4, "final")]

def flagNames (access : Nat) : Bytes :=
  match flags.filter fun f => access.testBit f.1 with
  | [] => utf8 "-"
  | set => Bytes.join (utf8 " ") (set.map fun f => utf8 f.2)

def methodLine (cs : Constants) (m : Method) : Bytes :=
  utf8 "  method " ++ (cs.text? m.name).getD [] ++ (cs.text? m.descriptor).getD [] ++ utf8 " ["
    ++ flagNames m.access ++ utf8 "]"
    ++ (match m.code with
      | none => []
      | some c =>
        utf8 " stack=" ++ Bytes.nat c.maxStack ++ utf8 " locals=" ++ Bytes.nat c.maxLocals
          ++ utf8 " code=" ++ Bytes.nat c.bytes.length)

def entryLine (data : Bytes) : Bytes :=
  let none (reason : Bytes) := utf8 "entry point: none (" ++ reason ++ utf8 ")"
  match ClassFile.parse data with
  | .error e => none e.message
  | .ok c =>
    match c.entryPoint with
    | .error e => none e.message
    | .ok _ => utf8 "entry point: " ++ entryName

/-- The lines of a summary. A class without a name is shown as a question mark, and a superclass
without one is not shown. -/
def Summary.lines (s : Summary) : List Bytes :=
  [utf8 "class " ++ (s.constants.className? s.thisClass).getD (utf8 "?")]
    ++ (match s.constants.className? s.superClass with
      | some name => [utf8 "  extends " ++ name]
      | none => [])
    ++ [utf8 "  version " ++ Bytes.nat s.major ++ utf8 "." ++ Bytes.nat s.minor]
    ++ s.methods.map (methodLine s.constants)

def report (data : Bytes) : Except InspectError (List Bytes) :=
  (inspect data).map fun s => s.lines ++ [entryLine data]

end Jvm.Inspection
