import Jvm.Bytes

/-!
Assembling class files. A builder collects constant pool entries and members and writes the whole
file. Entries are shared by a textual key made of their kind and their parts.
-/

set_option autoImplicit false

namespace Jvm

structure NewAttribute where
  name : Bytes
  data : Bytes
  deriving DecidableEq

structure NewMember where
  name : UInt16
  descriptor : UInt16
  attributes : List NewAttribute
  deriving DecidableEq

/-- A class file in the making: the encoded pool entries, the index of each shared key, and the
members. -/
structure Builder where
  className : Bytes
  superName : Bytes
  minor : UInt16
  major : UInt16
  pool : List Bytes
  shared : List (Bytes × UInt16)
  members : List NewMember
  deriving DecidableEq

abbrev Assembly := StateM Builder

namespace Builder

def start (className : Bytes) : Builder :=
  { className := className, superName := utf8 "java/lang/Object", minor := 0, major := 52, pool := [],
    shared := [], members := [] }

/-- Append an entry without sharing it. The index is that of the entry, in 16 bits. -/
def append (entry : Bytes) : Assembly UInt16 := do
  let b <- get
  let index := (b.pool.length + 1).toUInt16
  set { b with pool := b.pool ++ [entry] }
  return index

/-- The index of the entry with a key; the entry is appended when the key is new. -/
def add (key entry : Bytes) : Assembly UInt16 := do
  let b <- get
  match b.shared.lookup key with
  | some index => return index
  | none => do
    let index <- append entry
    modify fun b => { b with shared := (key, index) :: b.shared }
    return index

def words (tag : UInt8) (values : List UInt16) : Bytes := tag :: values.flatMap Bytes.ofUInt16

def utf8Key (text : Bytes) : Bytes := utf8 "utf8:" ++ text

/-- Add a Utf8 entry. Its length is written in 16 bits. -/
def addUtf8 (text : Bytes) : Assembly UInt16 :=
  add (utf8Key text) (1 :: Bytes.ofNat 2 text.length ++ text)

def addClass (name : Bytes) : Assembly UInt16 := do
  let n <- addUtf8 name
  add (utf8 "class:" ++ name) (words 7 [n])

def addString (text : Bytes) : Assembly UInt16 := do
  let t <- addUtf8 text
  add (utf8 "string:" ++ text) (words 8 [t])

def addNameAndType (name descriptor : Bytes) : Assembly UInt16 := do
  let n <- addUtf8 name
  let d <- addUtf8 descriptor
  add (utf8 "nat:" ++ name ++ utf8 ":" ++ descriptor) (words 12 [n, d])

def addFieldref (owner name descriptor : Bytes) : Assembly UInt16 := do
  let c <- addClass owner
  let t <- addNameAndType name descriptor
  add (utf8 "field:" ++ owner ++ utf8 "." ++ name ++ utf8 ":" ++ descriptor) (words 9 [c, t])

def addMethodref (owner name descriptor : Bytes) : Assembly UInt16 := do
  let c <- addClass owner
  let t <- addNameAndType name descriptor
  add (utf8 "method:" ++ owner ++ utf8 "." ++ name ++ utf8 ":" ++ descriptor) (words 10 [c, t])

def addRaw (tag : UInt8) (payload : Bytes) : Assembly UInt16 := append (tag :: payload)

def addMember (name descriptor : Bytes) (attributes : List NewAttribute) : Assembly Unit := do
  let n <- addUtf8 name
  let d <- addUtf8 descriptor
  modify fun b =>
    { b with members := b.members ++ [{ name := n, descriptor := d, attributes := attributes }] }

def codeAttribute (maxStack maxLocals : UInt16) (code : Bytes) : Bytes :=
  Bytes.ofUInt16 maxStack ++ Bytes.ofUInt16 maxLocals ++ Bytes.ofNat 4 code.length ++ code
    ++ [0, 0, 0, 0]

def addMethod (name descriptor code : Bytes) : Assembly Unit :=
  addMember name descriptor [{ name := utf8 "Code", data := codeAttribute 2 2 code }]

def addMain (code : Bytes) : Assembly Unit :=
  addMethod (utf8 "main") (utf8 "([Ljava/lang/String;)V") code

/-- The bytes of an attribute, its name looked up among the shared keys. -/
def attributeBytes (b : Builder) (a : NewAttribute) : Bytes :=
  Bytes.ofUInt16 ((b.shared.lookup (utf8Key a.name)).getD 0) ++ Bytes.ofNat 4 a.data.length ++ a.data

def memberBytes (b : Builder) (m : NewMember) : Bytes :=
  Bytes.ofUInt16 0x0009 ++ Bytes.ofUInt16 m.name ++ Bytes.ofUInt16 m.descriptor
    ++ Bytes.ofNat 2 m.attributes.length ++ m.attributes.flatMap b.attributeBytes

def fileBytes (b : Builder) (thisClass superClass : UInt16) : Bytes :=
  [0xCA, 0xFE, 0xBA, 0xBE] ++ Bytes.ofUInt16 b.minor ++ Bytes.ofUInt16 b.major
    ++ Bytes.ofNat 2 (b.pool.length + 1) ++ b.pool.flatten
    ++ Bytes.ofUInt16 0x0021 ++ Bytes.ofUInt16 thisClass ++ Bytes.ofUInt16 superClass
    ++ [0, 0, 0, 0] ++ Bytes.ofNat 2 b.members.length ++ b.members.flatMap b.memberBytes ++ [0, 0]

/-- Write the class file. The class, its super class and the attribute names are added to the pool
first. -/
def write : Assembly Bytes := do
  let b <- get
  let thisClass <- addClass b.className
  let superClass <- addClass b.superName
  for a in b.members.flatMap NewMember.attributes do
    let _ <- addUtf8 a.name
  let b <- get
  return b.fileBytes thisClass superClass

end Builder

end Jvm
