import Jvm.Bytes

/-!
Class files as data: the constant pool, the member table and the versions.
-/

set_option autoImplicit false

namespace Jvm

inductive Tag where
  | unused
  | utf8
  | classInfo
  | string
  | fieldref
  | methodref
  | nameAndType
  deriving DecidableEq

namespace Tag

def code : Tag -> UInt8
  | unused => 0
  | utf8 => 1
  | classInfo => 7
  | string => 8
  | fieldref => 9
  | methodref => 10
  | nameAndType => 12

def ofCode? (c : UInt8) : Option Tag :=
  if c = 0 then some unused
  else if c = 1 then some utf8
  else if c = 7 then some classInfo
  else if c = 8 then some string
  else if c = 9 then some fieldref
  else if c = 10 then some methodref
  else if c = 12 then some nameAndType
  else none

def name : Tag -> Bytes
  | unused => Jvm.utf8 "Unused"
  | utf8 => Jvm.utf8 "Utf8"
  | classInfo => Jvm.utf8 "Class"
  | string => Jvm.utf8 "String"
  | fieldref => Jvm.utf8 "Fieldref"
  | methodref => Jvm.utf8 "Methodref"
  | nameAndType => Jvm.utf8 "NameAndType"

/-- The name of the kind that a byte marks; a byte that marks none is shown as a number. -/
def nameOfCode (c : UInt8) : Bytes :=
  match ofCode? c with
  | some t => t.name
  | none => Jvm.utf8 "Tag(" ++ Bytes.nat c.toNat ++ Jvm.utf8 ")"

theorem ofCode?_code (t : Tag) : ofCode? t.code = some t := by cases t <;> rfl

end Tag

inductive Entry where
  | unused
  | utf8 (text : Bytes)
  | classInfo (name : UInt16)
  | string (text : UInt16)
  | fieldref (owner nameAndType : UInt16)
  | methodref (owner nameAndType : UInt16)
  | nameAndType (name descriptor : UInt16)
  deriving DecidableEq

def Entry.tag : Entry -> Tag
  | .unused => .unused
  | .utf8 _ => .utf8
  | .classInfo _ => .classInfo
  | .string _ => .string
  | .fieldref _ _ => .fieldref
  | .methodref _ _ => .methodref
  | .nameAndType _ _ => .nameAndType

/-- A raw attribute. Its data may be absent, which is told apart from empty data. -/
structure Attribute where
  name : UInt16
  data : Option Bytes
  deriving DecidableEq

namespace Attribute

def bytes (a : Attribute) : Bytes := a.data.getD []

end Attribute

/-- An entry of the member table. Its attribute list may be absent, which is told apart from an
empty list. -/
structure Member where
  access : UInt16
  name : UInt16
  descriptor : UInt16
  attributes : Option (List Attribute)
  deriving DecidableEq

namespace Member

def attributeList (m : Member) : List Attribute := m.attributes.getD []

end Member

/-- A class file: versions, constant pool with slot 0 included, and member table. -/
structure ClassFile where
  minor : UInt16
  major : UInt16
  pool : List Entry
  members : List Member
  deriving DecidableEq

namespace ClassFile

def empty : ClassFile := ⟨0, 0, [], []⟩

def entry? (c : ClassFile) (index : UInt16) : Option Entry := c.pool[index.toNat]?

end ClassFile

end Jvm
