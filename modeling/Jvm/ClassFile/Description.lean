import Jvm.ClassFile.Resolution

/-!
Class files as text: the versions, the constant pool with what its references resolve to, and the
members with their attributes.
-/

set_option autoImplicit false

namespace Jvm.ClassFile

def indexText (index : UInt16) : Bytes := utf8 "#" ++ Bytes.nat index.toNat

def commented (operands : Bytes) : Option Bytes -> Bytes
  | some text => operands ++ utf8 " // " ++ text
  | none => operands

/-- The operands of the entry in a slot. References are resolved from the slot's 16-bit index. -/
def operandText (c : ClassFile) (slot : Nat) : Entry -> Bytes
  | .unused => []
  | .utf8 text => text
  | .classInfo name => commented (indexText name) (c.name? name)
  | .string text => commented (indexText text) (c.name? text)
  | .fieldref owner nameAndType =>
    commented (indexText owner ++ utf8 "." ++ indexText nameAndType)
      ((c.resolveFieldref slot.toUInt16).toOption.map MemberRef.id)
  | .methodref owner nameAndType =>
    commented (indexText owner ++ utf8 "." ++ indexText nameAndType)
      ((c.resolveMethodref slot.toUInt16).toOption.map MemberRef.id)
  | .nameAndType name descriptor =>
    commented (indexText name ++ utf8 ":" ++ indexText descriptor)
      ((c.resolveNameAndType slot.toUInt16).toOption.map fun r => r.1 ++ utf8 ":" ++ r.2)

def slotLine (c : ClassFile) (slot : Nat) (e : Entry) : Bytes :=
  utf8 "  #" ++ Bytes.nat slot ++ utf8 " = " ++ Bytes.padRight 12 e.tag.name ++ utf8 " "
    ++ c.operandText slot e

/-- The line of an attribute; a name that does not resolve is shown as its index. -/
def attributeLine (c : ClassFile) (a : Attribute) : Bytes :=
  utf8 "    " ++ (c.name? a.name).getD (indexText a.name) ++ utf8 " (" ++ Bytes.nat a.bytes.length
    ++ utf8 " bytes)"

def memberLines (c : ClassFile) (m : Member) : List Bytes :=
  (utf8 "  " ++ (c.name? m.name).getD [] ++ utf8 " " ++ (c.name? m.descriptor).getD []
      ++ utf8 " flags=0x" ++ Bytes.hex 4 m.access.toNat)
    :: m.attributeList.map c.attributeLine

/-- A class file as lines of text. Slot 0 of the pool is left out. -/
def describe (c : ClassFile) : List Bytes :=
  [utf8 "version " ++ Bytes.nat c.major.toNat ++ utf8 "." ++ Bytes.nat c.minor.toNat,
    utf8 "constant pool:"]
    ++ (c.pool.tail.zipIdx 1).map (fun p => c.slotLine p.2 p.1)
    ++ [utf8 "members:"]
    ++ c.members.flatMap c.memberLines

end Jvm.ClassFile
