import Jvm.Cause
import Jvm.ClassFile.Basic

/-!
Following references through the constant pool. A reference resolves when every entry on its chain
has the kind that the chain asks for; otherwise the error names the first entry that has not, and the
way to it.
-/

set_option autoImplicit false

namespace Jvm

/-- A step on the way from a reference to the entry that broke the chain. -/
inductive Hop where
  | string (index : UInt16)
  | classInfo (index : UInt16)
  | nameOf (index : UInt16)
  | descriptorOf (index : UInt16)
  | methodref (index : UInt16)
  | fieldref (index : UInt16)
  | owner
  | nameAndType
  deriving DecidableEq

def Hop.text : Hop -> Bytes
  | .string i => utf8 "string #" ++ Bytes.nat i.toNat
  | .classInfo i => utf8 "class #" ++ Bytes.nat i.toNat
  | .nameOf i => utf8 "name of #" ++ Bytes.nat i.toNat
  | .descriptorOf i => utf8 "descriptor of #" ++ Bytes.nat i.toNat
  | .methodref i => utf8 "methodref #" ++ Bytes.nat i.toNat
  | .fieldref i => utf8 "fieldref #" ++ Bytes.nat i.toNat
  | .owner => utf8 "class"
  | .nameAndType => utf8 "name_and_type"

/-- A reference that does not lead to an entry of the wanted kind: the way to the entry, its index,
the kind found there (none outside the pool), the size of the pool and the kind wanted. -/
structure ResolveError where
  path : List Hop
  index : UInt16
  found : Option Tag
  poolSize : Nat
  want : Tag
  deriving DecidableEq

namespace ResolveError

def under (hop : Hop) (e : ResolveError) : ResolveError := { e with path := hop :: e.path }

def message (e : ResolveError) : Bytes :=
  e.path.flatMap (fun hop => hop.text ++ utf8 ": ") ++ utf8 "#" ++ Bytes.nat e.index.toNat
    ++ (match e.found with
      | none => utf8 " out of range (pool size " ++ Bytes.nat e.poolSize ++ utf8 ")"
      | some tag => utf8 " is " ++ tag.name)
    ++ utf8 ", want " ++ e.want.name ++ utf8 ": " ++ Cause.badIndex.text

end ResolveError

structure MemberRef where
  owner : Bytes
  name : Bytes
  descriptor : Bytes
  deriving DecidableEq

/-- The identifier `owner.name:descriptor` of a reference. -/
def MemberRef.id (r : MemberRef) : Bytes := r.owner ++ utf8 "." ++ r.name ++ utf8 ":" ++ r.descriptor

namespace ClassFile

variable (c : ClassFile)

def name? (index : UInt16) : Option Bytes :=
  match c.entry? index with
  | some (.utf8 text) => some text
  | _ => none

def badIndex (index : UInt16) (want : Tag) : ResolveError :=
  { path := [], index := index, found := (c.entry? index).map Entry.tag, poolSize := c.pool.length,
    want := want }

def textAt (hop : Hop) (index : UInt16) : Except ResolveError Bytes :=
  match c.name? index with
  | some text => .ok text
  | none => .error ((c.badIndex index .utf8).under hop)

def resolveString (index : UInt16) : Except ResolveError Bytes :=
  match c.entry? index with
  | some (.string text) => c.textAt (.string index) text
  | _ => .error (c.badIndex index .string)

def resolveClass (index : UInt16) : Except ResolveError Bytes :=
  match c.entry? index with
  | some (.classInfo name) => c.textAt (.classInfo index) name
  | _ => .error (c.badIndex index .classInfo)

def resolveNameAndType (index : UInt16) : Except ResolveError (Bytes × Bytes) :=
  match c.entry? index with
  | some (.nameAndType name descriptor) => do
    let n <- c.textAt (.nameOf index) name
    let d <- c.textAt (.descriptorOf index) descriptor
    return (n, d)
  | _ => .error (c.badIndex index .nameAndType)

/-- The owner, name and descriptor behind a pair of a Class and a NameAndType index. -/
def resolveMember (owner nameAndType : UInt16) : Except ResolveError MemberRef := do
  let o <- (c.resolveClass owner).mapError (.under .owner)
  let (n, d) <- (c.resolveNameAndType nameAndType).mapError (.under .nameAndType)
  return { owner := o, name := n, descriptor := d }

def resolveMethodref (index : UInt16) : Except ResolveError MemberRef :=
  match c.entry? index with
  | some (.methodref owner nameAndType) =>
    (c.resolveMember owner nameAndType).mapError (.under (.methodref index))
  | _ => .error (c.badIndex index .methodref)

def resolveFieldref (index : UInt16) : Except ResolveError MemberRef :=
  match c.entry? index with
  | some (.fieldref owner nameAndType) =>
    (c.resolveMember owner nameAndType).mapError (.under (.fieldref index))
  | _ => .error (c.badIndex index .fieldref)

end ClassFile

end Jvm
