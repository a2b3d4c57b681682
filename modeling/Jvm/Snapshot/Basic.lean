import Jvm.Cause
import Jvm.ClassFile.Basic

/-!
Snapshots: class files with their pool entries flattened to a tag byte, a text and two indices.
Flattening and rebuilding are inverse to each other, up to the parts that a tag does not use.
-/

set_option autoImplicit false

namespace Jvm

structure FlatEntry where
  tag : UInt8
  text : Bytes
  first : UInt16
  second : UInt16
  deriving DecidableEq

/-- Flatten an entry; the parts that its kind does not use are empty or zero. -/
def Entry.flatten (e : Entry) : FlatEntry :=
  match e with
  | .unused => ⟨e.tag.code, [], 0, 0⟩
  | .utf8 text => ⟨e.tag.code, text, 0, 0⟩
  | .classInfo name => ⟨e.tag.code, [], name, 0⟩
  | .string text => ⟨e.tag.code, [], text, 0⟩
  | .fieldref owner member => ⟨e.tag.code, [], owner, member⟩
  | .methodref owner member => ⟨e.tag.code, [], owner, member⟩
  | .nameAndType name descriptor => ⟨e.tag.code, [], name, descriptor⟩

def FlatEntry.rebuild? (e : FlatEntry) : Option Entry :=
  (Tag.ofCode? e.tag).map fun
    | .unused => .unused
    | .utf8 => .utf8 e.text
    | .classInfo => .classInfo e.first
    | .string => .string e.first
    | .fieldref => .fieldref e.first e.second
    | .methodref => .methodref e.first e.second
    | .nameAndType => .nameAndType e.first e.second

theorem Entry.rebuild?_flatten (e : Entry) : e.flatten.rebuild? = some e := by cases e <;> rfl

structure Snapshot where
  minor : UInt16
  major : UInt16
  pool : List FlatEntry
  members : List Member
  deriving DecidableEq

def ClassFile.snapshot (c : ClassFile) : Snapshot :=
  { minor := c.minor, major := c.major, pool := c.pool.map Entry.flatten, members := c.members }

structure UnknownEntry where
  slot : Nat
  tag : UInt8
  deriving DecidableEq

def UnknownEntry.message (e : UnknownEntry) : Bytes :=
  utf8 "snapshot entry " ++ Bytes.nat e.slot ++ utf8 ": tag " ++ Bytes.nat e.tag.toNat ++ utf8 ": "
    ++ Cause.unknownTag.text

namespace Snapshot

def rebuildPool (slot : Nat) : List FlatEntry -> Except UnknownEntry (List Entry)
  | [] => .ok []
  | e :: rest =>
    match e.rebuild? with
    | none => .error ⟨slot, e.tag⟩
    | some entry =>
      match rebuildPool (slot + 1) rest with
      | .ok entries => .ok (entry :: entries)
      | .error e => .error e

def classFile (s : Snapshot) : Except UnknownEntry ClassFile :=
  match rebuildPool 0 s.pool with
  | .ok pool => .ok { minor := s.minor, major := s.major, pool := pool, members := s.members }
  | .error e => .error e

end Snapshot

end Jvm
