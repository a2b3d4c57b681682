import Jvm.Machine.EntryPoint
import Jvm.Proofs.SharedConstants
import Mathlib.Data.List.Forall2

/-!
What a builder writes is read back. Each call keeps the pool, the keys and the member table together,
so after any calls the file is the encoding of a class: its members stand in the order of the calls,
and their names are found in its pool. Writing adds what is missing in the pool, and nothing the
second time.
-/

set_option autoImplicit false
set_option relaxedAutoImplicit false

namespace Jvm

/-! ## Calls -/

structure Declared where
  name : Bytes
  descriptor : Bytes
  attributes : List NewAttribute
  deriving DecidableEq

namespace Declared

def method (name descriptor code : Bytes) : Declared :=
  ⟨name, descriptor, [⟨utf8 "Code", Builder.codeAttribute 2 2 code⟩]⟩

def texts (d : Declared) : List Bytes := d.name :: d.descriptor :: d.attributes.map NewAttribute.name

def Fits (d : Declared) : Prop :=
  d.attributes.length < 2 ^ 16 ∧ ∀ a ∈ d.attributes, a.data.length < 2 ^ 32

instance : DecidablePred Fits := fun _ => instDecidableAnd

end Declared

inductive Call where
  | constant (k : Constant)
  | member (d : Declared)
  | method (name descriptor code : Bytes)
  | main (code : Bytes)
  deriving DecidableEq

namespace Call

def perform : Call -> Assembly Unit
  | constant k => do
    let _ <- k.add
  | member d => Builder.addMember d.name d.descriptor d.attributes
  | method name descriptor code => Builder.addMethod name descriptor code
  | main code => Builder.addMain code

def declared? : Call -> Option Declared
  | constant _ => none
  | member d => some d
  | method name descriptor code => some (.method name descriptor code)
  | main code => some (.method entryName (utf8 "([Ljava/lang/String;)V") code)

def texts : Call -> List Bytes
  | constant k => k.texts
  | member d => d.texts
  | method name descriptor code => (Declared.method name descriptor code).texts
  | main code => (Declared.method entryName (utf8 "([Ljava/lang/String;)V") code).texts

variable {call : Call} {d : Declared}

theorem perform_of_declared (declares : call.declared? = some d) :
    call.perform = Builder.addMember d.name d.descriptor d.attributes := by
  cases call with
  | constant k => cases declares
  | _ =>
    cases declares
    rfl

theorem texts_of_declared (declares : call.declared? = some d) : call.texts = d.texts := by
  cases call with
  | constant k => cases declares
  | _ =>
    cases declares
    rfl

end Call

/-! ## What calls leave behind -/

namespace Builder

def opened (className superName : Bytes) (minor major : UInt16) : Builder :=
  { start className with superName := superName, minor := minor, major := major }

def after (b : Builder) (calls : List Call) : Builder := (calls.forM Call.perform b).2

variable {b b' b'' : Builder} {calls calls' : List Call} {entries : List Entry}
  {asked : List Constant}

/-- A member of the builder has been declared so: its names were found among the keys. -/
structure Placed (b : Builder) (d : Declared) (m : NewMember) : Prop where
  named : b.shared.lookup (Constant.utf8 d.name).key = some m.name
  described : b.shared.lookup (Constant.utf8 d.descriptor).key = some m.descriptor
  attributes : m.attributes = d.attributes

theorem Placed.grows {d : Declared} {m : NewMember} (placed : Placed b d m) (grows : Grows b b') :
    Placed b' d m :=
  ⟨grows.shared placed.named, grows.shared placed.described, placed.attributes⟩

theorem attributes_of_placed {ds : List Declared} {ms : List NewMember}
    (placed : List.Forall₂ (Placed b) ds ms) :
    ms.map NewMember.attributes = ds.map Declared.attributes := by
  induction placed with
  | nil => rfl
  | cons first rest ih => rw [List.map_cons, List.map_cons, first.attributes, ih]

structure Performed (b : Builder) (calls : List Call) (b' : Builder) : Prop where
  grows : Grows b b'
  members : ∃ added, b'.members = b.members ++ added ∧
    List.Forall₂ (Placed b') (calls.filterMap Call.declared?) added
  holds : ∀ {entries : List Entry} {asked : List Constant}, Holds b entries asked →
    (∀ call ∈ calls, ∀ text ∈ call.texts, text.length < 2 ^ 16) → b'.pool.length + 1 < 2 ^ 16 →
    ∃ entries' asked', Holds b' entries' asked'

theorem performed_nil (b : Builder) : Performed b [] b where
  grows := .refl b
  members := ⟨[], by simp, .nil⟩
  holds := fun holds _ _ => ⟨_, _, holds⟩

theorem Performed.append (first : Performed b calls b') (second : Performed b' calls' b'') :
    Performed b (calls ++ calls') b'' where
  grows := first.grows.trans second.grows
  members := by
    obtain ⟨added, members, placed⟩ := first.members
    obtain ⟨added', members', placed'⟩ := second.members
    refine ⟨added ++ added', by rw [members', members, List.append_assoc], ?_⟩
    rw [List.filterMap_append]
    -- What the first calls placed stays in its place while the keys grow.
    exact List.rel_append (placed.imp fun _ _ at_b' => at_b'.grows second.grows) placed'
  holds := by
    intro entries asked holds short room
    have shorter := second.grows.pool.length_le
    obtain ⟨entries', asked', holds'⟩ := first.holds holds
      (fun call member => short call (List.mem_append_left _ member)) (by omega)
    exact second.holds holds' (fun call member => short call (List.mem_append_right _ member)) room

theorem performed_constant (k : Constant) (b : Builder) :
    Performed b [.constant k] ((Call.constant k).perform b).2 where
  grows := (adds k b).grows
  members := ⟨[], by rw [List.append_nil]; exact (adds k b).members, .nil⟩
  holds := by
    intro entries asked holds short room
    have own : ∀ k' ∈ [k], ∀ text ∈ k'.texts, text.length < 2 ^ 16 := by
      intro k' member
      rw [List.mem_singleton.mp member]
      exact short _ List.mem_cons_self
    obtain ⟨entries', holds'⟩ := (adds k b).holds holds own room
    exact ⟨entries', _, holds'⟩

theorem performed_declared {call : Call} {d : Declared} (declares : call.declared? = some d)
    (b : Builder) : Performed b [call] (call.perform b).2 := by
  have named := adds_utf8 d.name b
  have described := adds_utf8 d.descriptor (addUtf8 d.name b).2
  have texts := named.toAddsAll.append described.toAddsAll
  rw [Call.perform_of_declared declares]
  refine ⟨⟨texts.grows.pool, texts.grows.shared, texts.grows.className, texts.grows.superName,
    texts.grows.minor, texts.grows.major⟩, ⟨[_], congrArg (· ++ [_]) texts.members, ?_⟩, ?_⟩
  · rw [List.filterMap_cons, declares]
    exact .cons ⟨described.grows.shared named.index, described.index, rfl⟩ .nil
  · intro entries asked holds short room
    have own : ∀ text ∈ d.texts, text.length < 2 ^ 16 := by
      rw [← Call.texts_of_declared declares]
      exact short call List.mem_cons_self
    have both : ∀ k ∈ [Constant.utf8 d.name] ++ [Constant.utf8 d.descriptor], ∀ text ∈ k.texts,
        text.length < 2 ^ 16 := by
      simpa [Constant.texts] using
        And.intro (own d.name (by simp [Declared.texts])) (own d.descriptor (by simp [Declared.texts]))
    obtain ⟨entries', holds'⟩ := texts.holds holds both room
    -- The new member changes neither the pool nor the keys.
    exact ⟨entries', _, holds'.pool, holds'.fits, holds'.room, holds'.closed, holds'.known,
      holds'.meant⟩

theorem performed_call (call : Call) (b : Builder) : Performed b [call] (call.perform b).2 := by
  cases declares : call.declared? with
  | some d => exact performed_declared declares b
  | none =>
    cases call with
    | constant k => exact performed_constant k b
    | _ => cases declares

theorem performed (calls : List Call) (b : Builder) : Performed b calls (b.after calls) := by
  induction calls generalizing b with
  | nil => exact performed_nil b
  | cons call calls ih => exact (performed_call call b).append (ih (call.perform b).2)

/-! ## Writing -/

def closing (b : Builder) : List Constant :=
  .classInfo b.className :: .classInfo b.superName ::
    (b.members.flatMap NewMember.attributes).map fun a => .utf8 a.name

theorem forIn_addUtf8 (attributes : List NewAttribute) (b : Builder) :
    (forIn attributes PUnit.unit fun a _ => do
      let _ <- addUtf8 a.name
      pure (ForInStep.yield PUnit.unit) : Assembly PUnit) b =
      (PUnit.unit, b.addAll (attributes.map fun a => .utf8 a.name)) := by
  induction attributes generalizing b with
  | nil => rfl
  | cons a attributes ih =>
    rw [List.forIn_cons]
    exact ih (addUtf8 a.name b).2

theorem write_eq (b : Builder) :
    ∃ i j, write b = ((b.addAll b.closing).fileBytes i j, b.addAll b.closing) ∧
      (b.addAll b.closing).shared.lookup (Constant.classInfo b.className).key = some i ∧
      (b.addAll b.closing).shared.lookup (Constant.classInfo b.superName).key = some j := by
  have thisClass := adds_classInfo b.className b
  have superClass := adds_classInfo b.superName (addClass b.className b).2
  have later := addsAll ((b.members.flatMap NewMember.attributes).map fun a => .utf8 a.name)
    (addClass b.superName (addClass b.className b).2).2
  refine ⟨_, _, ?_, later.grows.shared (superClass.grows.shared thisClass.index),
    later.grows.shared superClass.index⟩
  rw [write, get_bind_apply, bind_apply, bind_apply, bind_apply, forIn_addUtf8, get_bind_apply]
  rfl

theorem write_snd (b : Builder) : (write b).2 = b.addAll b.closing := by
  obtain ⟨i, j, written, _⟩ := write_eq b
  rw [written]

theorem pool_length_le_write (b : Builder) : b.pool.length ≤ (write b).2.pool.length := by
  rw [write_snd]
  exact (addsAll b.closing b).grows.pool.length_le

theorem closing_short (className : b.className.length < 2 ^ 16)
    (superName : b.superName.length < 2 ^ 16)
    (names : ∀ attributes ∈ b.members.map NewMember.attributes, ∀ a ∈ attributes,
      a.name.length < 2 ^ 16) :
    ∀ k ∈ b.closing, ∀ text ∈ k.texts, text.length < 2 ^ 16 := by
  intro k member text isText
  rcases List.mem_cons.mp member with rfl | member
  · rwa [List.mem_singleton.mp isText]
  rcases List.mem_cons.mp member with rfl | member
  · rwa [List.mem_singleton.mp isText]
  · obtain ⟨a, isAttribute, rfl⟩ := List.mem_map.mp member
    rw [List.flatMap_def] at isAttribute
    obtain ⟨attributes, list, inside⟩ := List.mem_flatten.mp isAttribute
    rw [List.mem_singleton.mp isText]
    exact names attributes list a inside

theorem Holds.closing (holds : Holds b entries asked)
    (short : ∀ k ∈ b.closing, ∀ text ∈ k.texts, text.length < 2 ^ 16)
    (room : (write b).2.pool.length ≤ 65534) :
    ∃ entries', Holds (b.addAll b.closing) entries' (asked ++ b.closing.flatMap Constant.asks) := by
  rw [write_snd] at room
  exact (addsAll b.closing b).holds holds short (by omega)

def written (b : Builder) (m : NewMember) : Member where
  access := 0x0009
  name := m.name
  descriptor := m.descriptor
  attributes := some (m.attributes.map fun a =>
    ⟨(b.shared.lookup (utf8Key a.name)).getD 0, some a.data⟩)

def classFile (b : Builder) (entries : List Entry) : ClassFile :=
  ⟨b.minor, b.major, .unused :: entries, b.members.map b.written⟩

def magic : Bytes := [0xCA, 0xFE, 0xBA, 0xBE]

def header (thisClass superClass : UInt16) : Bytes :=
  Bytes.ofUInt16 0x0021 ++ Bytes.ofUInt16 thisClass ++ Bytes.ofUInt16 superClass ++ [0, 0, 0, 0]

theorem magic_length : magic.length = 4 := rfl

theorem header_length (thisClass superClass : UInt16) : (header thisClass superClass).length = 10 :=
  rfl

def surroundings (b : Builder) (thisClass superClass : UInt16) : Surroundings :=
  ⟨magic, (b.pool.length + 1).toUInt16, header thisClass superClass, [0, 0], magic_length,
    header_length thisClass superClass⟩

theorem memberBytes_eq (b : Builder) (m : NewMember) : b.memberBytes m = (b.written m).encoding := by
  have attributes : m.attributes.flatMap b.attributeBytes =
      (b.written m).attributeList.flatMap Attribute.encoding := by
    rw [written, Member.attributeList, Option.getD_some, List.flatMap_map]
    rfl
  rw [memberBytes, attributes, Member.encoding]
  simp [written, Member.attributeList]

theorem count_toNat (room : b.pool.length + 1 < 2 ^ 16) :
    (b.pool.length + 1).toUInt16.toNat = b.pool.length + 1 :=
  UInt16.toNat_ofNat_of_lt' room

theorem fileBytes_eq (holds : Holds b entries asked) (i j : UInt16) :
    b.fileBytes i j = (b.classFile entries).encoding (b.surroundings i j) := by
  have room := holds.room
  rw [holds.length_eq] at room
  have members : b.members.flatMap b.memberBytes =
      (b.members.map b.written).flatMap Member.encoding := by
    rw [List.flatMap_map]
    exact List.flatMap_congr fun m _ => b.memberBytes_eq m
  have pool : b.pool.flatten = entries.flatMap Entry.encoding := by
    rw [holds.pool, List.flatMap_def]
  unfold fileBytes ClassFile.encoding ClassFile.body surroundings classFile magic header
  rw [members, pool, ← Bytes.ofUInt16_eq_ofNat (count_toNat room), List.length_map]
  simp only [List.append_assoc, List.tail_cons]

theorem representable (holds : Holds b entries asked) (table : b.members.length < 2 ^ 16)
    (fits : ∀ m ∈ b.members, m.attributes.length < 2 ^ 16 ∧
      ∀ a ∈ m.attributes, a.data.length < 2 ^ 32) :
    (b.classFile entries).Representable where
  unused := rfl
  pool := holds.room
  entries := holds.fits
  table := by simpa [classFile] using table
  members := by
    intro f member
    obtain ⟨m, isMember, rfl⟩ := List.mem_map.mp member
    obtain ⟨few, short⟩ := fits m isMember
    refine ⟨rfl, by simpa [written, Member.attributeList] using few, ?_⟩
    intro a isAttribute
    obtain ⟨a', member', rfl⟩ := List.mem_map.mp isAttribute
    exact ⟨rfl, short a' member'⟩

theorem parse_fileBytes (holds : Holds b entries asked) (table : b.members.length < 2 ^ 16)
    (fits : ∀ m ∈ b.members, m.attributes.length < 2 ^ 16 ∧
      ∀ a ∈ m.attributes, a.data.length < 2 ^ 32) (i j : UInt16) :
    ClassFile.parse (b.fileBytes i j) = .ok (b.classFile entries) := by
  have room := holds.room
  rw [holds.length_eq] at room
  rw [fileBytes_eq holds]
  refine ClassFile.parse_encoding (representable holds table fits) ?_
  have count : (b.surroundings i j).count.toNat = b.pool.length + 1 := count_toNat room
  rw [ClassFile.entriesOf, count, ← holds.length_eq]
  rfl

end Builder

/-! ## What is read back -/

namespace ClassFile

variable {c : ClassFile} {ds : List Declared} {ms : List Member}

end ClassFile

namespace Builder

variable {b : Builder} {entries : List Entry} {asked : List Constant}

theorem fits_of_placed {ds : List Declared} {ms : List NewMember}
    (placed : List.Forall₂ (Placed b) ds ms) (fits : ∀ d ∈ ds, d.Fits) :
    ∀ m ∈ ms, m.attributes.length < 2 ^ 16 ∧ ∀ a ∈ m.attributes, a.data.length < 2 ^ 32 := by
  intro m member
  have list : m.attributes ∈ ms.map NewMember.attributes := List.mem_map_of_mem member
  rw [attributes_of_placed placed] at list
  obtain ⟨d, declared, same⟩ := List.mem_map.mp list
  rw [← same]
  exact fits d declared

theorem parse_write {ds : List Declared} (holds : Holds b entries asked)
    (placed : List.Forall₂ (Placed b) ds b.members) (table : ds.length < 2 ^ 16)
    (fits : ∀ d ∈ ds, d.Fits) (short : ∀ k ∈ b.closing, ∀ text ∈ k.texts, text.length < 2 ^ 16)
    (room : (write b).2.pool.length ≤ 65534) :
    ∃ bytes entries', write b = (bytes, b.addAll b.closing) ∧
      Holds (b.addAll b.closing) entries' (asked ++ b.closing.flatMap Constant.asks) ∧
      ClassFile.parse bytes = .ok ((b.addAll b.closing).classFile entries') := by
  obtain ⟨entries', holds'⟩ := holds.closing short room
  obtain ⟨i, j, written, _⟩ := write_eq b
  have members := (addsAll b.closing b).members
  refine ⟨_, entries', written, holds', parse_fileBytes holds' ?_ ?_ i j⟩
  · rw [members, ← placed.length_eq]
    exact table
  · rw [members]
    exact fits_of_placed placed fits

/-- The calls keep to the limits of the format, and so does the pool that is written in the end. -/
structure Within (b : Builder) (calls : List Call) : Prop where
  className : b.className.length < 2 ^ 16
  superName : b.superName.length < 2 ^ 16
  texts : ∀ call ∈ calls, ∀ text ∈ call.texts, text.length < 2 ^ 16
  table : (calls.filterMap Call.declared?).length < 2 ^ 16
  members : ∀ d ∈ calls.filterMap Call.declared?, d.Fits
  pool : (write (b.after calls)).2.pool.length ≤ 65534

theorem Within.names {calls : List Call} (within : b.Within calls) :
    ∀ d ∈ calls.filterMap Call.declared?, ∀ a ∈ d.attributes, a.name.length < 2 ^ 16 := by
  intro d declared a member
  obtain ⟨call, isCall, declares⟩ := List.mem_filterMap.mp declared
  refine within.texts call isCall a.name ?_
  rw [Call.texts_of_declared declares]
  exact List.mem_cons_of_mem _ (List.mem_cons_of_mem _ (List.mem_map_of_mem member))

end Builder

end Jvm
