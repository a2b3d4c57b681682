import Jvm.Assembly.Builder
import Jvm.Proofs.Grammar
import Jvm.Proofs.Resolution
import Mathlib.Data.List.Infix
import Mathlib.Tactic.Common

/-!
The constant pool of a builder. A constant is asked for by its parts and found again by its key, which
is its kind and the joined text of its parts. The pool and the keys only grow, so an index stays what
it is once it was given out. An entry refers to the entries that were found for its parts, hence what
an index resolves to has the key that was asked for.
-/

set_option autoImplicit false
set_option relaxedAutoImplicit false

namespace Jvm

/-! ## Constants -/

inductive RefKind where
  | field
  | method
  deriving DecidableEq

namespace RefKind

def tag : RefKind -> Tag
  | field => .fieldref
  | method => .methodref

def entry : RefKind -> UInt16 -> UInt16 -> Entry
  | field => .fieldref
  | method => .methodref

end RefKind

inductive Constant where
  | utf8 (text : Bytes)
  | classInfo (name : Bytes)
  | string (text : Bytes)
  | nameAndType (name descriptor : Bytes)
  | ref (kind : RefKind) (r : MemberRef)
  deriving DecidableEq

namespace Constant

def tag : Constant -> Tag
  | utf8 _ => .utf8
  | classInfo _ => .classInfo
  | string _ => .string
  | nameAndType _ _ => .nameAndType
  | ref kind _ => kind.tag

def text : Constant -> Bytes
  | utf8 text => text
  | classInfo name => name
  | string text => text
  | nameAndType name descriptor => name ++ Jvm.utf8 ":" ++ descriptor
  | ref _ r => r.id

def texts : Constant -> List Bytes
  | utf8 text => [text]
  | classInfo name => [name]
  | string text => [text]
  | nameAndType name descriptor => [name, descriptor]
  | ref _ r => [r.owner, r.name, r.descriptor]

def label : Tag -> Bytes
  | .unused => []
  | .utf8 => Jvm.utf8 "utf8:"
  | .classInfo => Jvm.utf8 "class:"
  | .string => Jvm.utf8 "string:"
  | .nameAndType => Jvm.utf8 "nat:"
  | .fieldref => Jvm.utf8 "field:"
  | .methodref => Jvm.utf8 "method:"

def key (k : Constant) : Bytes := label k.tag ++ k.text

def parts : Constant -> List Constant
  | utf8 _ => []
  | classInfo name => [utf8 name]
  | string text => [utf8 text]
  | nameAndType name descriptor => [utf8 name, utf8 descriptor]
  | ref _ r => [classInfo r.owner, nameAndType r.name r.descriptor]

/-- The constants that are asked for with a constant: its parts, their parts, and itself. -/
def asks (k : Constant) : List Constant := k.parts.flatMap (fun p => p.parts ++ [p]) ++ [k]

def add : Constant -> Assembly UInt16
  | utf8 text => Builder.addUtf8 text
  | classInfo name => Builder.addClass name
  | string text => Builder.addString text
  | nameAndType name descriptor => Builder.addNameAndType name descriptor
  | ref .field r => Builder.addFieldref r.owner r.name r.descriptor
  | ref .method r => Builder.addMethodref r.owner r.name r.descriptor

variable {k k' : Constant}

theorem tag_eq_of_key_eq (same : k.key = k'.key) : k.tag = k'.tag := by
  have letter (k : Constant) : k.key.head? = (label k.tag).head? := by
    rcases k with text | name | text | ⟨name, descriptor⟩ | ⟨_ | _, r⟩ <;> rfl
  have letters : (label k.tag).head? = (label k'.tag).head? := by
    rw [← letter, ← letter, same]
  have distinct : ∀ t t' : Tag, (label t).head? = (label t').head? → t = t' := by
    intro t t'
    cases t <;> cases t' <;> decide
  exact distinct _ _ letters

theorem key_eq_iff : k.key = k'.key ↔ k.tag = k'.tag ∧ k.text = k'.text := by
  constructor
  · intro same
    have kind := tag_eq_of_key_eq same
    rw [key, key, kind] at same
    exact ⟨kind, List.append_cancel_left same⟩
  · rintro ⟨kind, text⟩
    rw [key, key, kind, text]

theorem eq_utf8_of_key_eq {text : Bytes} (same : k.key = (utf8 text).key) : k = utf8 text := by
  obtain ⟨kind, joined⟩ := key_eq_iff.mp same
  rcases k with text' | name | text' | ⟨name, descriptor⟩ | ⟨_ | _, r⟩ <;> cases kind
  exact congrArg utf8 joined

theorem eq_classInfo_of_key_eq {name : Bytes} (same : k.key = (classInfo name).key) :
    k = classInfo name := by
  obtain ⟨kind, joined⟩ := key_eq_iff.mp same
  rcases k with text' | name' | text' | ⟨name', descriptor⟩ | ⟨_ | _, r⟩ <;> cases kind
  exact congrArg classInfo joined

theorem eq_nameAndType_of_key_eq {name descriptor : Bytes}
    (same : k.key = (nameAndType name descriptor).key) :
    ∃ name' descriptor', k = nameAndType name' descriptor' := by
  obtain ⟨kind, _⟩ := key_eq_iff.mp same
  rcases k with text' | name' | text' | ⟨name', descriptor'⟩ | ⟨_ | _, r⟩ <;> cases kind
  exact ⟨name', descriptor', rfl⟩

theorem eq_ref_of_key_eq {kind : RefKind} {r : MemberRef} (same : k.key = (ref kind r).key) :
    ∃ r', k = ref kind r' ∧ r'.id = r.id := by
  obtain ⟨sameTag, joined⟩ := key_eq_iff.mp same
  cases kind <;> rcases k with text' | name' | text' | ⟨name', descriptor'⟩ | ⟨_ | _, r'⟩ <;>
    cases sameTag
  · exact ⟨r', rfl, joined⟩
  · exact ⟨r', rfl, joined⟩

theorem mem_asks (k : Constant) : k ∈ k.asks := List.mem_append_right _ List.mem_cons_self

end Constant

/-! ## Builders grow -/

namespace Builder

/-- A later state of a builder: all entries and keys are where they were. -/
structure Grows (b b' : Builder) : Prop where
  pool : b.pool <+: b'.pool
  shared : ∀ {key : Bytes} {i : UInt16},
    b.shared.lookup key = some i → b'.shared.lookup key = some i
  className : b'.className = b.className
  superName : b'.superName = b.superName
  minor : b'.minor = b.minor
  major : b'.major = b.major

theorem Grows.refl (b : Builder) : Grows b b := ⟨List.prefix_rfl, id, rfl, rfl, rfl, rfl⟩

theorem Grows.trans {b b' b'' : Builder} (first : Grows b b') (second : Grows b' b'') :
    Grows b b'' where
  pool := first.pool.trans second.pool
  shared := fun found => second.shared (first.shared found)
  className := second.className.trans first.className
  superName := second.superName.trans first.superName
  minor := second.minor.trans first.minor
  major := second.major.trans first.major

variable {b b' : Builder} {key entry : Bytes} {i : UInt16}

theorem add_of_some (known : b.shared.lookup key = some i) : add key entry b = (i, b) := by
  simp only [add, bind, StateT.bind, get, getThe, MonadStateOf.get, StateT.get, pure, known]
  rfl

theorem add_of_none (new : b.shared.lookup key = none) :
    add key entry b = ((b.pool.length + 1).toUInt16,
      { b with
        pool := b.pool ++ [entry]
        shared := (key, (b.pool.length + 1).toUInt16) :: b.shared }) := by
  simp only [add, bind, StateT.bind, get, getThe, MonadStateOf.get, StateT.get, pure, new]
  rfl

theorem lookup_cons_of_new {shared : List (Bytes × UInt16)} {key' : Bytes} {j : UInt16}
    (new : shared.lookup key = none) (known : shared.lookup key' = some j) :
    ((key, i) :: shared).lookup key' = some j := by
  have other : key' ≠ key := by
    rintro rfl
    rw [new] at known
    cases known
  rw [List.lookup_cons, beq_false_of_ne other]
  exact known

theorem grows_add (b : Builder) (key entry : Bytes) : Grows b (add key entry b).2 := by
  cases known : b.shared.lookup key with
  | some i =>
    rw [add_of_some known]
    exact .refl b
  | none =>
    rw [add_of_none known]
    exact ⟨List.prefix_append _ _, lookup_cons_of_new known, rfl, rfl, rfl, rfl⟩

theorem members_add (b : Builder) (key entry : Bytes) :
    (add key entry b).2.members = b.members := by
  cases known : b.shared.lookup key with
  | some i => rw [add_of_some known]
  | none => rw [add_of_none known]

theorem lookup_add (b : Builder) (key entry : Bytes) :
    (add key entry b).2.shared.lookup key = some (add key entry b).1 := by
  cases known : b.shared.lookup key with
  | some i => rw [add_of_some known, known]
  | none => rw [add_of_none known, List.lookup_cons, beq_self_eq_true]

/-! ## What the keys lead to -/

/-- The entry that is made for a constant, from the indices of its parts. -/
inductive Made (shared : List (Bytes × UInt16)) : Constant -> Entry -> Prop
  | utf8 (text : Bytes) : Made shared (.utf8 text) (.utf8 text)
  | classInfo {name : Bytes} {i : UInt16}
    (named : shared.lookup (Constant.utf8 name).key = some i) :
    Made shared (.classInfo name) (.classInfo i)
  | string {text : Bytes} {i : UInt16}
    (content : shared.lookup (Constant.utf8 text).key = some i) :
    Made shared (.string text) (.string i)
  | nameAndType {name descriptor : Bytes} {i j : UInt16}
    (named : shared.lookup (Constant.utf8 name).key = some i)
    (described : shared.lookup (Constant.utf8 descriptor).key = some j) :
    Made shared (.nameAndType name descriptor) (.nameAndType i j)
  | ref (kind : RefKind) {r : MemberRef} {i j : UInt16}
    (owned : shared.lookup (Constant.classInfo r.owner).key = some i)
    (pair : shared.lookup (Constant.nameAndType r.name r.descriptor).key = some j) :
    Made shared (.ref kind r) (kind.entry i j)

theorem Made.grows {k : Constant} {e : Entry} (made : Made b.shared k e) (grows : Grows b b') :
    Made b'.shared k e := by
  cases made with
  | utf8 text => exact .utf8 text
  | classInfo named => exact .classInfo (grows.shared named)
  | string content => exact .string (grows.shared content)
  | nameAndType named described => exact .nameAndType (grows.shared named) (grows.shared described)
  | ref kind owned pair => exact .ref kind (grows.shared owned) (grows.shared pair)

theorem Made.fits {shared : List (Bytes × UInt16)} {k : Constant} {e : Entry}
    (made : Made shared k e) (short : ∀ text ∈ k.texts, text.length < 2 ^ 16) : e.Fits := by
  cases made with
  | utf8 text => exact short text List.mem_cons_self
  | ref kind owned pair => cases kind <;> trivial
  | _ => trivial

/-- The builder holds the entries of its pool, made for constants that were asked for. The pool has
room in a file, what is asked for is asked for with its parts and has its key, and a key leads to the
entry of a constant that has this key. -/
structure Holds (b : Builder) (entries : List Entry) (asked : List Constant) : Prop where
  pool : b.pool = entries.map Entry.encoding
  fits : ∀ e ∈ entries, e.Fits
  room : entries.length + 1 < 2 ^ 16
  closed : ∀ k ∈ asked, ∀ part ∈ k.parts, part ∈ asked
  known : ∀ k ∈ asked, ∃ i, b.shared.lookup k.key = some i
  meant : ∀ {key : Bytes} {i : UInt16}, b.shared.lookup key = some i →
    ∃ k ∈ asked, k.key = key ∧
      ∃ e, (Entry.unused :: entries)[i.toNat]? = some e ∧ Made b.shared k e

theorem holds_nil (empty : b.pool = []) (new : b.shared = []) : Holds b [] [] where
  pool := empty
  fits := by simp
  room := by simp
  closed := by simp
  known := by simp
  meant := by simp [new]

variable {entries : List Entry} {asked : List Constant} {k : Constant} {e : Entry}

theorem Holds.length_eq (holds : Holds b entries asked) : entries.length = b.pool.length := by
  rw [holds.pool, List.length_map]

private theorem closed_concat (closed : ∀ k ∈ asked, ∀ part ∈ k.parts, part ∈ asked)
    (parts : ∀ part ∈ k.parts, part ∈ asked) :
    ∀ k' ∈ asked ++ [k], ∀ part ∈ k'.parts, part ∈ asked ++ [k] := by
  intro k' member part isPart
  apply List.mem_append_left
  rcases List.mem_append.mp member with earlier | last
  · exact closed k' earlier part isPart
  · rw [List.mem_singleton.mp last] at isPart
    exact parts part isPart

theorem Holds.add_known (holds : Holds b entries asked)
    (parts : ∀ part ∈ k.parts, part ∈ asked) (known : b.shared.lookup k.key = some i) :
    Holds b entries (asked ++ [k]) where
  pool := holds.pool
  fits := holds.fits
  room := holds.room
  closed := closed_concat holds.closed parts
  known := by
    intro k' member
    rcases List.mem_append.mp member with earlier | last
    · exact holds.known k' earlier
    · obtain rfl := List.mem_singleton.mp last
      exact ⟨i, known⟩
  meant := by
    intro key i found
    obtain ⟨k', member, rest⟩ := holds.meant found
    exact ⟨k', List.mem_append_left _ member, rest⟩

theorem Holds.add_new (holds : Holds b entries asked) (made : Made b.shared k e) (fits : e.Fits)
    (parts : ∀ part ∈ k.parts, part ∈ asked) (new : b.shared.lookup k.key = none)
    (room : b.pool.length + 2 < 2 ^ 16) :
    Holds (add k.key e.encoding b).2 (entries ++ [e]) (asked ++ [k]) := by
  have grows := grows_add b k.key e.encoding
  have length := holds.length_eq
  -- Within the limits the index is the number of entries.
  have index : (b.pool.length + 1).toUInt16.toNat = entries.length + 1 := by
    have small : b.pool.length + 1 < UInt16.size := by
      change _ < 65536
      omega
    rw [length]
    exact UInt16.toNat_ofNat_of_lt' small
  have found := lookup_add b k.key e.encoding
  rw [add_of_none new] at grows found ⊢
  refine ⟨?_, ?_, ?_, closed_concat holds.closed parts, ?_, ?_⟩
  · simp [holds.pool]
  · intro e' member
    rcases List.mem_append.mp member with earlier | last
    · exact holds.fits e' earlier
    · rwa [List.mem_singleton.mp last]
  · rw [List.length_append, List.length_singleton]
    omega
  · intro k' member
    rcases List.mem_append.mp member with earlier | last
    · obtain ⟨i, known⟩ := holds.known k' earlier
      exact ⟨i, grows.shared known⟩
    · rw [List.mem_singleton.mp last]
      exact ⟨_, found⟩
  · intro key i known
    rw [List.lookup_cons] at known
    by_cases same : key = k.key
    · rw [same, beq_self_eq_true] at known
      cases known
      refine ⟨k, by simp, same.symm, e, ?_, made.grows grows⟩
      rw [index, List.getElem?_cons_succ, List.getElem?_append_right (Nat.le_refl _)]
      simp
    · rw [beq_false_of_ne same] at known
      obtain ⟨k', member, named, e', there, made'⟩ := holds.meant known
      refine ⟨k', List.mem_append_left _ member, named, e', ?_, made'.grows grows⟩
      obtain ⟨inside, _⟩ := List.getElem?_eq_some_iff.mp there
      rw [← List.cons_append, List.getElem?_append_left inside]
      exact there

theorem Holds.add (holds : Holds b entries asked) (made : Made b.shared k e) (fits : e.Fits)
    (parts : ∀ part ∈ k.parts, part ∈ asked)
    (room : (add k.key e.encoding b).2.pool.length + 1 < 2 ^ 16) :
    ∃ entries', Holds (Builder.add k.key e.encoding b).2 entries' (asked ++ [k]) := by
  cases known : b.shared.lookup k.key with
  | some i =>
    rw [add_of_some known]
    exact ⟨entries, holds.add_known parts known⟩
  | none =>
    refine ⟨entries ++ [e], holds.add_new made fits parts known ?_⟩
    rw [add_of_none known, List.length_append, List.length_singleton] at room
    exact room

/-! ## Adding constants -/

structure AddsAll (b : Builder) (ks : List Constant) (b' : Builder) : Prop where
  grows : Grows b b'
  members : b'.members = b.members
  found : ∀ k ∈ ks, ∃ i, b'.shared.lookup k.key = some i
  holds : ∀ {entries : List Entry} {asked : List Constant}, Holds b entries asked →
    (∀ k ∈ ks, ∀ text ∈ k.texts, text.length < 2 ^ 16) → b'.pool.length + 1 < 2 ^ 16 →
    ∃ entries', Holds b' entries' (asked ++ ks.flatMap Constant.asks)

structure Adds (b : Builder) (k : Constant) (out : UInt16 × Builder) : Prop
    extends AddsAll b [k] out.2 where
  index : out.2.shared.lookup k.key = some out.1

theorem addsAll_nil (b : Builder) : AddsAll b [] b where
  grows := .refl b
  members := rfl
  found := by simp
  holds := by
    intro entries asked holds _ _
    exact ⟨entries, by simpa using holds⟩

theorem AddsAll.append {ks ks' : List Constant} {b'' : Builder} (first : AddsAll b ks b')
    (second : AddsAll b' ks' b'') : AddsAll b (ks ++ ks') b'' where
  grows := first.grows.trans second.grows
  members := second.members.trans first.members
  found := by
    intro k member
    rcases List.mem_append.mp member with earlier | later
    · obtain ⟨i, found⟩ := first.found k earlier
      exact ⟨i, second.grows.shared found⟩
    · exact second.found k later
  holds := by
    intro entries asked holds short room
    have shorter := second.grows.pool.length_le
    obtain ⟨entries', holds'⟩ := first.holds holds
      (fun k member => short k (List.mem_append_left _ member)) (by omega)
    obtain ⟨entries'', holds''⟩ := second.holds holds'
      (fun k member => short k (List.mem_append_right _ member)) room
    refine ⟨entries'', ?_⟩
    rwa [List.flatMap_append, ← List.append_assoc]

theorem asks_eq (k : Constant) : k.asks = k.parts.flatMap Constant.asks ++ [k] := by
  cases k <;> rfl

theorem adds_of_parts (parts : AddsAll b k.parts b') (made : Made b'.shared k e)
    (covered : ∀ part ∈ k.parts, ∀ text ∈ part.texts, text ∈ k.texts) :
    Adds b k (add k.key e.encoding b') where
  grows := parts.grows.trans (grows_add b' k.key e.encoding)
  members := (members_add b' k.key e.encoding).trans parts.members
  found := by
    intro k' member
    rw [List.mem_singleton.mp member]
    exact ⟨_, lookup_add b' k.key e.encoding⟩
  index := lookup_add b' k.key e.encoding
  holds := by
    intro entries asked holds short room
    have shorter := (grows_add b' k.key e.encoding).pool.length_le
    have own : ∀ text ∈ k.texts, text.length < 2 ^ 16 := short k List.mem_cons_self
    obtain ⟨entries', holds'⟩ := parts.holds holds
      (fun part isPart text member => own text (covered part isPart text member)) (by omega)
    have asked' : ∀ part ∈ k.parts, part ∈ asked ++ k.parts.flatMap Constant.asks := by
      intro part isPart
      exact List.mem_append_right _ (List.mem_flatMap.mpr ⟨part, isPart, part.mem_asks⟩)
    obtain ⟨entries'', holds''⟩ := holds'.add made (made.fits own) asked' room
    refine ⟨entries'', ?_⟩
    rwa [List.flatMap_singleton, asks_eq, ← List.append_assoc]

theorem bind_apply {α β : Type} (x : Assembly α) (f : α -> Assembly β) (b : Builder) :
    (x >>= f) b = f (x b).1 (x b).2 := rfl

theorem get_bind_apply {α : Type} (f : Builder -> Assembly α) (b : Builder) :
    ((get : Assembly Builder) >>= f) b = f b b := rfl

theorem adds_utf8 (text : Bytes) (b : Builder) : Adds b (.utf8 text) (addUtf8 text b) :=
  adds_of_parts (e := .utf8 text) (addsAll_nil b) (.utf8 text) (by simp [Constant.parts])

theorem adds_classInfo (name : Bytes) (b : Builder) : Adds b (.classInfo name) (addClass name b) := by
  have named := adds_utf8 name b
  have encoding (i : UInt16) : words 7 [i] = (Entry.classInfo i).encoding := by
    simp [words, Entry.encoding]
  rw [addClass, bind_apply, encoding]
  exact adds_of_parts named.toAddsAll (.classInfo named.index)
    (by simp [Constant.parts, Constant.texts])

theorem adds_string (text : Bytes) (b : Builder) : Adds b (.string text) (addString text b) := by
  have content := adds_utf8 text b
  have encoding (i : UInt16) : words 8 [i] = (Entry.string i).encoding := by
    simp [words, Entry.encoding]
  rw [addString, bind_apply, encoding]
  exact adds_of_parts content.toAddsAll (.string content.index)
    (by simp [Constant.parts, Constant.texts])

theorem adds_nameAndType (name descriptor : Bytes) (b : Builder) :
    Adds b (.nameAndType name descriptor) (addNameAndType name descriptor b) := by
  have named := adds_utf8 name b
  have described := adds_utf8 descriptor (addUtf8 name b).2
  have key : utf8 "nat:" ++ name ++ utf8 ":" ++ descriptor =
      (Constant.nameAndType name descriptor).key := by
    simp [Constant.key, Constant.text, Constant.label, Constant.tag]
  have encoding (i j : UInt16) : words 12 [i, j] = (Entry.nameAndType i j).encoding := by
    simp [words, Entry.encoding]
  rw [addNameAndType, bind_apply, bind_apply, key, encoding]
  exact adds_of_parts (named.toAddsAll.append described.toAddsAll)
    (.nameAndType (described.grows.shared named.index) described.index)
    (by simp [Constant.parts, Constant.texts])

theorem adds_ref (kind : RefKind) (r : MemberRef) (b : Builder) :
    Adds b (.ref kind r) ((Constant.ref kind r).add b) := by
  have owned := adds_classInfo r.owner b
  have pair := adds_nameAndType r.name r.descriptor (addClass r.owner b).2
  have key : Constant.label kind.tag ++ r.owner ++ utf8 "." ++ r.name ++ utf8 ":" ++ r.descriptor =
      (Constant.ref kind r).key := by
    simp [Constant.key, Constant.text, Constant.tag, MemberRef.id]
  have encoding (i j : UInt16) : words kind.tag.code [i, j] = (kind.entry i j).encoding := by
    cases kind <;> simp [words, RefKind.entry, RefKind.tag, Tag.code, Entry.encoding]
  have adds := adds_of_parts (owned.toAddsAll.append pair.toAddsAll)
    (.ref kind (pair.grows.shared owned.index) pair.index)
    (by simp [Constant.parts, Constant.texts])
  rw [← key, ← encoding] at adds
  cases kind with
  | field =>
    rw [Constant.add, addFieldref, bind_apply, bind_apply]
    exact adds
  | method =>
    rw [Constant.add, addMethodref, bind_apply, bind_apply]
    exact adds

theorem adds (k : Constant) (b : Builder) : Adds b k (k.add b) := by
  cases k with
  | utf8 text => exact adds_utf8 text b
  | classInfo name => exact adds_classInfo name b
  | string text => exact adds_string text b
  | nameAndType name descriptor => exact adds_nameAndType name descriptor b
  | ref kind r => exact adds_ref kind r b

def addAll (b : Builder) (ks : List Constant) : Builder :=
  ks.foldl (fun b k => (k.add b).2) b

theorem addsAll (ks : List Constant) (b : Builder) : AddsAll b ks (b.addAll ks) := by
  induction ks generalizing b with
  | nil => exact addsAll_nil b
  | cons k ks ih => exact (adds k b).toAddsAll.append (ih (k.add b).2)

end Builder

/-! ## What the keys lead to in a file -/

namespace Builder.Holds

variable {b : Builder} {entries : List Entry} {asked : List Constant} {c : ClassFile} {i : UInt16}

theorem entry?_of_lookup {key : Bytes} (holds : Holds b entries asked)
    (pool : c.pool = .unused :: entries) (found : b.shared.lookup key = some i) :
    ∃ k ∈ asked, k.key = key ∧ ∃ e, c.entry? i = some e ∧ Made b.shared k e := by
  unfold ClassFile.entry?
  rw [pool]
  exact holds.meant found

theorem entry?_utf8 {text : Bytes} (holds : Holds b entries asked)
    (pool : c.pool = .unused :: entries)
    (found : b.shared.lookup (Constant.utf8 text).key = some i) :
    c.entry? i = some (.utf8 text) := by
  obtain ⟨k, _, named, e, there, made⟩ := holds.entry?_of_lookup pool found
  obtain rfl := Constant.eq_utf8_of_key_eq named
  cases made
  exact there

end Builder.Holds

end Jvm
