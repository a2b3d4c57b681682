import Jvm.ClassFile.Description
import Jvm.Proofs.Chains
import Mathlib.Algebra.GroupWithZero.Nat
import Mathlib.Tactic.Common

/-!
The lines that describe a class. There is a line for each slot of the pool behind the first, for each
member and for each attribute, in the order of the class. The line of a reference has a comment exactly
if the reference resolves. A Class and a String resolve from their own index. The other references
resolve from the number of their slot, of which only 16 bits are kept, so in a pool with more slots than
an index reaches, a line may comment on another entry than its own.
-/

set_option autoImplicit false
set_option relaxedAutoImplicit false

namespace Jvm

/-- Whether an entry is resolved from the number of its slot. -/
def Entry.BySlot : Entry -> Prop
  | .fieldref _ _ | .methodref _ _ | .nameAndType _ _ => True
  | _ => False

namespace ClassFile

/-- What an entry denotes, by the entries that its own indices lead to. -/
def Denotes (c : ClassFile) : Entry -> Bytes -> Prop
  | .classInfo i, text | .string i, text => c.entry? i = some (.utf8 text)
  | .nameAndType i j, text => ∃ name descriptor, c.entry? i = some (.utf8 name) ∧
      c.entry? j = some (.utf8 descriptor) ∧ text = name ++ utf8 ":" ++ descriptor
  | .fieldref i j, text | .methodref i j, text => ∃ owner name descriptor,
      TextChain .classInfo c i owner ∧ PairChain c j (name, descriptor) ∧
      text = owner ++ utf8 "." ++ name ++ utf8 ":" ++ descriptor
  | .unused, _ | .utf8 _, _ => False

def operandsOf : Entry -> Bytes
  | .unused => []
  | .utf8 text => text
  | .classInfo i | .string i => indexText i
  | .fieldref i j | .methodref i j => indexText i ++ utf8 "." ++ indexText j
  | .nameAndType i j => indexText i ++ utf8 ":" ++ indexText j

def slotHead (slot : Nat) (e : Entry) : Bytes :=
  utf8 "  #" ++ Bytes.nat slot ++ utf8 " = " ++ Bytes.padRight 12 e.tag.name ++ utf8 " " ++ operandsOf e

/-- A line with a comment if there is something to say, and without one if not. -/
def CommentedLine (head : Bytes) (remark : Bytes -> Prop) (line : Bytes) : Prop :=
  (∃ text, remark text ∧ line = head ++ utf8 " // " ++ text) ∨ (∀ text, ¬ remark text) ∧ line = head

/-- Lines describe a class, with the given comments on the entries of its pool. -/
structure Described (c : ClassFile) (remark : Nat -> Entry -> Bytes -> Prop) (lines : List Bytes) :
    Prop where
  count : lines.length =
    3 + (c.pool.length - 1) + (c.members.map fun f => 1 + f.attributeList.length).sum
  version : lines.head? =
    some (utf8 "version " ++ Bytes.nat c.major.toNat ++ utf8 "." ++ Bytes.nat c.minor.toNat)
  slots : ∀ slot e, 1 ≤ slot → c.pool[slot]? = some e →
    ∃ line, lines[slot + 1]? = some line ∧ CommentedLine (slotHead slot e) (remark slot e) line
  members : lines.drop (2 + (c.pool.length - 1)) =
    utf8 "members:" :: c.members.flatMap c.memberLines
  attributes : ∀ f ∈ c.members, (c.memberLines f).length = 1 + f.attributeList.length

/-- The entry that the number of a slot leads to is of the same kind and denotes a text. -/
def DenotesBySlot (c : ClassFile) (slot : Nat) (e : Entry) (text : Bytes) : Prop :=
  ∃ e', c.pool[slot % 2 ^ 16]? = some e' ∧ e'.tag = e.tag ∧ c.Denotes e' text

/-- What the line of an entry says. -/
def Tells (c : ClassFile) (slot : Nat) (e : Entry) (text : Bytes) : Prop :=
  (e.BySlot → c.DenotesBySlot slot e text) ∧ (¬ e.BySlot → c.Denotes e text)

variable {c : ClassFile} {slot : Nat} {e : Entry}

/-! ## What entries denote -/

private theorem denotes_pair_iff {i j : UInt16} {text : Bytes} :
    c.Denotes (.nameAndType i j) text ↔
      ∃ name descriptor, c.entry? i = some (.utf8 name) ∧ c.entry? j = some (.utf8 descriptor) ∧
        name ++ utf8 ":" ++ descriptor = text := by
  simp only [Denotes, eq_comm (a := text)]

private theorem denotes_member_iff {reference : UInt16 -> UInt16 -> Entry} {i j : UInt16} {text : Bytes}
    (kind : reference = .fieldref ∨ reference = .methodref) :
    c.Denotes (reference i j) text ↔ ∃ r : MemberRef, c.resolveClass i = .ok r.owner ∧
      c.resolveNameAndType j = .ok (r.name, r.descriptor) ∧ r.id = text := by
  have chains : c.Denotes (reference i j) text ↔ ∃ owner name descriptor,
      TextChain .classInfo c i owner ∧ PairChain c j (name, descriptor) ∧
      text = owner ++ utf8 "." ++ name ++ utf8 ":" ++ descriptor := by
    rcases kind with rfl | rfl <;> rfl
  rw [chains]
  constructor
  · rintro ⟨owner, name, descriptor, owned, paired, rfl⟩
    exact ⟨⟨owner, name, descriptor⟩, resolveClass_eq_ok_iff.mpr owned,
      resolveNameAndType_eq_ok_iff.mpr paired, rfl⟩
  · rintro ⟨r, owned, paired, rfl⟩
    exact ⟨r.owner, r.name, r.descriptor, resolveClass_eq_ok_iff.mp owned,
      resolveNameAndType_eq_ok_iff.mp paired, rfl⟩

theorem denotes_unique {text text' : Bytes} (first : c.Denotes e text) (second : c.Denotes e text') :
    text = text' := by
  have same {i : UInt16} {t t' : Bytes} (one : c.entry? i = some (.utf8 t))
      (two : c.entry? i = some (.utf8 t')) : t = t' :=
    Entry.utf8.inj (Option.some.inj (one.symm.trans two))
  have member {reference : UInt16 -> UInt16 -> Entry} {i j : UInt16}
      (kind : reference = .fieldref ∨ reference = .methodref)
      (one : c.Denotes (reference i j) text) (two : c.Denotes (reference i j) text') :
      text = text' := by
    obtain ⟨r, owned, paired, rfl⟩ := (denotes_member_iff kind).mp one
    obtain ⟨r', owned', paired', rfl⟩ := (denotes_member_iff kind).mp two
    have owners := Except.ok.inj (owned.symm.trans owned')
    obtain ⟨names, descriptors⟩ := Prod.mk.inj (Except.ok.inj (paired.symm.trans paired'))
    rw [MemberRef.id, MemberRef.id, owners, names, descriptors]
  cases e with
  | unused => exact first.elim
  | utf8 _ => exact first.elim
  | classInfo i => exact same first second
  | string i => exact same first second
  | nameAndType i j =>
    obtain ⟨_, _, named, described, rfl⟩ := denotes_pair_iff.mp first
    obtain ⟨_, _, named', described', rfl⟩ := denotes_pair_iff.mp second
    rw [same named named', same described described']
  | fieldref i j => exact member (.inl rfl) first second
  | methodref i j => exact member (.inr rfl) first second

/-! ## What lines say -/

private theorem toNat_slot (slot : Nat) : slot.toUInt16.toNat = slot % 2 ^ 16 := UInt16.toNat_ofNat'

private theorem toOption_map_eq_some_iff {ε α β : Type} {x : Except ε α} {f : α -> β} {b : β} :
    x.toOption.map f = some b ↔ ∃ a, x = .ok a ∧ f a = b := by
  cases x <;> simp [Except.toOption]

private theorem memberComment_iff {reference : UInt16 -> UInt16 -> Entry}
    {resolve : UInt16 -> Except ResolveError MemberRef} {i j : UInt16} {text : Bytes}
    (kind : reference = .fieldref ∨ reference = .methodref)
    (resolves : ∀ index r, resolve index = .ok r ↔ ∃ owner pair,
      c.entry? index = some (reference owner pair) ∧ c.resolveClass owner = .ok r.owner ∧
        c.resolveNameAndType pair = .ok (r.name, r.descriptor)) :
    (resolve slot.toUInt16).toOption.map MemberRef.id = some text ↔
      c.DenotesBySlot slot (reference i j) text := by
  have tagged {e' : Entry} (same : e'.tag = (reference i j).tag) : ∃ i' j', e' = reference i' j' := by
    rcases kind with rfl | rfl <;> cases e' <;> cases same <;> exact ⟨_, _, rfl⟩
  have tags (i' j' : UInt16) : (reference i' j').tag = (reference i j).tag := by
    rcases kind with rfl | rfl <;> rfl
  simp only [toOption_map_eq_some_iff, resolves, DenotesBySlot, entry?, toNat_slot]
  constructor
  · rintro ⟨r, ⟨i', j', there, owned, paired⟩, rfl⟩
    exact ⟨_, there, tags i' j', (denotes_member_iff kind).mpr ⟨r, owned, paired, rfl⟩⟩
  · rintro ⟨_, there, same, denotes⟩
    obtain ⟨i', j', rfl⟩ := tagged same
    obtain ⟨r, owned, paired, rfl⟩ := (denotes_member_iff kind).mp denotes
    exact ⟨r, ⟨i', j', there, owned, paired⟩, rfl⟩

private theorem pairComment_iff {i j : UInt16} {text : Bytes} :
    (c.resolveNameAndType slot.toUInt16).toOption.map (fun r => r.1 ++ utf8 ":" ++ r.2) = some text ↔
      c.DenotesBySlot slot (.nameAndType i j) text := by
  rw [toOption_map_eq_some_iff, DenotesBySlot, ← toNat_slot]
  constructor
  · rintro ⟨⟨name, descriptor⟩, resolved, rfl⟩
    obtain ⟨i', j', there, named, described⟩ := resolveNameAndType_eq_ok_iff.mp resolved
    exact ⟨_, there, rfl, denotes_pair_iff.mpr ⟨name, descriptor, named, described, rfl⟩⟩
  · rintro ⟨e', there, same, denotes⟩
    cases e' with
    | nameAndType i' j' =>
      obtain ⟨name, descriptor, named, described, rfl⟩ := denotes_pair_iff.mp denotes
      exact ⟨(name, descriptor), resolveNameAndType_eq_ok_iff.mpr ⟨i', j', there, named, described⟩,
        rfl⟩
    | _ => cases same

private theorem operandText_eq (c : ClassFile) (slot : Nat) (e : Entry) :
    ∃ comment, c.operandText slot e = commented (operandsOf e) comment ∧
      ∀ text, comment = some text ↔ c.Tells slot e text := by
  have own (silent : ¬ e.BySlot) {comment : Option Bytes}
      (denotes : ∀ text, comment = some text ↔ c.Denotes e text) (text : Bytes) :
      comment = some text ↔ c.Tells slot e text := by
    rw [denotes]
    exact ⟨fun h => ⟨fun numbered => (silent numbered).elim, fun _ => h⟩, fun h => h.2 silent⟩
  have numbered (bySlot : e.BySlot) {comment : Option Bytes}
      (denotes : ∀ text, comment = some text ↔ c.DenotesBySlot slot e text) (text : Bytes) :
      comment = some text ↔ c.Tells slot e text := by
    rw [denotes]
    exact ⟨fun h => ⟨fun _ => h, fun silent => (silent bySlot).elim⟩, fun h => h.1 bySlot⟩
  cases e with
  | unused => exact ⟨none, rfl, own id fun _ => by simp [Denotes]⟩
  | utf8 _ => exact ⟨none, rfl, own id fun _ => by simp [Denotes]⟩
  | classInfo i => exact ⟨_, rfl, own id fun _ => name?_eq_some_iff⟩
  | string i => exact ⟨_, rfl, own id fun _ => name?_eq_some_iff⟩
  | nameAndType i j => exact ⟨_, rfl, numbered trivial fun _ => pairComment_iff⟩
  | fieldref i j =>
    exact ⟨_, rfl, numbered trivial fun _ =>
      memberComment_iff (.inl rfl) fun _ _ => resolveFieldref_eq_ok_iff⟩
  | methodref i j =>
    exact ⟨_, rfl, numbered trivial fun _ =>
      memberComment_iff (.inr rfl) fun _ _ => resolveMethodref_eq_ok_iff⟩

private theorem tells_unique {text text' : Bytes} (first : c.Tells slot e text)
    (second : c.Tells slot e text') : text = text' := by
  obtain ⟨comment, _, remark⟩ := operandText_eq c slot e
  exact Option.some.inj (((remark text).mpr first).symm.trans ((remark text').mpr second))

theorem slotLine_commented (c : ClassFile) (slot : Nat) (e : Entry) :
    CommentedLine (slotHead slot e) (c.Tells slot e) (c.slotLine slot e) := by
  obtain ⟨comment, written, remark⟩ := operandText_eq c slot e
  rw [slotLine, written]
  cases comment with
  | none =>
    refine .inr ⟨fun text said => ?_, rfl⟩
    cases (remark text).mpr said
  | some text =>
    refine .inl ⟨text, (remark text).mp rfl, ?_⟩
    simp only [slotHead, commented, List.append_assoc]

/-- Up to the 16 bits of an index a line says what its own entry denotes. -/
theorem tells_iff_denotes_of_lt {text : Bytes} (low : slot < 2 ^ 16) (there : c.pool[slot]? = some e) :
    c.Tells slot e text ↔ c.Denotes e text := by
  have numbered : c.DenotesBySlot slot e text ↔ c.Denotes e text := by
    rw [DenotesBySlot, Nat.mod_eq_of_lt low, there]
    constructor
    · rintro ⟨_, same, _, denotes⟩
      cases same
      exact denotes
    · intro denotes
      exact ⟨e, rfl, rfl, denotes⟩
  by_cases bySlot : e.BySlot <;> simp [Tells, bySlot, numbered]

/-! ## Lines -/

theorem CommentedLine.congr {head line : Bytes} {remark remark' : Bytes -> Prop}
    (commented : CommentedLine head remark line) (same : ∀ text, remark text ↔ remark' text) :
    CommentedLine head remark' line := by
  simpa only [CommentedLine, same] using commented

private theorem commented_ne {head : Bytes} (text : Bytes) : head ++ utf8 " // " ++ text ≠ head := by
  intro same
  have lengths := congrArg List.length same
  have mark : (utf8 " // ").length = 4 := by decide
  rw [List.length_append, List.length_append, mark] at lengths
  omega

theorem CommentedLine.agree {head line : Bytes} {remark remark' : Bytes -> Prop}
    (one : CommentedLine head remark line) (two : CommentedLine head remark' line)
    (single : ∀ t t', remark t → remark t' → t = t') (single' : ∀ t t', remark' t → remark' t' → t = t')
    (text : Bytes) : remark text ↔ remark' text := by
  rcases one with ⟨t, said, rfl⟩ | ⟨silent, rfl⟩
  · rcases two with ⟨t', said', same⟩ | ⟨_, same⟩
    · obtain rfl : t = t' := List.append_cancel_left same
      exact ⟨fun h => single t text said h ▸ said', fun h => single' t text said' h ▸ said⟩
    · exact (commented_ne t same).elim
  · rcases two with ⟨t', _, same⟩ | ⟨silent', _⟩
    · exact (commented_ne t' same.symm).elim
    · exact ⟨fun h => (silent text h).elim, fun h => (silent' text h).elim⟩

private theorem length_memberLines (c : ClassFile) (f : Member) :
    (c.memberLines f).length = 1 + f.attributeList.length := by
  simp [memberLines, Nat.add_comm]

theorem describe_getElem? (low : 1 ≤ slot) (there : c.pool[slot]? = some e) :
    c.describe[slot + 1]? = some (c.slotLine slot e) := by
  obtain ⟨k, rfl⟩ := Nat.exists_eq_add_of_le low
  have entry : (c.pool.tail.zipIdx 1)[k]? = some (e, 1 + k) := by
    rw [List.getElem?_zipIdx, List.getElem?_tail, Nat.add_comm k 1, there]
    rfl
  have inside : k < ((c.pool.tail.zipIdx 1).map fun p => c.slotLine p.2 p.1).length := by
    rw [List.length_map]
    exact (List.getElem?_eq_some_iff.mp entry).1
  have place : 1 + k + 1 = k + 2 := by omega
  rw [describe, place]
  simp only [List.cons_append, List.nil_append, List.getElem?_cons_succ, List.append_assoc]
  rw [List.getElem?_append_left inside, List.getElem?_map, entry]
  rfl

theorem described (c : ClassFile) : c.Described c.Tells c.describe where
  count := by
    simp only [describe, List.length_append, List.length_map, List.length_zipIdx, List.length_tail,
      List.length_flatMap, length_memberLines, List.length_cons, List.length_nil]
    omega
  version := rfl
  slots := by
    intro slot e low there
    exact ⟨_, describe_getElem? low there, slotLine_commented c slot e⟩
  members := by
    have front : ([utf8 "version " ++ Bytes.nat c.major.toNat ++ utf8 "."
        ++ Bytes.nat c.minor.toNat, utf8 "constant pool:"]
        ++ (c.pool.tail.zipIdx 1).map (fun p => c.slotLine p.2 p.1)).length =
        2 + (c.pool.length - 1) := by
      simp only [List.length_append, List.length_cons, List.length_nil, List.length_map,
        List.length_zipIdx, List.length_tail]
    rw [describe, List.append_assoc, List.drop_left' front]
    rfl
  attributes := fun f _ => length_memberLines c f

/-- A description is in the order of the class, and its lines say what their own entries denote exactly
if this is so for the references in slots with numbers of more than 16 bits: what such a reference
denotes is what the entry at the last 16 bits of the number denotes, if that one is of the same kind. So
it is for every pool that an index reaches. -/
theorem described_by_own_entries_iff (c : ClassFile) :
    c.Described c.Tells c.describe ∧
    (c.Described (fun _ => c.Denotes) c.describe ↔
      ∀ slot e, 2 ^ 16 ≤ slot → c.pool[slot]? = some e → e.BySlot →
        ∀ text, c.Denotes e text ↔ c.DenotesBySlot slot e text) ∧
    (c.pool.length ≤ 2 ^ 16 → c.Described (fun _ => c.Denotes) c.describe) := by
  have shown := c.described
  have own (same : ∀ slot e, 2 ^ 16 ≤ slot → c.pool[slot]? = some e → e.BySlot →
      ∀ text, c.Denotes e text ↔ c.DenotesBySlot slot e text) :
      c.Described (fun _ => c.Denotes) c.describe := by
    refine { shown with slots := fun slot e low there => ?_ }
    obtain ⟨line, here, commented⟩ := shown.slots slot e low there
    refine ⟨line, here, commented.congr fun text => ?_⟩
    by_cases reached : slot < 2 ^ 16
    · exact tells_iff_denotes_of_lt reached there
    · by_cases bySlot : e.BySlot
      · simp [Tells, bySlot, same slot e (Nat.le_of_not_lt reached) there bySlot]
      · simp [Tells, bySlot]
  refine ⟨shown, ⟨fun described => ?_, own⟩, fun short => own fun slot e high there => ?_⟩
  · intro slot e high there bySlot text
    have low : 1 ≤ slot := Nat.le_trans (by decide) high
    obtain ⟨line, here, commented⟩ := described.slots slot e low there
    obtain ⟨line', here', commented'⟩ := shown.slots slot e low there
    obtain rfl := Option.some.inj (here.symm.trans here')
    have same := commented.agree commented' (fun _ _ => denotes_unique) (fun _ _ => tells_unique) text
    simpa [Tells, bySlot] using same
  · have inside := (List.getElem?_eq_some_iff.mp there).1
    omega

/-- A class with a NameAndType in the first slot that no index reaches. -/
private def unreached : ClassFile :=
  { empty with
    pool := .unused :: .utf8 (utf8 "a") :: List.replicate (2 ^ 16 - 2) .unused ++ [.nameAndType 1 1] }

private theorem unreached_last : unreached.pool[2 ^ 16]? = some (.nameAndType 1 1) := by
  have front : (Entry.unused :: .utf8 (utf8 "a") :: List.replicate (2 ^ 16 - 2) .unused).length =
      2 ^ 16 := by
    rw [List.length_cons, List.length_cons, List.length_replicate]
    decide
  rw [← front]
  exact List.getElem?_concat_length

/-- The pair denotes a text, but its line is resolved from slot 0, which is unused. -/
theorem unreached_pair_uncommented :
    unreached.Denotes (.nameAndType 1 1) (utf8 "a:a") ∧
    unreached.describe[2 ^ 16 + 1]? = some (utf8 "  #65536 = NameAndType  #1:#1") ∧
    ¬ unreached.Described (fun _ => unreached.Denotes) unreached.describe := by
  have text : unreached.entry? 1 = some (.utf8 (utf8 "a")) := rfl
  have denotes : unreached.Denotes (.nameAndType 1 1) (utf8 "a:a") :=
    ⟨utf8 "a", utf8 "a", text, text, by decide⟩
  have head : slotHead (2 ^ 16) (.nameAndType 1 1) = utf8 "  #65536 = NameAndType  #1:#1" := by decide
  have line : unreached.slotLine (2 ^ 16) (.nameAndType 1 1) = slotHead (2 ^ 16) (.nameAndType 1 1) := by
    have wrapped : (2 ^ 16 : Nat).toUInt16 = 0 := by decide
    have broken : unreached.resolveNameAndType 0 = .error (unreached.badIndex 0 .nameAndType) := rfl
    rw [slotLine, operandText, wrapped, broken]
    rfl
  have shown := describe_getElem? (Nat.one_le_two_pow) unreached_last
  rw [line] at shown
  refine ⟨denotes, head ▸ shown, fun described => ?_⟩
  obtain ⟨line', here, ⟨text', _, rfl⟩ | ⟨silent, _⟩⟩ :=
    described.slots (2 ^ 16) _ Nat.one_le_two_pow unreached_last
  · exact commented_ne text' (Option.some.inj (here.symm.trans shown))
  · exact silent _ denotes

end ClassFile

end Jvm
