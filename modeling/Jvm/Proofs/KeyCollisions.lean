import Jvm.Proofs.Resolution
import Jvm.Proofs.WrittenFiles

/-!
What the indices of a builder mean in the file that it writes. An index resolves to a constant of the
kind and the joined text that were asked for. Joined texts can agree where their parts do not, so the
indices mean what was asked for exactly when no two of the constants are confused.
-/

set_option autoImplicit false
set_option relaxedAutoImplicit false

namespace Jvm

/-! ## Resolving -/

theorem RefKind.entry_inj {kind : RefKind} {owner owner' pair pair' : UInt16}
    (same : kind.entry owner pair = kind.entry owner' pair') : owner = owner' ∧ pair = pair' := by
  cases kind <;> simpa [entry] using same

namespace ClassFile

def resolveRef (c : ClassFile) : RefKind -> UInt16 -> Except ResolveError MemberRef
  | .field => c.resolveFieldref
  | .method => c.resolveMethodref

/-- An index resolves to a constant: the entry there is of its kind, and its parts are found. -/
def Resolves (c : ClassFile) (index : UInt16) : Constant -> Prop
  | .utf8 text => c.name? index = some text
  | .classInfo name => c.resolveClass index = .ok name
  | .string text => c.resolveString index = .ok text
  | .nameAndType name descriptor => c.resolveNameAndType index = .ok (name, descriptor)
  | .ref kind r => c.resolveRef kind index = .ok r

variable {c : ClassFile}

theorem resolveRef_eq_ok_iff {kind : RefKind} {index : UInt16} {r : MemberRef} :
    c.resolveRef kind index = .ok r ↔
      ∃ owner pair, c.entry? index = some (kind.entry owner pair) ∧
        c.resolveClass owner = .ok r.owner ∧
        c.resolveNameAndType pair = .ok (r.name, r.descriptor) := by
  cases kind with
  | field => exact resolveFieldref_eq_ok_iff
  | method => exact resolveMethodref_eq_ok_iff

theorem Resolves.entry {index : UInt16} {k : Constant} (resolves : c.Resolves index k) :
    ∃ e, c.entry? index = some e ∧ e.tag = k.tag := by
  cases k with
  | utf8 text => exact ⟨_, name?_eq_some_iff.mp resolves, rfl⟩
  | classInfo name =>
    obtain ⟨_, there, _⟩ := resolveClass_eq_ok_iff.mp resolves
    exact ⟨_, there, rfl⟩
  | string text =>
    obtain ⟨_, there, _⟩ := resolveString_eq_ok_iff.mp resolves
    exact ⟨_, there, rfl⟩
  | nameAndType name descriptor =>
    obtain ⟨_, _, there, _⟩ := resolveNameAndType_eq_ok_iff.mp resolves
    exact ⟨_, there, rfl⟩
  | ref kind r =>
    obtain ⟨_, _, there, _⟩ := resolveRef_eq_ok_iff.mp resolves
    exact ⟨_, there, by cases kind <;> rfl⟩

theorem Resolves.unique {index : UInt16} {k k' : Constant} (first : c.Resolves index k)
    (second : c.Resolves index k') : k = k' := by
  obtain ⟨e, there, tagged⟩ := first.entry
  obtain ⟨e', there', tagged'⟩ := second.entry
  have kind : k.tag = k'.tag := by
    rw [← tagged, ← tagged', Option.some.inj (there.symm.trans there')]
  have decided {ε α : Type} {x : Except ε α} {a a' : α} (one : x = .ok a) (two : x = .ok a') :
      a = a' := Except.ok.inj (one.symm.trans two)
  rcases k with text | name | text | ⟨name, descriptor⟩ | ⟨_ | _, r⟩ <;>
    rcases k' with text' | name' | text' | ⟨name', descriptor'⟩ | ⟨_ | _, r'⟩ <;> cases kind
  · exact congrArg _ (Option.some.inj (first.symm.trans second))
  · exact congrArg _ (decided first second)
  · exact congrArg _ (decided first second)
  · obtain ⟨rfl, rfl⟩ := Prod.mk.inj (decided first second)
    rfl
  · exact congrArg _ (decided first second)
  · exact congrArg _ (decided first second)

end ClassFile

/-! ## Constants that are told apart -/

namespace Constant

/-- Constants of one kind with the same joined text are the same. -/
def Unconfused (asked : List Constant) : Prop :=
  ∀ k ∈ asked, ∀ k' ∈ asked, k.tag = k'.tag → k.text = k'.text → k = k'

/-- The joins of a constant can be read off its text: there is no colon in the name and no dot in the
owner. -/
def Plain : Constant -> Prop
  | nameAndType name _ => 0x3A ∉ name
  | ref _ r => 0x2E ∉ r.owner ∧ 0x3A ∉ r.name
  | _ => True

instance : DecidablePred Plain
  | nameAndType name _ => inferInstanceAs (Decidable (0x3A ∉ name))
  | ref _ r => inferInstanceAs (Decidable (0x2E ∉ r.owner ∧ 0x3A ∉ r.name))
  | utf8 _ => instDecidableTrue
  | classInfo _ => instDecidableTrue
  | string _ => instDecidableTrue

variable {k k' : Constant} {asked more : List Constant}

theorem mem_asks_cases {whole : Constant} (member : k ∈ whole.asks) :
    k = whole ∨ (∃ text, k = utf8 text) ∨ (∃ name, k = classInfo name) ∨
      ∃ kind r, whole = ref kind r ∧ k = nameAndType r.name r.descriptor := by
  cases whole with
  | utf8 text =>
    obtain rfl : k = utf8 text := by simpa [asks, parts] using member
    exact .inl rfl
  | classInfo name =>
    have : k = utf8 name ∨ k = classInfo name := by simpa [asks, parts] using member
    rcases this with rfl | rfl <;> simp
  | string text =>
    have : k = utf8 text ∨ k = string text := by simpa [asks, parts] using member
    rcases this with rfl | rfl <;> simp
  | nameAndType name descriptor =>
    have : k = utf8 name ∨ k = utf8 descriptor ∨ k = nameAndType name descriptor := by
      simpa [asks, parts] using member
    rcases this with rfl | rfl | rfl <;> simp
  | ref kind r =>
    have : k = utf8 r.owner ∨ k = classInfo r.owner ∨ k = utf8 r.name ∨ k = utf8 r.descriptor ∨
        k = nameAndType r.name r.descriptor ∨ k = ref kind r := by
      simpa [asks, parts] using member
    rcases this with rfl | rfl | rfl | rfl | rfl | rfl <;> simp

theorem Unconfused.append (unconfused : Unconfused asked)
    (told : ∀ k ∈ more, ∀ k', k'.key = k.key → k' = k) : Unconfused (asked ++ more) := by
  intro k member k' member' kind joined
  have same : k.key = k'.key := key_eq_iff.mpr ⟨kind, joined⟩
  rcases List.mem_append.mp member with early | late
  · rcases List.mem_append.mp member' with early' | late'
    · exact unconfused k early k' early' kind joined
    · exact told k' late' k same
  · exact (told k late k' same.symm).symm

theorem Plain.of_mem_asks {whole : Constant} (plain : whole.Plain) (member : k ∈ whole.asks) :
    k.Plain := by
  rcases mem_asks_cases member with rfl | ⟨_, rfl⟩ | ⟨_, rfl⟩ | ⟨kind, r, rfl, rfl⟩
  · exact plain
  · trivial
  · trivial
  · exact plain.2

theorem nameAndType_eq_of_plain {name name' descriptor descriptor' : Bytes}
    (clean : 0x3A ∉ name) (clean' : 0x3A ∉ name')
    (joined : name ++ Jvm.utf8 ":" ++ descriptor = name' ++ Jvm.utf8 ":" ++ descriptor') :
    name = name' ∧ descriptor = descriptor' := by
  rw [List.append_assoc, List.append_assoc] at joined
  exact Bytes.split_unique clean clean' joined

theorem Plain.eq_of_text_eq (plain : k.Plain) (plain' : k'.Plain) (kind : k.tag = k'.tag)
    (joined : k.text = k'.text) : k = k' := by
  have same : k.key = k'.key := key_eq_iff.mpr ⟨kind, joined⟩
  cases k' with
  | utf8 text => exact eq_utf8_of_key_eq same
  | classInfo name => exact eq_classInfo_of_key_eq same
  | string text =>
    rcases k with text' | name' | text' | ⟨name', descriptor'⟩ | ⟨_ | _, r⟩ <;> cases kind
    exact congrArg string joined
  | nameAndType name' descriptor' =>
    obtain ⟨name, descriptor, rfl⟩ := eq_nameAndType_of_key_eq same
    obtain ⟨rfl, rfl⟩ := nameAndType_eq_of_plain plain plain' joined
    rfl
  | ref kind r' =>
    obtain ⟨r, rfl, ids⟩ := eq_ref_of_key_eq same
    rw [MemberRef.eq_of_id_eq plain.1 plain'.1 plain.2 plain'.2 ids]

theorem unconfused_of_plain {ks : List Constant} (plain : ∀ k ∈ ks, k.Plain) :
    Unconfused (ks.flatMap asks) := by
  have each : ∀ k ∈ ks.flatMap asks, k.Plain := by
    intro k member
    obtain ⟨whole, isCalled, inside⟩ := List.mem_flatMap.mp member
    exact (plain whole isCalled).of_mem_asks inside
  intro k member k' member'
  exact (each k member).eq_of_text_eq (each k' member')

end Constant

/-! ## What an index resolves to -/

namespace Builder.Holds

variable {b : Builder} {entries : List Entry} {asked : List Constant} {c : ClassFile} {i : UInt16}

theorem resolves_of_made {k : Constant} {e : Entry} (holds : Holds b entries asked)
    (pool : c.pool = .unused :: entries) (made : Made b.shared k e) (there : c.entry? i = some e)
    (noRef : ∀ kind r, k ≠ .ref kind r) : c.Resolves i k := by
  cases made with
  | utf8 text => exact ClassFile.name?_eq_some_iff.mpr there
  | classInfo named =>
    exact ClassFile.resolveClass_eq_ok_iff.mpr ⟨_, there, holds.entry?_utf8 pool named⟩
  | string content =>
    exact ClassFile.resolveString_eq_ok_iff.mpr ⟨_, there, holds.entry?_utf8 pool content⟩
  | nameAndType named described =>
    exact ClassFile.resolveNameAndType_eq_ok_iff.mpr
      ⟨_, _, there, holds.entry?_utf8 pool named, holds.entry?_utf8 pool described⟩
  | ref kind owned pair => exact absurd rfl (noRef kind _)

theorem resolveClass_eq {name : Bytes} (holds : Holds b entries asked)
    (pool : c.pool = .unused :: entries)
    (found : b.shared.lookup (Constant.classInfo name).key = some i) :
    c.resolveClass i = .ok name := by
  obtain ⟨k, _, named, e, there, made⟩ := holds.entry?_of_lookup pool found
  obtain rfl := Constant.eq_classInfo_of_key_eq named
  exact holds.resolves_of_made pool made there (by simp)

theorem resolveNameAndType_eq {name descriptor : Bytes} (holds : Holds b entries asked)
    (pool : c.pool = .unused :: entries)
    (found : b.shared.lookup (Constant.nameAndType name descriptor).key = some i) :
    ∃ name' descriptor', .nameAndType name' descriptor' ∈ asked ∧
      (Constant.nameAndType name' descriptor').key = (Constant.nameAndType name descriptor).key ∧
      c.resolveNameAndType i = .ok (name', descriptor') := by
  obtain ⟨k, member, named, e, there, made⟩ := holds.entry?_of_lookup pool found
  obtain ⟨name', descriptor', rfl⟩ := Constant.eq_nameAndType_of_key_eq named
  exact ⟨name', descriptor', member, named, holds.resolves_of_made pool made there (by simp)⟩

/-- An index resolves to a constant that has the key it was found by. This is the one that was asked
for, unless there was another one with its key, or with the key of one of its parts. -/
theorem resolves {k : Constant} (holds : Holds b entries asked)
    (pool : c.pool = .unused :: entries) (found : b.shared.lookup k.key = some i) :
    ∃ k', k'.key = k.key ∧ c.Resolves i k' ∧
      (Constant.Unconfused asked → k ∈ asked → k' = k) := by
  obtain ⟨k', member, named, e, there, made⟩ := holds.entry?_of_lookup pool found
  obtain ⟨kind, joined⟩ := Constant.key_eq_iff.mp named
  have same (unconfused : Constant.Unconfused asked) (asked' : k ∈ asked) : k' = k :=
    unconfused k' member k asked' kind joined
  have resolves' := holds.resolves_of_made pool made there
  cases made with
  | @ref sort r owner pair owned paired =>
    -- The pair of the reference may be that of another name and descriptor with the same key.
    obtain ⟨name, descriptor, member', named', resolved⟩ := holds.resolveNameAndType_eq pool paired
    obtain ⟨kind', joined'⟩ := Constant.key_eq_iff.mp named'
    refine ⟨.ref sort ⟨r.owner, name, descriptor⟩, ?_, ?_, ?_⟩
    · rw [← named]
      have joined : name ++ (utf8 ":" ++ descriptor) = r.name ++ (utf8 ":" ++ r.descriptor) := by
        simpa [Constant.text] using joined'
      simp [Constant.key, Constant.text, Constant.tag, MemberRef.id, joined]
    · exact ClassFile.resolveRef_eq_ok_iff.mpr
        ⟨owner, pair, there, holds.resolveClass_eq pool owned, resolved⟩
    · intro unconfused asked'
      have part := holds.closed _ member _ (List.mem_cons_of_mem _ List.mem_cons_self)
      cases unconfused _ member' _ part kind' joined'
      exact same unconfused asked'
  | _ => exact ⟨_, named, resolves' (by simp), same⟩

theorem resolves_pair {kind : RefKind} {r : MemberRef} (holds : Holds b entries asked)
    (pool : c.pool = .unused :: entries)
    (found : b.shared.lookup (Constant.ref kind r).key = some i)
    (precise : c.Resolves i (.ref kind r)) :
    ∃ j, b.shared.lookup (Constant.nameAndType r.name r.descriptor).key = some j ∧
      c.Resolves j (.nameAndType r.name r.descriptor) := by
  obtain ⟨owner, pair, entry, owned, paired⟩ := ClassFile.resolveRef_eq_ok_iff.mp precise
  obtain ⟨k, _, named, e, there, made⟩ := holds.entry?_of_lookup pool found
  obtain ⟨r', rfl, ids⟩ := Constant.eq_ref_of_key_eq named
  cases made with
  | @ref _ _ owner' pair' owned' paired' =>
    obtain ⟨rfl, rfl⟩ := RefKind.entry_inj (Option.some.inj (there.symm.trans entry))
    -- The owner is that of the reference, so what is left of the joined texts agrees as well.
    have owners : r'.owner = r.owner :=
      Except.ok.inj ((holds.resolveClass_eq pool owned').symm.trans owned)
    have joined : r'.name ++ (utf8 ":" ++ r'.descriptor) = r.name ++ (utf8 ":" ++ r.descriptor) := by
      simpa [MemberRef.id, owners] using ids
    have same : (Constant.nameAndType r'.name r'.descriptor).key =
        (Constant.nameAndType r.name r.descriptor).key := by
      simp [Constant.key, Constant.text, Constant.tag, joined]
    rw [same] at paired'
    exact ⟨_, paired', paired⟩

variable {ks more : List Constant} {indices : List UInt16}

theorem resolves_asked (holds : Holds b entries asked) (pool : c.pool = .unused :: entries)
    (precise : ∀ k ∈ ks, ∃ i, b.shared.lookup k.key = some i ∧ c.Resolves i k) :
    ∀ k ∈ ks.flatMap Constant.asks, ∀ i, b.shared.lookup k.key = some i → c.Resolves i k := by
  intro k member i found
  have agrees {j : UInt16} (found' : b.shared.lookup k.key = some j) (resolves : c.Resolves j k) :
      c.Resolves i k := by
    rwa [← Option.some.inj (found'.symm.trans found)]
  obtain ⟨whole, called, inside⟩ := List.mem_flatMap.mp member
  obtain ⟨j, found', resolves⟩ := precise whole called
  rcases Constant.mem_asks_cases inside with rfl | ⟨text, rfl⟩ | ⟨name, rfl⟩ | ⟨kind, r, rfl, rfl⟩
  · exact agrees found' resolves
  · exact ClassFile.name?_eq_some_iff.mpr (holds.entry?_utf8 pool found)
  · exact holds.resolveClass_eq pool found
  · obtain ⟨pair, paired, resolved⟩ := holds.resolves_pair pool found' resolves
    exact agrees paired resolved

theorem resolves_iff (holds : Holds b entries (ks.flatMap Constant.asks ++ more))
    (pool : c.pool = .unused :: entries) (told : ∀ k ∈ more, ∀ k', k'.key = k.key → k' = k)
    (found : List.Forall₂ (fun k i => b.shared.lookup k.key = some i) ks indices) :
    List.Forall₂ (fun k i => c.Resolves i k) ks indices ↔
      Constant.Unconfused (ks.flatMap Constant.asks) := by
  constructor
  · intro resolves
    have both : List.Forall₂ (fun k i =>
        (∃ i, b.shared.lookup k.key = some i ∧ c.Resolves i k) ∧ c.Resolves i k) ks indices :=
      found.mp (fun k i known resolved => ⟨⟨i, known, resolved⟩, resolved⟩) resolves
    -- Also the parts of the constants are found as they were asked for, by one index for each key.
    have precise := holds.resolves_asked pool ((List.forall₂_and_left _ _).mp both).1
    intro k member k' member' kind joined
    obtain ⟨i, known⟩ := holds.known k (List.mem_append_left _ member)
    have known' : b.shared.lookup k'.key = some i := by
      rwa [← Constant.key_eq_iff.mpr ⟨kind, joined⟩]
    exact (precise k member i known).unique (precise k' member' i known')
  · intro unconfused
    have called : ∀ k ∈ ks, k ∈ ks.flatMap Constant.asks ++ more := by
      intro k member
      exact List.mem_append_left _ (List.mem_flatMap.mpr ⟨k, member, k.mem_asks⟩)
    refine ((List.forall₂_and_left _ _).mpr ⟨called, found⟩).imp ?_
    rintro k i ⟨member, known⟩
    obtain ⟨k', _, resolves, same⟩ := holds.resolves pool known
    rwa [← same (unconfused.append told) member]

theorem index_eq_iff {k k' : Constant} {i j : UInt16} (holds : Holds b entries asked)
    (pool : c.pool = .unused :: entries) (found : b.shared.lookup k.key = some i)
    (found' : b.shared.lookup k'.key = some j) :
    i = j ↔ k.tag = k'.tag ∧ k.text = k'.text := by
  rw [← Constant.key_eq_iff]
  constructor
  · rintro rfl
    obtain ⟨l, named, resolves, _⟩ := holds.resolves pool found
    obtain ⟨l', named', resolves', _⟩ := holds.resolves pool found'
    rw [← named, ← named', resolves.unique resolves']
  · intro same
    rw [same, found'] at found
    exact (Option.some.inj found).symm

end Builder.Holds

namespace Builder

theorem mapM_add (ks : List Constant) (b : Builder) :
    ∃ indices, ks.mapM Constant.add b = (indices, b.addAll ks) ∧
      List.Forall₂ (fun k i => (b.addAll ks).shared.lookup k.key = some i) ks indices := by
  induction ks generalizing b with
  | nil => exact ⟨[], rfl, .nil⟩
  | cons k ks ih =>
    obtain ⟨indices, run, found⟩ := ih (k.add b).2
    have later := addsAll ks (k.add b).2
    refine ⟨(k.add b).1 :: indices, ?_, .cons (later.grows.shared (adds k b).index) found⟩
    rw [List.mapM_cons, bind_apply, bind_apply, run]
    rfl

theorem told_of_closing {b : Builder} :
    ∀ k ∈ b.closing.flatMap Constant.asks, ∀ k', k'.key = k.key → k' = k := by
  intro k member k' same
  have single : (∃ text, k = .utf8 text) ∨ ∃ name, k = .classInfo name := by
    obtain ⟨whole, closes, inside⟩ := List.mem_flatMap.mp member
    have wholes : (∃ text, whole = .utf8 text) ∨ ∃ name, whole = .classInfo name := by
      simp only [closing, List.mem_cons, List.mem_map] at closes
      rcases closes with rfl | rfl | ⟨a, _, rfl⟩ <;> simp
    rcases Constant.mem_asks_cases inside with rfl | text | name | ⟨kind, r, rfl, _⟩
    · exact wholes
    · exact .inl text
    · exact .inr name
    · simp at wholes
  rcases single with ⟨text, rfl⟩ | ⟨name, rfl⟩
  · exact Constant.eq_utf8_of_key_eq same
  · exact Constant.eq_classInfo_of_key_eq same

/-- An index resolves to a constant of the kind and the joined text that were asked for, and two
constants have the same index exactly when both agree. The indices resolve to the constants themselves
exactly when none of them, or of their parts, are confused. -/
theorem indices_resolve_iff_unconfused (className superName : Bytes) (minor major : UInt16)
    (ks : List Constant) (classShort : className.length < 2 ^ 16)
    (superShort : superName.length < 2 ^ 16)
    (short : ∀ k ∈ ks, ∀ text ∈ k.texts, text.length < 2 ^ 16)
    (room : (write (ks.mapM Constant.add (opened className superName minor major)).2).2.pool.length
      ≤ 65534) :
    ∃ indices b c, ks.mapM Constant.add (opened className superName minor major) = (indices, b) ∧
      ClassFile.parse (write b).1 = .ok c ∧
      List.Forall₂ (fun k i => ∃ k', k'.tag = k.tag ∧ k'.text = k.text ∧ c.Resolves i k') ks indices ∧
      (∀ k i k' i', (k, i) ∈ ks.zip indices → (k', i') ∈ ks.zip indices →
        (i = i' ↔ k.tag = k'.tag ∧ k.text = k'.text)) ∧
      (List.Forall₂ (fun k i => c.Resolves i k) ks indices ↔
        Constant.Unconfused (ks.flatMap Constant.asks)) ∧
      ((∀ k ∈ ks, k.Plain) → List.Forall₂ (fun k i => c.Resolves i k) ks indices) := by
  have adding := addsAll ks (opened className superName minor major)
  obtain ⟨indices, run, found⟩ := mapM_add ks (opened className superName minor major)
  rw [run] at room ⊢
  generalize (opened className superName minor major).addAll ks = b at adding found room run ⊢
  replace room : (write b).2.pool.length ≤ 65534 := room
  have adds := addsAll b.closing b
  have smaller := b.pool_length_le_write
  obtain ⟨entries, holds⟩ := adding.holds (holds_nil rfl rfl) short (by omega)
  have noMembers : b.members = [] := adding.members
  have closingShort : ∀ k ∈ b.closing, ∀ text ∈ k.texts, text.length < 2 ^ 16 := by
    refine closing_short ?_ ?_ ?_
    · rw [adding.grows.className]
      exact classShort
    · rw [adding.grows.superName]
      exact superShort
    · simp [noMembers]
  obtain ⟨bytes, entries', written, holds', parsed⟩ :=
    parse_write holds (by rw [noMembers]; exact .nil) (by simp) (by simp) closingShort room
  have found' := found.imp fun k i known => adds.grows.shared known
  have precise := holds'.resolves_iff (c := (b.addAll b.closing).classFile entries') rfl
    told_of_closing found'
  refine ⟨indices, b, _, rfl, ?_, ?_, ?_, precise, ?_⟩
  · rw [written]
    exact parsed
  · refine found'.imp ?_
    intro k i known
    obtain ⟨k', named, resolves, _⟩ :=
      holds'.resolves (c := (b.addAll b.closing).classFile entries') rfl known
    obtain ⟨kind, joined⟩ := Constant.key_eq_iff.mp named
    exact ⟨k', kind, joined, resolves⟩
  · intro k i k' i' called called'
    exact holds'.index_eq_iff (c := (b.addAll b.closing).classFile entries') rfl
      (List.forall₂_zip found' called) (List.forall₂_zip found' called')
  · intro plain
    exact precise.mpr (Constant.unconfused_of_plain plain)

theorem indices_resolve_iff_unconfused_shared :
    let ks : List Constant := [.ref .field ⟨utf8 "a/b", utf8 "x", utf8 "I:"⟩,
      .nameAndType (utf8 "x") (utf8 "I:"), .ref .method ⟨utf8 "a/b", utf8 "x", utf8 "I:"⟩,
      .string (utf8 "x"), .nameAndType (utf8 "x") (utf8 "I:")]
    ∃ indices b c, ks.mapM Constant.add (opened (utf8 "C") (utf8 "Object") 0 52) = (indices, b) ∧
      ClassFile.parse (write b).1 = .ok c ∧
      List.Forall₂ (fun k i => c.Resolves i k) ks indices := by
  intro ks
  have plain : ∀ k ∈ ks, k.Plain := by decide +kernel
  obtain ⟨indices, b, c, run, parsed, _, _, _, precise⟩ :=
    indices_resolve_iff_unconfused (utf8 "C") (utf8 "Object") 0 52 ks (by decide +kernel)
      (by decide +kernel) (by decide +kernel) (by decide +kernel)
  exact ⟨indices, b, c, run, parsed, precise plain⟩

/-- Two pairs with different names and descriptors get one index, which resolves to the first. -/
theorem joined_pairs_collide :
    let ks : List Constant :=
      [.nameAndType (utf8 "a:b") (utf8 "c"), .nameAndType (utf8 "a") (utf8 "b:c")]
    ∃ b c, ks.mapM Constant.add (start (utf8 "C")) = ([3, 3], b) ∧
      ClassFile.parse (write b).1 = .ok c ∧
      c.resolveNameAndType 3 = .ok (utf8 "a:b", utf8 "c") ∧
      c.resolveNameAndType 3 ≠ .ok (utf8 "a", utf8 "b:c") := by
  intro ks
  have indices : (ks.mapM Constant.add (start (utf8 "C"))).1 = [3, 3] := by decide +kernel
  have read : (ClassFile.parse (write (ks.mapM Constant.add (start (utf8 "C"))).2).1).toOption.bind
      (fun c => (c.resolveNameAndType 3).toOption) = some (utf8 "a:b", utf8 "c") := by decide +kernel
  have other : (utf8 "a:b", utf8 "c") ≠ (utf8 "a", utf8 "b:c") := by decide +kernel
  have isOk {ε α : Type} {x : Except ε α} {a : α} (present : x.toOption = some a) : x = .ok a := by
    cases x with
    | error e => cases present
    | ok a' => exact congrArg Except.ok (Option.some.inj present)
  obtain ⟨c, parsed, resolved⟩ := Option.bind_eq_some_iff.mp read
  refine ⟨_, c, Prod.ext indices rfl, isOk parsed, isOk resolved, ?_⟩
  rw [isOk resolved]
  intro same
  exact other (Except.ok.inj same)

end Builder

end Jvm
