import Jvm.Proofs.Resolution
import Mathlib.Data.List.Basic
import Mathlib.Tactic.Common

/-!
Chains of references through the constant pool. An entry links to other entries by their index and asks
for their kinds. Resolving a reference follows the links: it succeeds when each index that it comes to
holds an entry of the kind asked for there, and otherwise the error names one that does not, with the
way to it. A pool that grows keeps its entries where they are, so an index can come to hold what is
asked for only if it lay beyond the end.
-/

set_option autoImplicit false
set_option relaxedAutoImplicit false

namespace Jvm

/-- A reference to an entry: the way to it, the kind that is asked for and the index. -/
structure Link where
  way : List Hop
  kind : Tag
  index : UInt16

/-- The references of the entry at an index, in the order in which they are followed. -/
def Entry.links (index : UInt16) : Entry -> List Link
  | .classInfo name => [⟨[.classInfo index], .utf8, name⟩]
  | .string text => [⟨[.string index], .utf8, text⟩]
  | .nameAndType name descriptor =>
    [⟨[.nameOf index], .utf8, name⟩, ⟨[.descriptorOf index], .utf8, descriptor⟩]
  | .fieldref owner pair =>
    [⟨[.fieldref index, .owner], .classInfo, owner⟩,
      ⟨[.fieldref index, .nameAndType], .nameAndType, pair⟩]
  | .methodref owner pair =>
    [⟨[.methodref index, .owner], .classInfo, owner⟩,
      ⟨[.methodref index, .nameAndType], .nameAndType, pair⟩]
  | .unused | .utf8 _ => []

namespace Entry

theorem eq_utf8 (e : Entry) (right : e.tag = .utf8) : ∃ text, e = .utf8 text := by
  cases e <;> simp_all [tag]

theorem eq_string (e : Entry) (right : e.tag = .string) : ∃ text, e = .string text := by
  cases e <;> simp_all [tag]

theorem eq_classInfo (e : Entry) (right : e.tag = .classInfo) : ∃ name, e = .classInfo name := by
  cases e <;> simp_all [tag]

theorem eq_nameAndType (e : Entry) (right : e.tag = .nameAndType) :
    ∃ pair : UInt16 × UInt16, e = .nameAndType pair.1 pair.2 := by
  cases e <;> simp_all [tag]

theorem eq_fieldref (e : Entry) (right : e.tag = .fieldref) :
    ∃ pair : UInt16 × UInt16, e = .fieldref pair.1 pair.2 := by
  cases e <;> simp_all [tag]

theorem eq_methodref (e : Entry) (right : e.tag = .methodref) :
    ∃ pair : UInt16 × UInt16, e = .methodref pair.1 pair.2 := by
  cases e <;> simp_all [tag]

end Entry

namespace ClassFile

def Has (c : ClassFile) (kind : Tag) (index : UInt16) : Prop :=
  ∃ entry, c.entry? index = some entry ∧ entry.tag = kind

/-- Where an entry of a kind is asked for at an index, the links lead to another index and another kind.
They are followed only from entries of the kind that is asked for. -/
inductive Visits (c : ClassFile) : Tag -> UInt16 -> List Hop -> Tag -> UInt16 -> Prop
  | here (kind : Tag) (index : UInt16) : Visits c kind index [] kind index
  | later {kind want : Tag} {index i : UInt16} {entry : Entry} {link : Link} {path : List Hop}
    (present : c.entry? index = some entry) (right : entry.tag = kind)
    (linked : link ∈ entry.links index) (rest : Visits c link.kind link.index path want i) :
    Visits c kind index (link.way ++ path) want i

/-- Each index that the links lead to holds an entry of the kind asked for. -/
def WellTyped (c : ClassFile) (kind : Tag) (index : UInt16) : Prop :=
  ∀ path want i, c.Visits kind index path want i → c.Has want i

/-- The error of a bad index: it names one that the links lead to, with the way to it, and what is there
instead of an entry of the kind asked for. -/
structure Broken (c : ClassFile) (kind : Tag) (index : UInt16) (e : ResolveError) : Prop where
  visited : c.Visits kind index e.path e.want e.index
  missing : ¬ c.Has e.want e.index
  found : e.found = (c.entry? e.index).map Entry.tag
  poolSize : e.poolSize = c.pool.length
  message : ∃ text, e.message = text ++ utf8 ": " ++ Cause.badIndex.text

def append (c : ClassFile) (more : List Entry) : ClassFile := { c with pool := c.pool ++ more }

variable {c : ClassFile} {kind : Tag} {index : UInt16} {entry : Entry} {e : ResolveError}

/-! ## Well-typed chains -/

theorem wellTyped_of_entry (present : c.entry? index = some entry)
    (deeper : ∀ link ∈ entry.links index, c.WellTyped link.kind link.index) :
    c.WellTyped entry.tag index := by
  intro path want i visits
  cases visits with
  | here => exact ⟨entry, present, rfl⟩
  | later present' _ linked rest =>
    obtain rfl := Option.some.inj (present.symm.trans present')
    exact deeper _ linked _ _ _ rest

theorem wellTyped_utf8 {text : Bytes} (present : c.entry? index = some (.utf8 text)) :
    c.WellTyped .utf8 index :=
  wellTyped_of_entry present (by simp [Entry.links])

theorem wellTyped_of_resolveString {text : Bytes} (resolved : c.resolveString index = .ok text) :
    c.WellTyped .string index := by
  obtain ⟨i, present, found⟩ := resolveString_eq_ok_iff.mp resolved
  exact wellTyped_of_entry present (by simpa [Entry.links] using wellTyped_utf8 found)

theorem wellTyped_of_resolveClass {name : Bytes} (resolved : c.resolveClass index = .ok name) :
    c.WellTyped .classInfo index := by
  obtain ⟨i, present, found⟩ := resolveClass_eq_ok_iff.mp resolved
  exact wellTyped_of_entry present (by simpa [Entry.links] using wellTyped_utf8 found)

theorem wellTyped_of_resolveNameAndType {pair : Bytes × Bytes}
    (resolved : c.resolveNameAndType index = .ok pair) : c.WellTyped .nameAndType index := by
  obtain ⟨i, j, present, named, described⟩ := resolveNameAndType_eq_ok_iff.mp resolved
  refine wellTyped_of_entry present ?_
  simpa [Entry.links] using ⟨wellTyped_utf8 named, wellTyped_utf8 described⟩

theorem wellTyped_of_member {owner pair : UInt16} {way way' : List Hop} {r : MemberRef}
    (present : c.entry? index = some entry)
    (links : entry.links index = [⟨way, .classInfo, owner⟩, ⟨way', .nameAndType, pair⟩])
    (owned : c.resolveClass owner = .ok r.owner)
    (paired : c.resolveNameAndType pair = .ok (r.name, r.descriptor)) :
    c.WellTyped entry.tag index := by
  refine wellTyped_of_entry present ?_
  simpa [links] using ⟨wellTyped_of_resolveClass owned, wellTyped_of_resolveNameAndType paired⟩

theorem wellTyped_of_resolveMethodref {r : MemberRef} (resolved : c.resolveMethodref index = .ok r) :
    c.WellTyped .methodref index := by
  obtain ⟨owner, pair, present, owned, paired⟩ := resolveMethodref_eq_ok_iff.mp resolved
  exact wellTyped_of_member present rfl owned paired

theorem wellTyped_of_resolveFieldref {r : MemberRef} (resolved : c.resolveFieldref index = .ok r) :
    c.WellTyped .fieldref index := by
  obtain ⟨owner, pair, present, owned, paired⟩ := resolveFieldref_eq_ok_iff.mp resolved
  exact wellTyped_of_member present rfl owned paired

/-! ## Broken chains -/

theorem broken_badIndex (missing : ¬ c.Has kind index) :
    c.Broken kind index (c.badIndex index kind) where
  visited := .here kind index
  missing := missing
  found := rfl
  poolSize := rfl
  message := ⟨_, rfl⟩

theorem broken_of_other {α : Type} {shape : α -> Entry}
    (shaped : ∀ entry : Entry, entry.tag = kind → ∃ a, entry = shape a)
    (other : ∀ a, c.entry? index ≠ some (shape a)) : c.Broken kind index (c.badIndex index kind) := by
  refine broken_badIndex ?_
  rintro ⟨entry, present, right⟩
  obtain ⟨a, rfl⟩ := shaped entry right
  exact other a present

theorem Broken.behind {l : Link} (broken : c.Broken l.kind l.index e)
    (present : c.entry? index = some entry) (linked : l ∈ entry.links index) :
    c.Broken entry.tag index { e with path := l.way ++ e.path } where
  visited := .later present rfl linked broken.visited
  missing := broken.missing
  found := broken.found
  poolSize := broken.poolSize
  message := ⟨_, rfl⟩

theorem broken_of_textAt {hop : Hop} {i : UInt16} (failed : c.textAt hop i = .error e)
    (present : c.entry? index = some entry) (linked : ⟨[hop], .utf8, i⟩ ∈ entry.links index) :
    c.Broken entry.tag index e := by
  unfold textAt at failed
  split at failed
  · cases failed
  · rename_i unnamed
    cases failed
    have other (text : Bytes) : c.entry? i ≠ some (.utf8 text) := by
      simp [<- name?_eq_some_iff, unnamed]
    exact (broken_of_other Entry.eq_utf8 other).behind present linked

theorem broken_of_resolveString (failed : c.resolveString index = .error e) :
    c.Broken .string index e := by
  unfold resolveString at failed
  split at failed
  · rename_i i present
    exact broken_of_textAt failed present (by simp [Entry.links])
  · rename_i other
    cases failed
    exact broken_of_other Entry.eq_string other

theorem broken_of_resolveClass (failed : c.resolveClass index = .error e) :
    c.Broken .classInfo index e := by
  unfold resolveClass at failed
  split at failed
  · rename_i i present
    exact broken_of_textAt failed present (by simp [Entry.links])
  · rename_i other
    cases failed
    exact broken_of_other Entry.eq_classInfo other

theorem broken_of_resolveNameAndType (failed : c.resolveNameAndType index = .error e) :
    c.Broken .nameAndType index e := by
  unfold resolveNameAndType at failed
  split at failed
  · rename_i i j present
    -- The name is looked up first, so the descriptor is to blame only if the name was found.
    rcases Outcome.except_bind_eq_error_iff.mp failed with unnamed | ⟨name, _, rest⟩
    · exact broken_of_textAt unnamed present (by simp [Entry.links])
    · rcases Outcome.except_bind_eq_error_iff.mp rest with undescribed | ⟨descriptor, _, done⟩
      · exact broken_of_textAt undescribed present (by simp [Entry.links])
      · cases done
  · rename_i other
    cases failed
    exact broken_of_other Entry.eq_nameAndType fun a => other a.1 a.2

theorem broken_of_resolveMember {owner pair : UInt16} {hop : Hop}
    (failed : (c.resolveMember owner pair).mapError (.under hop) = .error e)
    (present : c.entry? index = some entry)
    (links : entry.links index =
      [⟨[hop, .owner], .classInfo, owner⟩, ⟨[hop, .nameAndType], .nameAndType, pair⟩]) :
    c.Broken entry.tag index e := by
  obtain ⟨e', inner, rfl⟩ := Outcome.mapError_eq_error_iff.mp failed
  rcases Outcome.except_bind_eq_error_iff.mp inner with unowned | ⟨_, _, rest⟩
  · obtain ⟨_, failed', rfl⟩ := Outcome.mapError_eq_error_iff.mp unowned
    exact (broken_of_resolveClass failed').behind present (l := ⟨[hop, .owner], .classInfo, owner⟩)
      (by simp [links])
  · rcases Outcome.except_bind_eq_error_iff.mp rest with unpaired | ⟨_, _, done⟩
    · obtain ⟨_, failed', rfl⟩ := Outcome.mapError_eq_error_iff.mp unpaired
      exact (broken_of_resolveNameAndType failed').behind present
        (l := ⟨[hop, .nameAndType], .nameAndType, pair⟩) (by simp [links])
    · cases done

theorem broken_of_resolveMethodref (failed : c.resolveMethodref index = .error e) :
    c.Broken .methodref index e := by
  unfold resolveMethodref at failed
  split at failed
  · rename_i owner pair present
    exact broken_of_resolveMember failed present rfl
  · rename_i other
    cases failed
    exact broken_of_other Entry.eq_methodref fun a => other a.1 a.2

theorem broken_of_resolveFieldref (failed : c.resolveFieldref index = .error e) :
    c.Broken .fieldref index e := by
  unfold resolveFieldref at failed
  split at failed
  · rename_i owner pair present
    exact broken_of_resolveMember failed present rfl
  · rename_i other
    cases failed
    exact broken_of_other Entry.eq_fieldref fun a => other a.1 a.2

/-! ## Growing pools -/

theorem entry?_append (more : List Entry) (inside : index.toNat < c.pool.length) :
    ClassFile.entry? (c.append more) index = c.entry? index :=
  List.getElem?_append_left inside

theorem entry?_append_of_some (more : List Entry) (present : c.entry? index = some entry) :
    ClassFile.entry? (c.append more) index = some entry := by
  rw [entry?_append more (entry?_eq_some_lt present), present]

theorem Visits.append {want : Tag} {path : List Hop} {i : UInt16} (more : List Entry)
    (visits : c.Visits kind index path want i) : (c.append more).Visits kind index path want i := by
  induction visits with
  | here kind index => exact .here kind index
  | later present right linked _ ih => exact .later (entry?_append_of_some more present) right linked ih

/-- What was missing is found in the grown pool only if its index lay beyond the end. -/
theorem Broken.beyond {more : List Entry} (broken : c.Broken kind index e)
    (typed : (c.append more).WellTyped kind index) : c.pool.length ≤ e.index.toNat := by
  obtain ⟨entry, present, right⟩ := typed _ _ _ (broken.visited.append more)
  by_contra inside
  rw [entry?_append more (by omega)] at present
  exact broken.missing ⟨entry, present, right⟩

/-! ## Resolving -/

/-- Resolving succeeds exactly along a chain, with what the chain leads to. -/
structure ResolvesAlong {α : Type} (kind : Tag)
    (resolve : ClassFile -> UInt16 -> Except ResolveError α)
    (Chain : ClassFile -> UInt16 -> α -> Prop) : Prop where
  ok_iff : ∀ c index a, resolve c index = .ok a ↔ Chain c index a
  wellTyped_iff : ∀ c index, (∃ a, resolve c index = .ok a) ↔ c.WellTyped kind index
  broken : ∀ c index e, resolve c index = .error e → c.Broken kind index e
  append_ok : ∀ c more index a, resolve c index = .ok a → resolve (c.append more) index = .ok a
  /-- what did not resolve does so in the grown pool only if the index to blame lay beyond the end -/
  append_error : ∀ c more index e a, resolve c index = .error e →
    resolve (c.append more) index = .ok a → c.pool.length ≤ e.index.toNat

theorem resolvesAlong_of {α : Type} {resolve : ClassFile -> UInt16 -> Except ResolveError α}
    {Chain : ClassFile -> UInt16 -> α -> Prop}
    (ok_iff : ∀ c index a, resolve c index = .ok a ↔ Chain c index a)
    (grows : ∀ c more index a, Chain c index a → Chain (append c more) index a)
    (typed : ∀ c index a, resolve c index = .ok a → c.WellTyped kind index)
    (broken : ∀ c index e, resolve c index = .error e → c.Broken kind index e) :
    ResolvesAlong kind resolve Chain where
  ok_iff := ok_iff
  wellTyped_iff := by
    intro c index
    refine ⟨fun ⟨a, resolved⟩ => typed c index a resolved, ?_⟩
    intro right
    cases outcome : resolve c index with
    | ok a => exact ⟨a, rfl⟩
    | error e =>
      have blamed := broken c index e outcome
      exact (blamed.missing (right _ _ _ blamed.visited)).elim
  broken := broken
  append_ok := by
    intro c more index a resolved
    rw [ok_iff] at resolved ⊢
    exact grows c more index a resolved
  append_error := by
    intro c more index e a failed resolved
    exact (broken c index e failed).beyond (typed _ index a resolved)

def TextChain (single : UInt16 -> Entry) (c : ClassFile) (index : UInt16) (text : Bytes) : Prop :=
  ∃ i, c.entry? index = some (single i) ∧ c.entry? i = some (.utf8 text)

def PairChain (c : ClassFile) (index : UInt16) (pair : Bytes × Bytes) : Prop :=
  ∃ i j, c.entry? index = some (.nameAndType i j) ∧ c.entry? i = some (.utf8 pair.1) ∧
    c.entry? j = some (.utf8 pair.2)

def MemberChain (reference : UInt16 -> UInt16 -> Entry) (c : ClassFile) (index : UInt16)
    (r : MemberRef) : Prop :=
  ∃ owner pair, c.entry? index = some (reference owner pair) ∧
    TextChain .classInfo c owner r.owner ∧ PairChain c pair (r.name, r.descriptor)

theorem TextChain.append {single : UInt16 -> Entry} {text : Bytes} (more : List Entry)
    (chain : TextChain single c index text) : TextChain single (c.append more) index text := by
  obtain ⟨i, present, found⟩ := chain
  exact ⟨i, entry?_append_of_some more present, entry?_append_of_some more found⟩

theorem PairChain.append {pair : Bytes × Bytes} (more : List Entry)
    (chain : PairChain c index pair) : PairChain (c.append more) index pair := by
  obtain ⟨i, j, present, named, described⟩ := chain
  exact ⟨i, j, entry?_append_of_some more present, entry?_append_of_some more named,
    entry?_append_of_some more described⟩

theorem MemberChain.append {reference : UInt16 -> UInt16 -> Entry} {r : MemberRef}
    (more : List Entry) (chain : MemberChain reference c index r) :
    MemberChain reference (c.append more) index r := by
  obtain ⟨owner, pair, present, owned, paired⟩ := chain
  exact ⟨owner, pair, entry?_append_of_some more present, owned.append more, paired.append more⟩

/-- A reference resolves exactly when each entry on its chain has the kind that the chain asks for, and
then to the texts at the end of the chain. Otherwise the error is that of a bad index: it names an index
on the chain, the way to it and what is there instead. Entries that are added to the pool leave what
resolves as it is, and what does not resolve with them only does so if the index that was named lay
beyond the end of the pool. -/
theorem references_resolve_along_chains :
    ResolvesAlong .string resolveString (TextChain .string) ∧
    ResolvesAlong .classInfo resolveClass (TextChain .classInfo) ∧
    ResolvesAlong .nameAndType resolveNameAndType PairChain ∧
    ResolvesAlong .fieldref resolveFieldref (MemberChain .fieldref) ∧
    ResolvesAlong .methodref resolveMethodref (MemberChain .methodref) := by
  have pairs (c : ClassFile) (index : UInt16) (pair : Bytes × Bytes) :
      c.resolveNameAndType index = .ok pair ↔ PairChain c index pair :=
    resolveNameAndType_eq_ok_iff
  have members {reference : UInt16 -> UInt16 -> Entry} {c : ClassFile} {index : UInt16}
      {r : MemberRef} :
      (∃ owner pair, c.entry? index = some (reference owner pair) ∧
        c.resolveClass owner = .ok r.owner ∧
        c.resolveNameAndType pair = .ok (r.name, r.descriptor)) ↔
      MemberChain reference c index r := by
    simp only [resolveClass_eq_ok_iff, pairs]
    rfl
  refine ⟨?_, ?_, ?_, ?_, ?_⟩
  · exact resolvesAlong_of (fun _ _ _ => resolveString_eq_ok_iff) (fun _ more _ _ => .append more)
      (fun _ _ _ => wellTyped_of_resolveString) (fun _ _ _ => broken_of_resolveString)
  · exact resolvesAlong_of (fun _ _ _ => resolveClass_eq_ok_iff) (fun _ more _ _ => .append more)
      (fun _ _ _ => wellTyped_of_resolveClass) (fun _ _ _ => broken_of_resolveClass)
  · exact resolvesAlong_of pairs (fun _ more _ _ => .append more)
      (fun _ _ _ => wellTyped_of_resolveNameAndType) (fun _ _ _ => broken_of_resolveNameAndType)
  · exact resolvesAlong_of (fun _ _ _ => resolveFieldref_eq_ok_iff.trans members)
      (fun _ more _ _ => .append more) (fun _ _ _ => wellTyped_of_resolveFieldref)
      (fun _ _ _ => broken_of_resolveFieldref)
  · exact resolvesAlong_of (fun _ _ _ => resolveMethodref_eq_ok_iff.trans members)
      (fun _ more _ _ => .append more) (fun _ _ _ => wellTyped_of_resolveMethodref)
      (fun _ _ _ => broken_of_resolveMethodref)

private def danglingPair : ClassFile :=
  { empty with pool := [.unused, .methodref 2 5, .classInfo 3, .utf8 (utf8 "A")] }

/-- Two entries more and the pair is there. -/
theorem references_resolve_along_chains_dangling :
    ∃ e r, danglingPair.resolveMethodref 1 = .error e ∧
      danglingPair.Visits .methodref 1 [.methodref 1, .nameAndType] .nameAndType 5 ∧
      e.found = none ∧ danglingPair.pool.length ≤ e.index.toNat ∧
      (danglingPair.append [.utf8 (utf8 "f"), .nameAndType 4 3]).resolveMethodref 1 = .ok r ∧
      r.id = utf8 "A.f:A" := by
  obtain ⟨_, _, _, _, methods⟩ := references_resolve_along_chains
  have failed : danglingPair.resolveMethodref 1 =
      .error ⟨[.methodref 1, .nameAndType], 5, none, 4, .nameAndType⟩ := rfl
  have resolved : (danglingPair.append [.utf8 (utf8 "f"), .nameAndType 4 3]).resolveMethodref 1 =
      .ok ⟨utf8 "A", utf8 "f", utf8 "A"⟩ := rfl
  have broken := methods.broken _ _ _ failed
  exact ⟨_, _, failed, broken.visited, rfl, methods.append_error _ _ _ _ _ failed resolved, resolved,
    by decide⟩

end ClassFile

end Jvm
