import Jvm.Proofs.Snapshots

/-!
Flattening and rebuilding are inverse to each other. A class is rebuilt from its snapshot as it was. Any
snapshot, with whatever tags, texts and indices, is either refused for its first tag that marks no kind,
or it rebuilds to the one class whose snapshot is its normal form, where each entry keeps only the parts
that its tag uses.
-/

set_option autoImplicit false
set_option relaxedAutoImplicit false

namespace Jvm

/-! ## Entries -/

def FlatEntry.Stray (e : FlatEntry) : Prop := e.tag ∉ ([0, 1, 7, 8, 9, 10, 12] : List UInt8)

/-- The entry without the parts that its tag does not use: only texts have a text, they and unused
entries have no index, and classes and strings have one. -/
def FlatEntry.normal (e : FlatEntry) : FlatEntry where
  tag := e.tag
  text := if e.tag = Tag.utf8.code then e.text else []
  first := if e.tag = Tag.unused.code ∨ e.tag = Tag.utf8.code then 0 else e.first
  second :=
    if e.tag = Tag.unused.code ∨ e.tag = Tag.utf8.code ∨ e.tag = Tag.classInfo.code ∨
      e.tag = Tag.string.code then 0 else e.second

theorem Tag.ofCode?_eq_none_iff {code : UInt8} :
    ofCode? code = none ↔ code ∉ ([0, 1, 7, 8, 9, 10, 12] : List UInt8) := by
  unfold ofCode?
  split_ifs <;> simp_all

theorem FlatEntry.rebuild?_eq_none_iff {e : FlatEntry} : e.rebuild? = none ↔ e.Stray := by
  rw [rebuild?, Option.map_eq_none_iff, Tag.ofCode?_eq_none_iff, Stray]

theorem FlatEntry.flatten_of_rebuild? {e : FlatEntry} {entry : Entry}
    (rebuilt : e.rebuild? = some entry) : entry.flatten = e.normal := by
  obtain ⟨tag, known, same⟩ := Option.map_eq_some_iff.mp rebuilt
  have code : e.tag = tag.code := Tag.ofCode?_eq_some_iff.mp known
  cases tag <;> cases same <;> simp [Entry.flatten, Entry.tag, normal, code, Tag.code]

/-! ## Pools -/

namespace Snapshot

def normal (s : Snapshot) : Snapshot := { s with pool := s.pool.map FlatEntry.normal }

structure FirstStray (pool : List FlatEntry) (slot : Nat) (e : FlatEntry) : Prop where
  here : pool[slot]? = some e
  stray : e.Stray
  before : ∀ e' ∈ pool.take slot, ¬ e'.Stray

theorem FirstStray.mem {pool : List FlatEntry} {slot : Nat} {e : FlatEntry}
    (first : FirstStray pool slot e) : e ∈ pool := List.mem_of_getElem? first.here

theorem firstStray_cons_of_stray {e : FlatEntry} (stray : e.Stray) (pool : List FlatEntry) :
    FirstStray (e :: pool) 0 e := ⟨rfl, stray, by simp⟩

theorem FirstStray.cons {pool : List FlatEntry} {slot : Nat} {e e' : FlatEntry}
    (first : FirstStray pool slot e) (known : ¬ e'.Stray) : FirstStray (e' :: pool) (slot + 1) e where
  here := first.here
  stray := first.stray
  before := List.forall_mem_cons.mpr ⟨known, first.before⟩

theorem FirstStray.unique {pool : List FlatEntry} {slot slot' : Nat} {e e' : FlatEntry}
    (first : FirstStray pool slot e) (first' : FirstStray pool slot' e') : slot = slot' ∧ e = e' := by
  -- An entry in front of the first one would have a known tag.
  have notBefore {slot slot' : Nat} {e e' : FlatEntry} (first : FirstStray pool slot e)
      (first' : FirstStray pool slot' e') : ¬ slot < slot' := by
    intro earlier
    have member : e ∈ pool.take slot' :=
      List.mem_iff_getElem?.mpr ⟨slot, by rw [List.getElem?_take_of_lt earlier, first.here]⟩
    exact first'.before e member first.stray
  obtain rfl : slot = slot' :=
    Nat.le_antisymm (Nat.not_lt.mp (notBefore first' first)) (Nat.not_lt.mp (notBefore first first'))
  exact ⟨rfl, Option.some.inj (first.here.symm.trans first'.here)⟩

/-- A pool is rebuilt entry by entry, or refused for the first tag that marks no kind. Slots are
counted from `slot` on. -/
theorem rebuildPool_cases (slot : Nat) (pool : List FlatEntry) :
    (∃ entries, rebuildPool slot pool = .ok entries ∧ (∀ e ∈ pool, ¬ e.Stray) ∧
      entries.map Entry.flatten = pool.map FlatEntry.normal) ∨
    ∃ k e, rebuildPool slot pool = .error ⟨slot + k, e.tag⟩ ∧ FirstStray pool k e := by
  induction pool generalizing slot with
  | nil => exact .inl ⟨[], rfl, by simp, rfl⟩
  | cons e pool ih =>
    cases rebuilt : e.rebuild? with
    | none =>
      have stray := FlatEntry.rebuild?_eq_none_iff.mp rebuilt
      exact .inr ⟨0, e, by rw [rebuildPool, rebuilt]; rfl, firstStray_cons_of_stray stray pool⟩
    | some entry =>
      have known : ¬ e.Stray := by
        rw [← FlatEntry.rebuild?_eq_none_iff, rebuilt]
        simp
      rcases ih (slot + 1) with ⟨entries, others, each, flat⟩ | ⟨k, e', refused, first⟩
      · refine .inl ⟨entry :: entries, by rw [rebuildPool, rebuilt, others], ?_, ?_⟩
        · exact List.forall_mem_cons.mpr ⟨known, each⟩
        · rw [List.map_cons, List.map_cons, FlatEntry.flatten_of_rebuild? rebuilt, flat]
      · refine .inr ⟨k + 1, e', ?_, first.cons known⟩
        rw [rebuildPool, rebuilt, refused, Nat.add_right_comm, Nat.add_assoc]

theorem classFile_cases (s : Snapshot) :
    (∃ c, s.classFile = .ok c ∧ (∀ e ∈ s.pool, ¬ e.Stray) ∧ c.snapshot = s.normal) ∨
    ∃ k e, s.classFile = .error ⟨k, e.tag⟩ ∧ FirstStray s.pool k e := by
  rcases rebuildPool_cases 0 s.pool with ⟨entries, rebuilt, known, flat⟩ | ⟨k, e, refused, first⟩
  · refine .inl ⟨⟨s.minor, s.major, entries, s.members⟩, by rw [classFile, rebuilt], known, ?_⟩
    rw [ClassFile.snapshot, flat, normal]
  · exact .inr ⟨k, e, by rw [classFile, refused, Nat.zero_add], first⟩

end Snapshot

theorem ClassFile.snapshot_injective {c c' : ClassFile} (same : c.snapshot = c'.snapshot) : c = c' := by
  have rebuilt := c.classFile_snapshot
  rw [same, c'.classFile_snapshot] at rebuilt
  exact (Except.ok.inj rebuilt).symm

namespace Snapshot

theorem classFile_eq_ok_iff {s : Snapshot} {c : ClassFile} :
    s.classFile = .ok c ↔ (∀ e ∈ s.pool, ¬ e.Stray) ∧ c.snapshot = s.normal := by
  rcases classFile_cases s with ⟨c', rebuilt, known, flat⟩ | ⟨k, e, refused, first⟩
  · rw [rebuilt, ← flat, Except.ok.injEq]
    exact ⟨fun same => ⟨known, same ▸ rfl⟩, fun ⟨_, same⟩ => (ClassFile.snapshot_injective same).symm⟩
  · rw [refused]
    refine iff_of_false (by simp) fun ⟨known, _⟩ => ?_
    exact known e first.mem first.stray

theorem classFile_eq_error_iff {s : Snapshot} {u : UnknownEntry} :
    s.classFile = .error u ↔ ∃ e, FirstStray s.pool u.slot e ∧ u.tag = e.tag := by
  rcases classFile_cases s with ⟨c, rebuilt, known, _⟩ | ⟨k, e, refused, first⟩
  · rw [rebuilt]
    refine iff_of_false (by simp) ?_
    rintro ⟨e, first, _⟩
    exact known e first.mem first.stray
  · rw [refused, Except.error.injEq]
    constructor
    · rintro rfl
      exact ⟨e, first, rfl⟩
    · rintro ⟨e', first', tag⟩
      obtain ⟨rfl, rfl⟩ := first.unique first'
      rw [← tag]

/-- Flattening and rebuilding are inverse up to the parts that tags do not use. Every class is rebuilt
from its snapshot. Of any snapshot, rebuilding fails exactly when some tag marks no kind, with an error
that names the first such entry; it succeeds with a class exactly when no tag does and the class
flattens to the normal form of the snapshot. -/
theorem rebuilding_inverts_flattening :
    (∀ c : ClassFile, c.snapshot.classFile = .ok c) ∧
    ∀ s : Snapshot,
      ((∃ u, s.classFile = .error u) ↔ ∃ e ∈ s.pool, e.Stray) ∧
      (∀ u, s.classFile = .error u ↔ ∃ e, FirstStray s.pool u.slot e ∧ u.tag = e.tag) ∧
      (∀ k e, FirstStray s.pool k e → ∃ u, s.classFile = .error u ∧
        u.message = utf8 "snapshot entry " ++ Bytes.nat k ++ utf8 ": tag " ++ Bytes.nat e.tag.toNat
          ++ utf8 ": unknown constant pool tag") ∧
      ∀ c, s.classFile = .ok c ↔ (∀ e ∈ s.pool, ¬ e.Stray) ∧ c.snapshot = s.normal := by
  refine ⟨ClassFile.classFile_snapshot, fun s => ⟨?_, fun u => classFile_eq_error_iff, ?_,
    fun c => classFile_eq_ok_iff⟩⟩
  · rcases classFile_cases s with ⟨c, rebuilt, known, _⟩ | ⟨k, e, refused, first⟩
    · refine iff_of_false ?_ ?_
      · rintro ⟨u, refused⟩
        rw [rebuilt] at refused
        cases refused
      · rintro ⟨e, member, stray⟩
        exact known e member stray
    · exact iff_of_true ⟨_, refused⟩ ⟨e, first.mem, first.stray⟩
  · intro k e first
    refine ⟨⟨k, e.tag⟩, classFile_eq_error_iff.mpr ⟨e, first, rfl⟩, ?_⟩
    rw [UnknownEntry.message, List.append_assoc]
    rfl

/-- A string with a text and a second index loses both; a tag of 15 in slot 1 is refused. -/
example :
    classFile ⟨0, 52, [⟨8, [65], 3, 4⟩], []⟩ = .ok ⟨0, 52, [.string 3], []⟩ ∧
      classFile ⟨0, 52, [⟨8, [65], 3, 4⟩, ⟨15, [], 0, 0⟩, ⟨2, [], 0, 0⟩], []⟩ = .error ⟨1, 15⟩ := by
  decide

end Snapshot

end Jvm
