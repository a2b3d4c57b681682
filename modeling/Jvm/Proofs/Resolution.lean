import Jvm.ClassFile.Resolution
import Jvm.Proofs.Numerals
import Jvm.Proofs.Outcomes
import Mathlib.Tactic.Common

/-!
Which chains through the constant pool resolve, and to what.
-/

set_option autoImplicit false
set_option relaxedAutoImplicit false

namespace Jvm

/-- An identifier belongs to one member if there is no dot in the owner and no colon in the name. -/
theorem MemberRef.eq_of_id_eq {r r' : MemberRef} (owner : 0x2E ∉ r.owner) (owner' : 0x2E ∉ r'.owner)
    (name : 0x3A ∉ r.name) (name' : 0x3A ∉ r'.name) (same : r.id = r'.id) : r = r' := by
  have split (r : MemberRef) : r.id = r.owner ++ 0x2E :: (r.name ++ 0x3A :: r.descriptor) := by
    simp only [id, List.append_assoc]
    rfl
  rw [split, split] at same
  obtain ⟨owners, rest⟩ := Bytes.split_unique owner owner' same
  obtain ⟨names, descriptors⟩ := Bytes.split_unique name name' rest
  obtain ⟨_, _, _⟩ := r
  obtain ⟨_, _, _⟩ := r'
  cases owners
  cases names
  cases descriptors
  rfl

namespace ClassFile

variable {c : ClassFile}

theorem name?_eq_some_iff {index : UInt16} {text : Bytes} :
    c.name? index = some text ↔ c.entry? index = some (.utf8 text) := by
  unfold name?
  cases c.entry? index with
  | none => simp
  | some entry => cases entry <;> simp

theorem textAt_eq_ok_iff {hop : Hop} {index : UInt16} {text : Bytes} :
    c.textAt hop index = .ok text ↔ c.entry? index = some (.utf8 text) := by
  unfold textAt name?
  cases c.entry? index with
  | none => simp
  | some entry => cases entry <;> simp

theorem resolveString_eq_ok_iff {index : UInt16} {text : Bytes} :
    c.resolveString index = .ok text ↔
      ∃ i, c.entry? index = some (.string i) ∧ c.entry? i = some (.utf8 text) := by
  unfold resolveString
  cases c.entry? index with
  | none => simp
  | some entry => cases entry <;> simp [textAt_eq_ok_iff]

theorem resolveClass_eq_ok_iff {index : UInt16} {name : Bytes} :
    c.resolveClass index = .ok name ↔
      ∃ i, c.entry? index = some (.classInfo i) ∧ c.entry? i = some (.utf8 name) := by
  unfold resolveClass
  cases c.entry? index with
  | none => simp
  | some entry => cases entry <;> simp [textAt_eq_ok_iff]

theorem resolveNameAndType_eq_ok_iff {index : UInt16} {name descriptor : Bytes} :
    c.resolveNameAndType index = .ok (name, descriptor) ↔
      ∃ i j, c.entry? index = some (.nameAndType i j) ∧ c.entry? i = some (.utf8 name) ∧
        c.entry? j = some (.utf8 descriptor) := by
  unfold resolveNameAndType
  cases c.entry? index with
  | none => simp
  | some entry =>
    cases entry with
    | nameAndType i j =>
      simp only [Outcome.except_bind_eq_ok_iff, textAt_eq_ok_iff, pure, Except.pure]
      constructor
      · rintro ⟨n, first, d, second, same⟩
        cases same
        exact ⟨i, j, rfl, first, second⟩
      · rintro ⟨i', j', same, first, second⟩
        cases same
        exact ⟨name, first, descriptor, second, rfl⟩
    | _ => simp

theorem resolveMember_eq_ok_iff {owner pair : UInt16} {r : MemberRef} :
    c.resolveMember owner pair = .ok r ↔
      c.resolveClass owner = .ok r.owner ∧
        c.resolveNameAndType pair = .ok (r.name, r.descriptor) := by
  unfold resolveMember
  simp only [Outcome.except_bind_eq_ok_iff, Outcome.mapError_eq_ok_iff, pure, Except.pure]
  constructor
  · rintro ⟨o, first, ⟨n, d⟩, second, same⟩
    cases same
    exact ⟨first, second⟩
  · rintro ⟨first, second⟩
    exact ⟨r.owner, first, (r.name, r.descriptor), second, rfl⟩

theorem resolveMethodref_eq_ok_iff {index : UInt16} {r : MemberRef} :
    c.resolveMethodref index = .ok r ↔
      ∃ owner pair, c.entry? index = some (.methodref owner pair) ∧
        c.resolveClass owner = .ok r.owner ∧
        c.resolveNameAndType pair = .ok (r.name, r.descriptor) := by
  unfold resolveMethodref
  cases c.entry? index with
  | none => simp
  | some entry =>
    cases entry <;> simp [Outcome.mapError_eq_ok_iff, resolveMember_eq_ok_iff]

theorem resolveFieldref_eq_ok_iff {index : UInt16} {r : MemberRef} :
    c.resolveFieldref index = .ok r ↔
      ∃ owner pair, c.entry? index = some (.fieldref owner pair) ∧
        c.resolveClass owner = .ok r.owner ∧
        c.resolveNameAndType pair = .ok (r.name, r.descriptor) := by
  unfold resolveFieldref
  cases c.entry? index with
  | none => simp
  | some entry =>
    cases entry <;> simp [Outcome.mapError_eq_ok_iff, resolveMember_eq_ok_iff]

theorem entry?_eq_some_lt {index : UInt16} {entry : Entry} (present : c.entry? index = some entry) :
    index.toNat < c.pool.length :=
  (List.getElem?_eq_some_iff.mp present).1

end ClassFile

end Jvm
