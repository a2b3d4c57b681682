import Jvm.Proofs.Listing
import Jvm.Proofs.Output
import Jvm.Proofs.Resolution
import Mathlib.Data.List.Count
import Mathlib.Tactic.Common

/-!
Which method a call reaches. A call is dispatched by the identifier of its method, which joins owner,
name and descriptor. Different methods can have one identifier, since the separators may occur in the
parts as well. But there is one dot and one colon in the identifier of a native method, so it can be
split in one way only, and no other method is taken for a native one.
-/

set_option autoImplicit false
set_option relaxedAutoImplicit false

namespace Jvm

def Native.method : Native -> MemberRef
  | printlnInt => ⟨utf8 "java/io/PrintStream", utf8 "println", utf8 "(I)V"⟩
  | printlnString => ⟨utf8 "java/io/PrintStream", utf8 "println", utf8 "(Ljava/lang/String;)V"⟩

theorem Native.id_method (n : Native) : n.method.id = n.id := by cases n <;> decide

theorem Native.count_id (n : Native) : n.id.count 0x2E = 1 ∧ n.id.count 0x3A = 1 := by
  cases n <;> decide

theorem MemberRef.notMem_of_count_id {r : MemberRef} (dots : r.id.count 0x2E = 1)
    (colons : r.id.count 0x3A = 1) : 0x2E ∉ r.owner ∧ 0x3A ∉ r.name := by
  have dot : (utf8 ".").count 0x2E = 1 := by decide
  have colon : (utf8 ":").count 0x3A = 1 := by decide
  simp only [id, List.count_append] at dots colons
  rw [← List.count_eq_zero, ← List.count_eq_zero]
  omega

theorem MemberRef.id_eq_iff {r : MemberRef} {n : Native} : r.id = n.id ↔ r = n.method := by
  constructor
  · intro same
    obtain ⟨dots, colons⟩ := n.count_id
    obtain ⟨owner, name⟩ := notMem_of_count_id (r := r) (same ▸ dots) (same ▸ colons)
    rw [← n.id_method] at same dots colons
    obtain ⟨owner', name'⟩ := notMem_of_count_id dots colons
    exact eq_of_id_eq owner owner' name name' same
  · rintro rfl
    exact n.id_method

namespace Machine

/-- Every call with the index does what the native method does. -/
def Calls (c : ClassFile) (index : UInt16) (method : MemberRef) (n : Native) : Prop :=
  ∀ m : Machine, m.frame.u16At? (m.frame.pc + 1) = some index →
    execute c .invokevirtual m.pass =
      (do within method (native n); return false) (m.behind .invokevirtual m.frame.stack)

/-- Every call with the index faults because the method is not known, and leaves the stack as it is. -/
def Refuses (c : ClassFile) (index : UInt16) (method : MemberRef) : Prop :=
  ∀ m : Machine, m.frame.u16At? (m.frame.pc + 1) = some index →
    execute c .invokevirtual m.pass =
      .error (.unknownMethod method) (m.behind .invokevirtual m.frame.stack)

variable {c : ClassFile} {index : UInt16} {method : MemberRef} {n : Native}

theorem calls_of_known (resolved : c.resolveMethodref index = .ok method)
    (known : Native.ofId? method.id = some n) : Calls c index method n := by
  intro m operand
  rw [execute_invokevirtual operand resolved, dispatch, known]

theorem refuses_of_unknown (resolved : c.resolveMethodref index = .ok method)
    (unknown : Native.ofId? method.id = none) : Refuses c index method := by
  intro m operand
  rw [execute_invokevirtual operand resolved, dispatch, unknown]
  rfl

/-- A call with two integers on the stack, on which the native methods differ. -/
private def calling (index : UInt16) : Machine :=
  { frame := { code := 0 :: Bytes.ofUInt16 index, pc := 0, stack := [.int 0, .int 0], locals := [] }
    sink := .unlimited }

private theorem operand_calling (index : UInt16) :
    (calling index).frame.u16At? ((calling index).frame.pc + 1) = some index :=
  congrArg some (Bytes.toUInt16_bigEndian_ofUInt16 index)

theorem Calls.unique {n' : Native} (calls : Calls c index method n)
    (calls' : Calls c index method n') : n = n' := by
  have one := calls (calling index) (operand_calling index)
  have two := calls' (calling index) (operand_calling index)
  have same := one.symm.trans two
  cases n with
  | printlnInt =>
    cases n' with
    | printlnInt => rfl
    | printlnString => cases same
  | printlnString =>
    cases n' with
    | printlnInt => cases same
    | printlnString => rfl

theorem Calls.not_refuses (calls : Calls c index method n) : ¬ Refuses c index method := by
  intro refuses
  have one := calls (calling index) (operand_calling index)
  have two := refuses (calling index) (operand_calling index)
  have same := one.symm.trans two
  cases n <;> cases same

/-- A call whose method resolves reaches a native method exactly when owner, name and descriptor are
those of the native method, whatever separators they hold; all other calls fault before anything is
popped, because the method is not known, and name it by its identifier. So no other parts that could be
joined to the identifier of a native method are taken for it. -/
theorem invokevirtual_calls_iff (c : ClassFile) (index : UInt16) (method : MemberRef)
    (resolved : c.resolveMethodref index = .ok method) :
    (∀ n, Calls c index method n ↔ method = n.method) ∧
    (Refuses c index method ↔ ∀ n : Native, method ≠ n.method) ∧
    (Fault.unknownMethod method).cause? = some .unknownMethod ∧
    (Fault.unknownMethod method).detail =
      method.owner ++ utf8 "." ++ method.name ++ utf8 ":" ++ method.descriptor ∧
    ∀ (n : Native) (owner name descriptor : Bytes),
      Native.ofId? (owner ++ utf8 "." ++ name ++ utf8 ":" ++ descriptor) = some n ↔
        (⟨owner, name, descriptor⟩ : MemberRef) = n.method := by
  have known {r : MemberRef} {n : Native} : Native.ofId? r.id = some n ↔ r = n.method :=
    Native.ofId?_eq_some_iff.trans MemberRef.id_eq_iff
  refine ⟨?_, ?_, rfl, rfl, fun n owner name descriptor => known (r := ⟨owner, name, descriptor⟩)⟩
  · intro n
    rw [← known]
    refine ⟨?_, calls_of_known resolved⟩
    intro calls
    cases target : Native.ofId? method.id with
    | none => exact (calls.not_refuses (refuses_of_unknown resolved target)).elim
    | some n' => rw [calls.unique (calls_of_known resolved target)]
  · constructor
    · rintro refuses n rfl
      exact (calls_of_known resolved (known.mpr rfl)).not_refuses refuses
    · intro other
      refine refuses_of_unknown resolved (Option.eq_none_iff_forall_ne_some.mpr ?_)
      intro n found
      exact other n (known.mp found)

/-- A method whose name has a colon, so that its identifier starts like that of a native method. -/
private def colonInName : ClassFile :=
  { ClassFile.empty with
    pool := [.unused, .utf8 (utf8 "java/io/PrintStream"), .classInfo 1, .utf8 (utf8 "println:(I)V"),
      .utf8 [], .nameAndType 3 4, .methodref 2 5] }

theorem invokevirtual_calls_iff_colon :
    ∃ method, colonInName.resolveMethodref 6 = .ok method ∧ Refuses colonInName 6 method ∧
      (Fault.unknownMethod method).detail = utf8 "java/io/PrintStream.println:(I)V:" := by
  have resolved : colonInName.resolveMethodref 6 =
      .ok ⟨utf8 "java/io/PrintStream", utf8 "println:(I)V", []⟩ := rfl
  have other : ∀ n : Native,
      (⟨utf8 "java/io/PrintStream", utf8 "println:(I)V", []⟩ : MemberRef) ≠ n.method := by
    intro n
    cases n <;> decide
  exact ⟨_, resolved, (invokevirtual_calls_iff _ _ _ resolved).2.1.mpr other, by decide⟩

end Machine

end Jvm
