import Jvm.Proofs.Diagnosis
import Jvm.Proofs.Provenance
import Mathlib.Data.List.Infix
import Mathlib.Tactic.Common

/-!
What a fault leaves behind. An instruction that faults has changed neither the locals nor the code nor
the sink. Of the stack it has taken at most what it pops, and it has pushed nothing; where it faults
before it pops, the whole stack is left.
-/

set_option autoImplicit false
set_option relaxedAutoImplicit false

namespace Jvm

theorem Frame.Unpoppable.length_le {kinds : List Kind} {stack left : List Value} {e : Fault}
    (top : Unpoppable kinds stack e left) : stack.length ≤ left.length + kinds.length := by
  induction top with
  | underflow => simp
  | wrong other =>
    simp only [List.length_cons]
    omega
  | later right deeper ih =>
    simp only [List.length_cons]
    omega

theorem Frame.pops_length_le (c : ClassFile) (f : Frame) (op : Opcode) : (f.pops c op).length ≤ 2 := by
  cases op with
  | invokevirtual =>
    unfold pops
    cases f.callee? c with
    | none => simp
    | some n => cases n <;> simp [Native.pops]
  | _ => simp [pops]

namespace Machine

variable {c : ClassFile} {m m' : Machine} {op : Opcode} {e : Fault} {left : List Value}

theorem Faults.length_le (faults : Faults c m op e left) :
    m.frame.stack.length ≤ left.length + (m.frame.pops c op).length := by
  cases faults with
  | istore1Underflow empty => simp [empty]
  | istore1 v rest top absent => simp [top, Frame.pops]
  | irem e left top => exact top.length_le
  | iremZero v1 rest top => simp [top, Frame.pops]
  | ifne e left top => exact top.length_le
  | ifIcmpgt e left top => exact top.length_le
  | unpopped index method n e left operand resolved known top =>
    have called := callee?_of_resolved operand resolved known
    have bound := top.length_le
    simpa [Frame.pops, called] using bound
  | refused index method n line rest operand resolved known top refused =>
    have called := callee?_of_resolved operand resolved known
    have popped : n.pops.length = 2 := by cases n <;> rfl
    have counted := Native.line?_length top
    simp [Frame.pops, called, popped, counted]
  | _ => omega

/-- A constant that does not resolve, or a method that is not known, is noticed before anything is
popped. -/
theorem Warrants.pops_eq_nil {cause : Cause} (warrants : m.Warrants c op (some cause))
    (early : cause = .badConstant ∨ cause = .unknownMethod) : m.frame.pops c op = [] := by
  rcases early with rfl | rfl
  · rcases warrants with ⟨rfl, _⟩ | ⟨rfl, index, operand, unresolved⟩
    · rfl
    · cases outcome : c.resolveMethodref index with
      | ok method => exact (unresolved method outcome).elim
      | error e => simp [Frame.pops, Frame.callee?, operand, outcome, Except.toOption]
  · obtain ⟨rfl, index, method, operand, resolved, unknown⟩ := warrants
    simp [Frame.pops, Frame.callee?, operand, resolved, Except.toOption, unknown]

/-- A fault that comes before anything is popped. -/
def Early (b : UInt8) (e : Fault) : Prop :=
  e.cause? = some .unsupportedOpcode ∨ e.cause? = some .badConstant ∨
    e.cause? = some .unknownMethod ∨ b = Opcode.iload1.byte ∨ b = Opcode.iinc.byte

theorem Faults.pops_eq_nil (faults : Faults c m op e left) (early : Early op.byte e) :
    m.frame.pops c op = [] := by
  have warranted := faults.warranted
  rcases early with cause | cause | cause | byte | byte
  · rw [cause] at warranted
    exact warranted.elim
  · rw [cause] at warranted
    exact warranted.pops_eq_nil (.inl rfl)
  · rw [cause] at warranted
    exact warranted.pops_eq_nil (.inr rfl)
  · obtain rfl := Opcode.byte_injective byte
    rfl
  · obtain rfl := Opcode.byte_injective byte
    rfl

/-- An instruction that faults damages nothing but its own operands. The position of `m` is that of the
instruction's byte, and the operand bytes are in the code. Then the locals, the code and the sink are as
before, and the stack has lost at most two of its top values, and no more than the instruction pops. It
has lost none when the byte is no instruction, the constant does not resolve or the method is not known,
and none in a load or an increment. -/
theorem executeByte_error_takes_operands (c : ClassFile) (b : UInt8) (m m' : Machine) (e : Fault)
    (there : ∀ op, Opcode.ofByte? b = some op → m.frame.HasOperands op)
    (failed : executeByte c b m.pass = .error e m') :
    m'.frame.locals = m.frame.locals ∧ m'.frame.code = m.frame.code ∧ m'.sink = m.sink ∧
    ∃ r ≤ 2, r ≤ m.frame.stack.length ∧ m'.frame.stack = m.frame.stack.drop r ∧
      (∀ op, Opcode.ofByte? b = some op → r ≤ (m.frame.pops c op).length) ∧
      (Early b e → r = 0) := by
  unfold executeByte at failed
  cases known : Opcode.ofByte? b with
  | none =>
    rw [known] at failed
    cases failed
    exact ⟨rfl, rfl, rfl, 0, by omega, by omega, rfl, by simp, fun _ => rfl⟩
  | some op =>
    rw [known] at failed
    obtain ⟨left, rfl, faults⟩ := (execute_eq_error_iff (there op known)).mp failed
    have few := faults.length_le
    have two := Frame.pops_length_le c m.frame op
    have dropped := List.suffix_iff_eq_drop.mp faults.left_suffix
    refine ⟨rfl, rfl, rfl, m.frame.stack.length - left.length, by omega, by omega, dropped, ?_, ?_⟩
    · intro op' same
      obtain rfl := Option.some.inj same
      omega
    · intro early
      rw [← Opcode.ofByte?_eq_some_iff.mp known] at early
      rw [faults.pops_eq_nil early, List.length_nil] at few
      omega

/-- At a remainder by zero, with a text below its operands. -/
private def zeroDivisor : Machine :=
  { frame :=
      { code := List.replicate 8 0 ++ [0x70], pc := 8, stack := [.int 0, .int 7, .string (utf8 "s")],
        locals := [.void, .int 3] }
    sink := .unlimited }

theorem executeByte_error_takes_operands_zero :
    ∃ m', executeByte .empty 0x70 zeroDivisor.pass = .error (.divideByZero 7) m' ∧
      m'.frame.stack = [.string (utf8 "s")] ∧ m'.frame.locals = zeroDivisor.frame.locals ∧
      m'.sink = zeroDivisor.sink ∧
      ∃ r ≤ 2, m'.frame.stack = zeroDivisor.frame.stack.drop r := by
  have there : ∀ op, Opcode.ofByte? 0x70 = some op → zeroDivisor.frame.HasOperands op := by
    intro op known
    cases known
    intro i low high
    exact absurd high (Int.not_lt.mpr low)
  have failed : executeByte .empty 0x70 zeroDivisor.pass =
      .error (.divideByZero 7) (zeroDivisor.behind .irem [.string (utf8 "s")]) := rfl
  obtain ⟨locals, _, sink, r, few, _, stack, _⟩ :=
    executeByte_error_takes_operands .empty 0x70 zeroDivisor _ _ there failed
  exact ⟨_, failed, rfl, locals, sink, r, few, stack⟩

end Machine

end Jvm
