import Jvm.Proofs.Arithmetic
import Jvm.Proofs.Execution
import Mathlib.Algebra.Order.Group.Int
import Mathlib.Data.Int.ModEq
import Mathlib.Tactic.Common
import Mathlib.Tactic.Ring

/-!
What integer instructions compute, as integers. A remainder is the exact one of a division that rounds
toward zero, for all operands. A local slot that is only incremented holds its first value plus all the
deltas, modulo 2^32: one increment adds its delta, the increments of a straight piece of code add up by
induction on the code, and those of any run by induction on the run.
-/

set_option autoImplicit false
set_option relaxedAutoImplicit false

namespace Jvm

/-! ## Remainders -/

namespace Machine

theorem remainder_exact (v1 : Int32) {v2 : Int32} (nonzero : v2 ≠ 0) :
    v1.toInt = v1.toInt.tdiv v2.toInt * v2.toInt + (remainder v1 v2).toInt ∧
      |(remainder v1 v2).toInt| < |v2.toInt| ∧
      ((remainder v1 v2).toInt = 0 ∨ (remainder v1 v2).toInt.sign = v1.toInt.sign) := by
  have divisor : v2.toInt ≠ 0 := fun zero => nonzero (Int32.toInt_inj.mp zero)
  rw [toInt_remainder]
  refine ⟨(Int.tdiv_mul_add_tmod _ _).symm, ?_, ?_⟩
  · rw [Int.abs_eq_natAbs, Int.abs_eq_natAbs, Int.natAbs_tmod]
    exact Int.ofNat_lt.mpr (Nat.mod_lt _ (Int.natAbs_pos.mpr divisor))
  · by_cases divides : v2.toInt ∣ v1.toInt
    · exact .inl (Int.tmod_eq_zero_of_dvd divides)
    · exact .inr (by rw [Int.sign_tmod, if_neg divides])

theorem executeByte_irem (c : ClassFile) {m : Machine} {v1 v2 : Int32} {rest : List Value}
    (top : m.frame.stack = .int v2 :: .int v1 :: rest) (nonzero : v2 ≠ 0) :
    executeByte c Opcode.irem.byte m =
      .ok false { m with frame := { m.frame with stack := .int (remainder v1 v2) :: rest } } := by
  obtain ⟨⟨code, pc, stack, locals⟩, sink⟩ := m
  cases top
  -- The instruction has no operands, so it can be taken to stand one byte before the position.
  have there : Frame.HasOperands ⟨code, pc - 1, .int v2 :: .int v1 :: rest, locals⟩ .irem := by
    intro i low high
    have width : (Opcode.irem.width : Int) = 1 := rfl
    dsimp only at low high
    omega
  have executed := (execute_eq_ok_iff (c := c) (m := ⟨_, sink⟩) there).mpr (.irem v2 v1 rest rfl nonzero)
  change execute c .irem _ = _
  simpa [pass, behind, moved, Opcode.width, Opcode.layout] using executed

end Machine

/-! ## Increments -/

theorem toInt_add_modEq (n : Int32) (delta : Int8) :
    (n + delta.toInt32).toInt ≡ n.toInt + delta.toInt [ZMOD 2 ^ 32] := by
  rw [Int32.toInt_add, Int8.toInt_toInt32]
  exact Int.bmod_emod

def increments (slot : UInt8) (deltas : List Int8) : Bytes :=
  deltas.flatMap fun delta => [Opcode.iinc.byte, slot, delta.toUInt8]

theorem length_increments (slot : UInt8) (deltas : List Int8) :
    (increments slot deltas).length = 3 * deltas.length := by
  simp [increments, Nat.mul_comm]

namespace Machine

/-- The machine behind some increments, which have left a number in their slot. -/
def incremented (m : Machine) (slot : UInt8) (count : Nat) (n : Int32) : Machine :=
  (m.moved (m.frame.pc + 3 * count) m.frame.stack).stored slot.toNat (.int n)

theorem incremented_zero {m : Machine} {slot : UInt8} {n : Int32}
    (present : m.frame.locals[slot.toNat]? = some (.int n)) : m.incremented slot 0 n = m := by
  obtain ⟨⟨code, pc, stack, locals⟩, sink⟩ := m
  obtain ⟨inside, same⟩ := List.getElem?_eq_some_iff.mp present
  simp [incremented, moved, stored, ← same]

theorem incremented_incremented (m : Machine) (slot : UInt8) (count count' : Nat) (n n' : Int32) :
    (m.incremented slot count n).incremented slot count' n' =
      m.incremented slot (count + count') n' := by
  simp [incremented, moved, stored, Int.mul_add, Int.add_assoc]

theorem steps_increment {c : ClassFile} {m : Machine} {before after : Bytes} {slot : UInt8}
    {delta : Int8} {n : Int32} (code : m.frame.code = before ++ increments slot [delta] ++ after)
    (here : m.frame.pc = before.length) (started : codeStart ≤ before.length)
    (present : m.frame.locals[slot.toNat]? = some (.int n)) :
    fetch m.frame.code m.frame.pc = .ok .iinc ∧
      Does c m .iinc false (m.incremented slot 1 (n + delta.toInt32)) := by
  have byte (i : Nat) : m.frame.code[before.length + i]? = (increments slot [delta] ++ after)[i]? := by
    rw [code, List.append_assoc, List.getElem?_append_right (Nat.le_add_right _ _),
      Nat.add_sub_cancel_left]
  have operand (i : Nat) : m.frame.byteAt? (m.frame.pc + i) = (increments slot [delta] ++ after)[i]? := by
    rw [here]
    exact byte i
  refine ⟨fetch_eq_ok_iff.mpr ⟨before.length, here, started, byte 0, ?_⟩, ?_⟩
  · rw [code, List.length_append, List.length_append, length_increments]
    exact Nat.le_add_right _ _
  · have does := Does.iinc (c := c) slot delta.toUInt8 n (operand 1) (operand 2) present
    rw [Int8.toInt8_toUInt8] at does
    exact does

end Machine

namespace Progress

variable {c : ClassFile} {maxSteps : Int}

theorem advances_increments {p : Progress} {before after : Bytes} {slot : UInt8}
    {deltas : List Int8} {n : Int32}
    (code : p.machine.frame.code = before ++ increments slot deltas ++ after)
    (here : p.machine.frame.pc = before.length) (started : codeStart ≤ before.length)
    (present : p.machine.frame.locals[slot.toNat]? = some (.int n))
    (allowed : maxSteps ≤ 0 ∨ (p.steps + deltas.length : Nat) ≤ maxSteps) :
    ∃ q n', Advances c maxSteps p deltas.length q ∧
      q.machine = p.machine.incremented slot deltas.length n' ∧
      n'.toInt ≡ n.toInt + (deltas.map Int8.toInt).sum [ZMOD 2 ^ 32] := by
  induction deltas generalizing p before n with
  | nil =>
    refine ⟨p, n, .zero, (Machine.incremented_zero present).symm, ?_⟩
    simp [Int.ModEq]
  | cons delta deltas ih =>
    have split : before ++ increments slot (delta :: deltas) ++ after =
        before ++ increments slot [delta] ++ (increments slot deltas ++ after) := by
      simp [increments]
    rw [split] at code
    obtain ⟨fetched, does⟩ := Machine.steps_increment (c := c) code here started present
    have below : limitReached maxSteps p.steps = false := by
      rw [List.length_cons] at allowed
      simp only [limitReached, Bool.and_eq_false_iff, decide_eq_false_iff_not]
      omega
    have first := round_eq_next_iff.mpr ⟨.iinc, _, fetched, below, does, rfl⟩
    -- The others stand behind the first one, and find its result in the slot.
    let p' := p.record .iinc (p.machine.incremented slot 1 (n + delta.toInt32))
    have here' : p'.machine.frame.pc = (before ++ increments slot [delta]).length := by
      change p.machine.frame.pc + 3 * (1 : Nat) = _
      rw [here, List.length_append, length_increments]
      simp
    have present' : p'.machine.frame.locals[slot.toNat]? = some (.int (n + delta.toInt32)) :=
      List.getElem?_set_self (List.getElem?_eq_some_iff.mp present).1
    have allowed' : maxSteps ≤ 0 ∨ (p'.steps + deltas.length : Nat) ≤ maxSteps := by
      change _ ∨ ((p.steps + 1 + deltas.length : Nat) : Int) ≤ _
      rw [List.length_cons] at allowed
      omega
    obtain ⟨q, n', others, reached, sum⟩ := ih (p := p') (code.trans (List.append_assoc _ _ _).symm)
      here' (started.trans (by simp)) present' allowed'
    refine ⟨q, n', .cons first others, ?_, ?_⟩
    · rw [reached]
      change Machine.incremented (Machine.incremented _ _ _ _) _ _ _ = _
      rw [Machine.incremented_incremented, List.length_cons, Nat.add_comm]
    · calc
        n'.toInt ≡ (n + delta.toInt32).toInt + (deltas.map Int8.toInt).sum [ZMOD 2 ^ 32] := sum
        _ ≡ n.toInt + delta.toInt + (deltas.map Int8.toInt).sum [ZMOD 2 ^ 32] :=
          (toInt_add_modEq n delta).add_right _
        _ = n.toInt + ((delta :: deltas).map Int8.toInt).sum := by
          rw [List.map_cons, List.sum_cons, Int.add_assoc]

end Progress

/-! ## Increments in any run -/

namespace TraceEntry

/-- What an observed instruction adds to a slot: the delta of an increment of the slot, else zero. -/
def delta (slot : Nat) (e : TraceEntry) : Int8 :=
  if e.opcode = Opcode.iinc.byte ∧ (e.frame.byteAt? (e.pc + 1)).map UInt8.toNat = some slot then
    ((e.frame.byteAt? (e.pc + 2)).map UInt8.toInt8).getD 0
  else 0

def Stores (slot : Nat) (e : TraceEntry) : Prop := e.opcode = Opcode.istore1.byte ∧ slot = 1

theorem delta_of_other {slot : Nat} {op : Opcode} (other : op ≠ .iinc) (f : Frame) :
    delta slot ⟨op.byte, f⟩ = 0 :=
  if_neg fun increment => other (Opcode.byte_injective increment.1)

theorem delta_of_elsewhere {slot : Nat} {slot' : UInt8} {op : Opcode} {f : Frame}
    (operand : f.byteAt? (f.pc + 1) = some slot') (elsewhere : slot'.toNat ≠ slot) :
    delta slot ⟨op.byte, f⟩ = 0 := by
  refine if_neg fun increment => elsewhere ?_
  have same : (f.byteAt? (f.pc + 1)).map UInt8.toNat = some slot := increment.2
  rw [operand] at same
  exact Option.some.inj same

theorem delta_of_increment {slot delta' : UInt8} {f : Frame}
    (first : f.byteAt? (f.pc + 1) = some slot) (second : f.byteAt? (f.pc + 2) = some delta') :
    delta slot.toNat ⟨Opcode.iinc.byte, f⟩ = delta'.toInt8 := by
  rw [delta, pc, first, second]
  exact if_pos ⟨rfl, rfl⟩

end TraceEntry

namespace Machine

variable {c : ClassFile} {m m' : Machine} {op : Opcode} {slot : Nat} {n : Int32}

theorem Does.local_eq {returned : Bool} (does : Does c m op returned m')
    (present : m.frame.locals[slot]? = some (.int n))
    (unstored : ¬ TraceEntry.Stores slot ⟨op.byte, m.frame⟩) :
    m'.frame.locals[slot]? =
      some (.int (n + (TraceEntry.delta slot ⟨op.byte, m.frame⟩).toInt32)) := by
  have kept {op : Opcode} (nothing : TraceEntry.delta slot ⟨op.byte, m.frame⟩ = 0) :
      m.frame.locals[slot]? =
        some (.int (n + (TraceEntry.delta slot ⟨op.byte, m.frame⟩).toInt32)) := by
    rw [nothing, present]
    exact congrArg (some <| Value.int ·) (Int32.add_zero n).symm
  cases does with
  | istore1 v rest top fits =>
    have elsewhere : (1 : Nat) ≠ slot := fun same => unstored ⟨rfl, same.symm⟩
    exact (List.getElem?_set_ne elsewhere).trans (kept (TraceEntry.delta_of_other (by decide) _))
  | iinc slot' delta n' first second present' =>
    by_cases same : slot'.toNat = slot
    · subst same
      rw [TraceEntry.delta_of_increment first second]
      rw [present] at present'
      cases present'
      exact List.getElem?_set_self (List.getElem?_eq_some_iff.mp present).1
    · exact (List.getElem?_set_ne same).trans (kept (TraceEntry.delta_of_elsewhere first same))
  | _ => exact kept (TraceEntry.delta_of_other (by decide) _)

theorem Faults.delta_eq_zero {e : Fault} {left : List Value} (faults : Faults c m op e left)
    (present : m.frame.locals[slot]? = some (.int n)) :
    TraceEntry.delta slot ⟨op.byte, m.frame⟩ = 0 := by
  cases faults with
  | iincAbsent slot' operand absent =>
    refine TraceEntry.delta_of_elsewhere operand ?_
    rintro rfl
    rw [List.getElem?_eq_none absent] at present
    cases present
  | iincKind slot' v operand present' other =>
    refine TraceEntry.delta_of_elsewhere operand ?_
    rintro rfl
    rw [present] at present'
    cases present'
    exact other rfl
  | _ => exact TraceEntry.delta_of_other (by decide) _

end Machine

namespace Progress

variable {c : ClassFile} {maxSteps : Int}

/-- In every state that shows in a run, a slot in which nothing was stored since holds the integer from
the start plus all that the observed instructions have added to it. -/
theorem Shows.local_modEq {m : Machine} {q : Progress} {slot : Nat} {n : Int32}
    (shown : Shows c maxSteps (.start m) q) (present : m.frame.locals[slot]? = some (.int n))
    (unstored : ∀ e ∈ q.trace, ¬ e.Stores slot) :
    ∃ n', q.machine.frame.locals[slot]? = some (.int n') ∧
      n'.toInt ≡ n.toInt + (q.trace.map fun e => (e.delta slot).toInt).sum [ZMOD 2 ^ 32] := by
  revert unstored
  -- The invariant is the statement itself; a step adds one observed instruction.
  refine Shows.invariant (P := fun q => (∀ e ∈ q.trace, ¬ e.Stores slot) →
    ∃ n', q.machine.frame.locals[slot]? = some (.int n') ∧
      n'.toInt ≡ n.toInt + (q.trace.map fun e => (e.delta slot).toInt).sum [ZMOD 2 ^ 32])
    (fun _ => ⟨n, present, by simp [start, trace]⟩) (fun q q' ih step unstored => ?_) shown
  cases step with
  | does op returned m' fetched does =>
    rw [trace_record] at unstored ⊢
    obtain ⟨before, last⟩ := List.forall_mem_append.mp unstored
    obtain ⟨n', present', sum⟩ := ih before
    refine ⟨_, does.local_eq present' (last _ (List.mem_singleton.mpr rfl)), ?_⟩
    rw [List.map_append, List.sum_append, List.map_singleton, List.sum_singleton, ← Int.add_assoc]
    exact (toInt_add_modEq n' _).trans (sum.add_right _)
  | faults op f left fetched faults =>
    rw [trace_record] at unstored ⊢
    obtain ⟨n', present', sum⟩ := ih (List.forall_mem_append.mp unstored).1
    refine ⟨n', present', ?_⟩
    rw [List.map_append, List.sum_append, List.map_singleton, List.sum_singleton,
      faults.delta_eq_zero present', Int8.toInt_zero, Int.add_zero]
    exact sum

end Progress

open Progress (Advances Shows)

namespace Machine

/-- The integer instructions compute in 32 bits what is meant. A remainder by a divisor other than zero
is the exact remainder, with the sign of the dividend. A run goes through a straight piece of increments
of a slot, wherever it stands in the code, and leaves in the slot the 32-bit integer that is congruent to
the value before plus the sum of the deltas. And in any run, whatever stands between the increments, a
slot that is not stored to holds the integer congruent to its first value plus all that was added. -/
theorem integer_results (c : ClassFile) :
    (∀ (m : Machine) (v1 v2 : Int32) (rest : List Value),
      m.frame.stack = .int v2 :: .int v1 :: rest → v2 ≠ 0 →
      ∃ r : Int32,
        executeByte c 0x70 m =
          .ok false { m with frame := { m.frame with stack := .int r :: rest } } ∧
        (∃ q : Int, v1.toInt = q * v2.toInt + r.toInt) ∧ |r.toInt| < |v2.toInt| ∧
        (r.toInt = 0 ∨ r.toInt.sign = v1.toInt.sign)) ∧
    (∀ (maxSteps : Int) (p : Progress) (before after : Bytes) (slot : UInt8) (deltas : List Int8)
      (n : Int32), p.machine.frame.code = before ++ increments slot deltas ++ after →
      p.machine.frame.pc = before.length → codeStart ≤ before.length →
      p.machine.frame.locals[slot.toNat]? = some (.int n) →
      maxSteps ≤ 0 ∨ (p.steps + deltas.length : Nat) ≤ maxSteps →
      ∃ q n', Advances c maxSteps p deltas.length q ∧
        q.machine = p.machine.incremented slot deltas.length n' ∧
        n'.toInt ≡ n.toInt + (deltas.map Int8.toInt).sum [ZMOD 2 ^ 32]) ∧
    ∀ (maxSteps : Int) (m : Machine) (q : Progress) (slot : Nat) (n : Int32),
      Shows c maxSteps (.start m) q → m.frame.locals[slot]? = some (.int n) →
      (∀ e ∈ q.trace, ¬ e.Stores slot) →
      ∃ n', q.machine.frame.locals[slot]? = some (.int n') ∧
        n'.toInt ≡ n.toInt + (q.trace.map fun e => (e.delta slot).toInt).sum [ZMOD 2 ^ 32] := by
  refine ⟨?_, ?_, ?_⟩
  · intro m v1 v2 rest top nonzero
    obtain ⟨exact_eq, small, sign⟩ := remainder_exact v1 nonzero
    exact ⟨_, executeByte_irem c top nonzero, ⟨_, exact_eq⟩, small, sign⟩
  · intro maxSteps p before after slot deltas n code here started present allowed
    exact Progress.advances_increments code here started present allowed
  · intro maxSteps m q slot n shown present unstored
    exact shown.local_modEq present unstored

/-- Three increments of slot 0, by 127 twice and by -128 behind a branch, of the largest integer. On the
stack lie -1 and below it the least integer, whose quotient wraps around. -/
private def counting : Machine where
  frame :=
    { code := List.replicate 8 0 ++ increments 0 [127, 127] ++ [0xA7, 0, 3, 0x84, 0, 0x80, 0xB1]
      pc := 8
      stack := [.int (-1), .int (-2147483648)]
      locals := [.int 2147483647] }
  sink := .unlimited

theorem integer_results_at_limits :
    (∃ r : Int32,
      executeByte .empty 0x70 counting =
        .ok false { counting with frame := { counting.frame with stack := [.int r] } } ∧
      |r.toInt| < 1) ∧
    (∃ q n', Advances .empty 0 (.start counting) 2 q ∧
      q.machine = counting.incremented 0 2 n' ∧ n'.toInt ≡ 2147483647 + 254 [ZMOD 2 ^ 32]) ∧
    ∃ e, (Progress.start counting).run .empty 0 5 = some e ∧ e.error = none ∧
      ∃ n', e.progress.machine.frame.locals[0]? = some (.int n') ∧
        n'.toInt ≡ 2147483647 + 126 [ZMOD 2 ^ 32] := by
  obtain ⟨remainders, straight, runs⟩ := integer_results .empty
  refine ⟨?_, ?_, ?_⟩
  · obtain ⟨r, executed, _, small, _⟩ :=
      remainders counting (-2147483648) (-1) [] rfl (by decide)
    exact ⟨r, executed, small⟩
  · exact straight 0 (.start counting) (List.replicate 8 0) _ 0 [127, 127] 2147483647 rfl rfl
      (by decide) rfl (.inl (by decide))
  · obtain ⟨e, ran⟩ : ∃ e, (Progress.start counting).run .empty 0 5 = some e :=
      Option.isSome_iff_exists.mp (by decide)
    have outcome : ((Progress.start counting).run .empty 0 5).map (fun e =>
        (e.error, (e.progress.trace.map fun e => (e.delta 0).toInt).sum)) = some (none, 126) := by
      decide
    rw [ran, Option.map_some, Option.some.injEq, Prod.mk.injEq] at outcome
    obtain ⟨n', present, sum⟩ := runs 0 counting e.progress 0 2147483647
      (Progress.shows_of_run ran) rfl fun _ _ stores => absurd stores.2 (by decide)
    rw [outcome.2] at sum
    exact ⟨e, ran, outcome.1, n', present, sum⟩

end Machine

end Jvm
