import Jvm.Proofs.Execution
import Mathlib.Tactic.Common

/-!
What an error says about the state it ends a run in. For every kind of fault there is a condition on
the frame, the pool and the sink just before the instruction; the run ends with that kind of fault
exactly when the condition holds. The order of an instruction's checks shows in the conditions: values
are popped top first, and each is looked at before the next one is popped.
-/

set_option autoImplicit false
set_option relaxedAutoImplicit false

namespace Jvm

namespace Frame

def Fetches (f : Frame) (b : UInt8) : Prop := (codeStart : Int) ≤ f.pc ∧ f.byteAt? f.pc = some b

def callee? (c : ClassFile) (f : Frame) : Option Native := do
  let index <- f.u16At? (f.pc + 1)
  let method <- (c.resolveMethodref index).toOption
  Native.ofId? method.id

/-- The kinds of the values that an instruction pops, the top first; none stands for any kind. -/
def pops (c : ClassFile) (f : Frame) : Opcode -> List (Option Kind)
  | .istore1 => [none]
  | .irem | .ifIcmpgt => [some .int, some .int]
  | .ifne => [some .int]
  | .invokevirtual => ((f.callee? c).elim [] Native.pops).map some
  | _ => []

/-- Some value on the stack is not of the kind that is popped there. -/
def Mismatch (kinds : List (Option Kind)) (stack : List Value) : Prop :=
  ∃ (i : Nat) (v : Value) (kind : Kind),
    stack[i]? = some v ∧ kinds[i]? = some (some kind) ∧ v.kind ≠ kind

theorem not_mismatch_nil (kinds : List (Option Kind)) : ¬ Mismatch kinds [] := by
  simp [Mismatch]

theorem mismatch_cons {kind : Option Kind} {kinds : List (Option Kind)} {v : Value}
    {rest : List Value} :
    Mismatch (kind :: kinds) (v :: rest) ↔ (∃ k, kind = some k ∧ v.kind ≠ k) ∨ Mismatch kinds rest := by
  constructor
  · rintro ⟨i, v', k, value, wanted, other⟩
    cases i with
    | zero =>
      obtain rfl : v = v' := by simpa using value
      exact .inl ⟨k, by simpa using wanted, other⟩
    | succ i => exact .inr ⟨i, v', k, by simpa using value, by simpa using wanted, other⟩
  · rintro (⟨k, rfl, other⟩ | ⟨i, v', k, value, wanted, other⟩)
    · exact ⟨0, v, k, rfl, rfl, other⟩
    · exact ⟨i + 1, v', k, by simpa using value, by simpa using wanted, other⟩

theorem Unpoppable.cause {kinds : List Kind} {stack left : List Value} {e : Fault}
    (top : Unpoppable kinds stack e left) :
    (e.cause? = some .stackUnderflow ∧ stack.length < kinds.length ∧
      ¬ Mismatch (kinds.map some) stack) ∨
    (e.cause? = some .typeMismatch ∧ Mismatch (kinds.map some) stack) := by
  induction top with
  | underflow => exact .inl ⟨rfl, by simp, not_mismatch_nil _⟩
  | @wrong kind kinds v rest other => exact .inr ⟨rfl, mismatch_cons.mpr (.inl ⟨kind, rfl, other⟩)⟩
  | @later kind kinds v rest left e right deeper ih =>
    have shifted : Mismatch ((kind :: kinds).map some) (v :: rest) ↔
        Mismatch (kinds.map some) rest := by
      rw [List.map_cons, mismatch_cons]
      simp [right]
    rw [shifted]
    simpa using ih

theorem exists_unpoppable {kinds : List Kind} {stack : List Value}
    (bad : stack.length < kinds.length ∨ Mismatch (kinds.map some) stack) :
    ∃ e left, Unpoppable kinds stack e left := by
  induction kinds generalizing stack with
  | nil =>
    rcases bad with short | ⟨i, v, kind, _, wanted, _⟩
    · exact (Nat.not_lt_zero _ short).elim
    · simp at wanted
  | cons kind kinds ih =>
    cases stack with
    | nil => exact ⟨_, _, .underflow⟩
    | cons v rest =>
      by_cases right : v.kind = kind
      · have deeper : rest.length < kinds.length ∨ Mismatch (kinds.map some) rest := by
          rcases bad with short | mismatch
          · exact .inl (by simpa using short)
          · rw [List.map_cons, mismatch_cons] at mismatch
            exact .inr (by simpa [right] using mismatch)
        obtain ⟨e, left, top⟩ := ih deeper
        exact ⟨e, left, .later right top⟩
      · exact ⟨_, _, .wrong right⟩

end Frame

namespace Machine

/-- An instruction that is executed on the machine has reason to fault with a cause. The fault
without a cause is that of a sink that refuses the line to print. -/
def Warrants (c : ClassFile) (m : Machine) (op : Opcode) : Option Cause -> Prop
  | some .stackUnderflow => m.frame.stack.length < (m.frame.pops c op).length ∧
      ¬ Frame.Mismatch (m.frame.pops c op) m.frame.stack
  | some .typeMismatch => Frame.Mismatch (m.frame.pops c op) m.frame.stack ∨
      op = .iinc ∧ ∃ (slot : UInt8) (v : Value), m.frame.byteAt? (m.frame.pc + 1) = some slot ∧
        m.frame.locals[slot.toNat]? = some v ∧ v.kind ≠ .int
  | some .divideByZero => op = .irem ∧
      ∃ (v1 : Int32) (rest : List Value), m.frame.stack = .int 0 :: .int v1 :: rest
  | some .badLocal => (op = .iload1 ∨ op = .istore1 ∧ m.frame.stack ≠ []) ∧
        m.frame.locals.length ≤ 1 ∨
      op = .iinc ∧ ∃ slot : UInt8, m.frame.byteAt? (m.frame.pc + 1) = some slot ∧
        m.frame.locals.length ≤ slot.toNat
  | some .badConstant => (op = .ldc ∧ ∃ index : UInt8, m.frame.byteAt? (m.frame.pc + 1) = some index ∧
        ∀ text, c.resolveString index.toUInt16 ≠ .ok text) ∨
      op = .invokevirtual ∧ ∃ index, m.frame.u16At? (m.frame.pc + 1) = some index ∧
        ∀ method, c.resolveMethodref index ≠ .ok method
  | some .unknownMethod => op = .invokevirtual ∧
      ∃ index method, m.frame.u16At? (m.frame.pc + 1) = some index ∧
        c.resolveMethodref index = .ok method ∧ Native.ofId? method.id = none
  | none => op = .invokevirtual ∧ ∃ n line rest, m.frame.callee? c = some n ∧
      n.line? m.frame.stack = some (line, rest) ∧ m.sink.println? line = none
  | _ => False

variable {c : ClassFile} {m m' : Machine} {op : Opcode} {e : Fault} {left : List Value}
  {kind : Option Cause}

theorem callee?_of_resolved {index : UInt16} {method : MemberRef} {n : Native}
    (operand : m.frame.u16At? (m.frame.pc + 1) = some index)
    (resolved : c.resolveMethodref index = .ok method) (known : Native.ofId? method.id = some n) :
    m.frame.callee? c = some n := by
  simp [Frame.callee?, operand, resolved, Except.toOption, known]

private theorem resolved_of_callee? {n : Native} (called : m.frame.callee? c = some n) :
    ∃ index method, m.frame.u16At? (m.frame.pc + 1) = some index ∧
      c.resolveMethodref index = .ok method ∧ Native.ofId? method.id = some n := by
  unfold Frame.callee? at called
  obtain ⟨index, operand, rest⟩ := Option.bind_eq_some_iff.mp called
  obtain ⟨method, resolved, known⟩ := Option.bind_eq_some_iff.mp rest
  refine ⟨index, method, operand, ?_, known⟩
  cases outcome : c.resolveMethodref index with
  | error e => simp [outcome, Except.toOption] at resolved
  | ok method' => simpa [outcome, Except.toOption] using resolved

private theorem warrants_of_unpoppable {kinds : List Kind} (popped : m.frame.pops c op = kinds.map some)
    (top : Frame.Unpoppable kinds m.frame.stack e left) : m.Warrants c op e.cause? := by
  rcases top.cause with ⟨cause, short, none⟩ | ⟨cause, mismatch⟩
  · rw [cause]
    refine ⟨?_, ?_⟩
    · rw [popped, List.length_map]
      exact short
    · rw [popped]
      exact none
  · rw [cause]
    exact .inl (popped ▸ mismatch)

theorem Faults.warranted (faults : Faults c m op e left) : m.Warrants c op e.cause? := by
  cases faults with
  | ldc index e operand unresolved => exact .inl ⟨rfl, index, operand, by simp [unresolved]⟩
  | iload1 absent => exact .inl ⟨.inl rfl, absent⟩
  | istore1Underflow empty =>
    refine ⟨?_, ?_⟩
    · simp [empty, Frame.pops]
    · rw [empty]
      exact Frame.not_mismatch_nil _
  | istore1 v rest top absent => exact .inl ⟨.inr ⟨rfl, by simp [top]⟩, absent⟩
  | iincAbsent slot operand absent => exact .inr ⟨rfl, slot, operand, absent⟩
  | iincKind slot v operand present other => exact .inr ⟨rfl, slot, v, operand, present, other⟩
  | irem e left top => exact warrants_of_unpoppable rfl top
  | iremZero v1 _ top => exact ⟨rfl, v1, _, top⟩
  | ifne e left top => exact warrants_of_unpoppable rfl top
  | ifIcmpgt e left top => exact warrants_of_unpoppable rfl top
  | unresolved index e operand unresolved => exact .inr ⟨rfl, index, operand, by simp [unresolved]⟩
  | unknown index method operand resolved unknown =>
    exact ⟨rfl, index, method, operand, resolved, unknown⟩
  | unpopped index method n e left operand resolved known top =>
    have called := callee?_of_resolved operand resolved known
    have popped : m.frame.pops c .invokevirtual = n.pops.map some := by
      simp [Frame.pops, called]
    exact warrants_of_unpoppable (e := e) popped top
  | refused index method n line _ operand resolved known top refused =>
    exact ⟨rfl, n, line, _, callee?_of_resolved operand resolved known, top, refused⟩

private theorem faults_of_unpoppable {kinds : List Kind}
    (popped : m.frame.pops c op = kinds.map some)
    (faults : ∀ e left, Frame.Unpoppable kinds m.frame.stack e left →
      ∃ e', Faults c m op e' left ∧ e'.cause? = e.cause?)
    (bad : m.frame.stack.length < (m.frame.pops c op).length ∨
      Frame.Mismatch (m.frame.pops c op) m.frame.stack) :
    ∃ e left, Faults c m op e left ∧
      (Frame.Mismatch (m.frame.pops c op) m.frame.stack → e.cause? = some .typeMismatch) ∧
      (¬ Frame.Mismatch (m.frame.pops c op) m.frame.stack → e.cause? = some .stackUnderflow) := by
  rw [popped, List.length_map] at bad
  obtain ⟨e, left, top⟩ := Frame.exists_unpoppable bad
  obtain ⟨e', faulted, same⟩ := faults e left top
  refine ⟨e', left, faulted, ?_⟩
  rw [popped, same]
  rcases top.cause with ⟨cause, _, none⟩ | ⟨cause, mismatch⟩
  · exact ⟨fun mismatch => (none mismatch).elim, fun _ => cause⟩
  · exact ⟨fun _ => cause, fun none => (none mismatch).elim⟩

private theorem faults_of_pops
    (bad : m.frame.stack.length < (m.frame.pops c op).length ∨
      Frame.Mismatch (m.frame.pops c op) m.frame.stack) :
    ∃ e left, Faults c m op e left ∧
      (Frame.Mismatch (m.frame.pops c op) m.frame.stack → e.cause? = some .typeMismatch) ∧
      (¬ Frame.Mismatch (m.frame.pops c op) m.frame.stack → e.cause? = some .stackUnderflow) := by
  -- An instruction that pops nothing finds neither too few values nor a wrong one.
  have nothing (empty : m.frame.pops c op = []) : False := by
    rw [empty] at bad
    rcases bad with short | ⟨i, v, kind, _, wanted, _⟩
    · exact Nat.not_lt_zero _ short
    · simp at wanted
  cases op with
  | istore1 =>
    have empty : m.frame.stack = [] := by
      rcases bad with short | ⟨i, v, kind, _, wanted, _⟩
      · simpa [Frame.pops] using short
      · simp [Frame.pops, List.getElem?_singleton] at wanted
    refine ⟨_, _, .istore1Underflow empty, ?_, fun _ => rfl⟩
    rw [empty]
    exact fun mismatch => (Frame.not_mismatch_nil _ mismatch).elim
  | irem => exact faults_of_unpoppable rfl (fun e left top => ⟨e, .irem e left top, rfl⟩) bad
  | ifne => exact faults_of_unpoppable rfl (fun e left top => ⟨e, .ifne e left top, rfl⟩) bad
  | ifIcmpgt =>
    exact faults_of_unpoppable rfl (fun e left top => ⟨e, .ifIcmpgt e left top, rfl⟩) bad
  | invokevirtual =>
    cases called : m.frame.callee? c with
    | none => exact (nothing (by simp [Frame.pops, called])).elim
    | some n =>
      obtain ⟨index, method, operand, resolved, known⟩ := resolved_of_callee? called
      have popped : m.frame.pops c .invokevirtual = n.pops.map some := by
        simp [Frame.pops, called]
      refine faults_of_unpoppable popped ?_ bad
      intro e left top
      exact ⟨_, .unpopped index method n e left operand resolved known top, rfl⟩
  | _ => exact (nothing rfl).elim

theorem Warrants.faults (warrants : m.Warrants c op kind) :
    ∃ e left, Faults c m op e left ∧ e.cause? = kind := by
  unfold Warrants at warrants
  split at warrants
  · obtain ⟨short, none⟩ := warrants
    obtain ⟨e, left, faults, _, cause⟩ := faults_of_pops (.inl short)
    exact ⟨e, left, faults, cause none⟩
  · rcases warrants with mismatch | ⟨rfl, slot, v, operand, present, other⟩
    · obtain ⟨e, left, faults, cause, _⟩ := faults_of_pops (.inr mismatch)
      exact ⟨e, left, faults, cause mismatch⟩
    · exact ⟨_, _, .iincKind slot v operand present other, rfl⟩
  · obtain ⟨rfl, v1, rest, top⟩ := warrants
    exact ⟨_, _, .iremZero v1 rest top, rfl⟩
  · rcases warrants with ⟨rfl | ⟨rfl, filled⟩, absent⟩ | ⟨rfl, slot, operand, absent⟩
    · exact ⟨_, _, .iload1 absent, rfl⟩
    · obtain ⟨v, rest, top⟩ := List.exists_cons_of_ne_nil filled
      exact ⟨_, _, .istore1 v rest top absent, rfl⟩
    · exact ⟨_, _, .iincAbsent slot operand absent, rfl⟩
  · rcases warrants with ⟨rfl, index, operand, unresolved⟩ | ⟨rfl, index, operand, unresolved⟩
    · cases outcome : c.resolveString index.toUInt16 with
      | ok text => exact (unresolved text outcome).elim
      | error e => exact ⟨_, _, .ldc index e operand outcome, rfl⟩
    · cases outcome : c.resolveMethodref index with
      | ok method => exact (unresolved method outcome).elim
      | error e => exact ⟨_, _, .unresolved index e operand outcome, rfl⟩
  · obtain ⟨rfl, index, method, operand, resolved, unknown⟩ := warrants
    exact ⟨_, _, .unknown index method operand resolved unknown, rfl⟩
  · obtain ⟨rfl, n, line, rest, called, top, refused⟩ := warrants
    obtain ⟨index, method, operand, resolved, known⟩ := resolved_of_callee? called
    exact ⟨_, _, .refused index method n line rest operand resolved known top refused, rfl⟩
  · exact warrants.elim

theorem Faults.eq_sinkFull (faults : Faults c m op e left) (none : e.cause? = none) :
    ∃ method, e = .inMethod method .sinkFull := by
  have caused {kinds : List Kind} {e : Fault} (top : Frame.Unpoppable kinds m.frame.stack e left)
      (none : e.cause? = .none) : False := by
    rcases top.cause with ⟨cause, _⟩ | ⟨cause, _⟩ <;> simp [cause] at none
  cases faults with
  | refused index method n line _ operand resolved known top refused => exact ⟨method, rfl⟩
  | irem e left top => exact (caused top none).elim
  | ifne e left top => exact (caused top none).elim
  | ifIcmpgt e left top => exact (caused top none).elim
  | unpopped index method n e left operand resolved known top => exact (caused top none).elim
  | _ => cases none

end Machine

/-! ## Rounds and runs -/

theorem limitReached_eq_true_iff {maxSteps : Int} {steps : Nat} :
    limitReached maxSteps steps = true ↔ 0 < maxSteps ∧ maxSteps ≤ steps := by
  simp [limitReached]

namespace Progress

/-- The run is at an instruction with all its operands. -/
def Ready (q : Progress) (op : Opcode) : Prop :=
  q.machine.frame.Fetches op.byte ∧
    q.machine.frame.pc + op.width ≤ q.machine.frame.code.length

/-- As many instructions have been executed as the limit allows. -/
def Spent (maxSteps : Int) (q : Progress) : Prop := 0 < maxSteps ∧ q.steps = maxSteps

/-- The next round has reason to end the run with a fault of a cause. An instruction is executed only
if the run is ready for it and the limit is not spent. -/
def Warrants (c : ClassFile) (maxSteps : Int) (q : Progress) : Option Cause -> Prop
  | some .codeOverrun =>
      (q.machine.frame.pc < codeStart ∨ (q.machine.frame.code.length : Int) ≤ q.machine.frame.pc) ∨
      ∃ op : Opcode, q.machine.frame.Fetches op.byte ∧
        q.machine.frame.code.length < q.machine.frame.pc + op.width
  | some .unsupportedOpcode => ∃ b, q.machine.frame.Fetches b ∧ ∀ op : Opcode, op.byte ≠ b
  | some .stepLimit => (∃ op, q.Ready op) ∧ q.Spent maxSteps
  | kind => ∃ op, q.Ready op ∧ ¬ q.Spent maxSteps ∧ q.machine.Warrants c op kind

variable {c : ClassFile} {maxSteps : Int} {p q : Progress} {op : Opcode} {kind : Option Cause}

theorem fetches_iff {b : UInt8} :
    q.machine.frame.Fetches b ↔ ∃ i : Nat, q.machine.frame.pc = i ∧ codeStart ≤ i ∧
      q.machine.frame.code[i]? = some b := by
  constructor
  · rintro ⟨started, byte⟩
    obtain ⟨i, here⟩ : ∃ i : Nat, q.machine.frame.pc = i := Int.eq_ofNat_of_zero_le (by omega)
    rw [here] at byte
    exact ⟨i, here, by omega, byte⟩
  · rintro ⟨i, here, started, byte⟩
    rw [Frame.Fetches, here]
    exact ⟨by omega, byte⟩

theorem ready_iff : q.Ready op ↔ q.fetched = .ok op := by
  rw [Ready, fetches_iff, fetched, fetch_eq_ok_iff]
  constructor
  · rintro ⟨⟨i, here, started, byte⟩, wide⟩
    exact ⟨i, here, started, byte, by omega⟩
  · rintro ⟨i, here, started, byte, wide⟩
    exact ⟨⟨i, here, started, byte⟩, by omega⟩

theorem Advances.steps_le {n : Nat} (run : Advances c maxSteps p n q) (positive : 0 < maxSteps)
    (first : (p.steps : Int) ≤ maxSteps) : (q.steps : Int) ≤ maxSteps := by
  cases run with
  | zero => exact first
  | @succ n q q' prior last =>
    obtain ⟨op, m, _, below, _, rfl⟩ := round_eq_next last
    have early : ¬ (0 < maxSteps ∧ maxSteps ≤ q.steps) := by
      rw [← limitReached_eq_true_iff, below]
      exact Bool.false_ne_true
    change ((q.steps + 1 : Nat) : Int) ≤ maxSteps
    omega

theorem limitReached_iff_spent (within : 0 < maxSteps → (q.steps : Int) ≤ maxSteps) :
    limitReached maxSteps q.steps = true ↔ q.Spent maxSteps := by
  rw [limitReached_eq_true_iff, Spent]
  omega

theorem warrants_of_executed (ready : q.Ready op) (unspent : ¬ q.Spent maxSteps)
    (warrants : q.machine.Warrants c op kind) : q.Warrants c maxSteps kind := by
  unfold Warrants
  split
  · exact warrants.elim
  · exact warrants.elim
  · exact warrants.elim
  · exact ⟨op, ready, unspent, warrants⟩

theorem Ends.warranted {q' : Progress} {e : ExecError}
    (within : 0 < maxSteps → (q.steps : Int) ≤ maxSteps) (ends : Ends c maxSteps q ⟨q', some e⟩) :
    e.pc = q.machine.frame.pc ∧ (∀ b, q.machine.frame.Fetches b → e.opcode = b) ∧
      q.Warrants c maxSteps e.fault.cause? ∧
      (e.fault.cause? = none → ∃ method, e.fault = .inMethod method .sinkFull) := by
  have same {b b' : UInt8} (here : q.machine.frame.Fetches b) (here' : q.machine.frame.Fetches b') :
      b = b' := Option.some.inj (here.2.symm.trans here'.2)
  cases ends with
  | unfetched e failed =>
    have possible := fetch_case q.machine.frame.code q.machine.frame.pc
    rw [show fetch _ _ = _ from failed] at possible
    cases possible with
    | outside outside =>
      refine ⟨rfl, ?_, .inl outside, by simp [Fault.cause?]⟩
      intro b here
      obtain ⟨i, here, started, byte⟩ := fetches_iff.mp here
      obtain ⟨inside, _⟩ := List.getElem?_eq_some_iff.mp byte
      omega
    | unknown i b here started byte unknown =>
      have fetches : q.machine.frame.Fetches b := fetches_iff.mpr ⟨i, here, started, byte⟩
      refine ⟨rfl, fun b' => same fetches, ⟨b, fetches, ?_⟩, by simp [Fault.cause?]⟩
      intro op known
      rw [Opcode.ofByte?_eq_some_iff.mpr known] at unknown
      cases unknown
    | truncated i op here started byte short =>
      have fetches : q.machine.frame.Fetches op.byte := fetches_iff.mpr ⟨i, here, started, byte⟩
      exact ⟨rfl, fun b' => same fetches, .inr ⟨op, fetches, by omega⟩, by simp [Fault.cause?]⟩
  | limited op fetched reached =>
    have ready := ready_iff.mpr fetched
    exact ⟨rfl, fun b' => same ready.1, ⟨⟨op, ready⟩, (limitReached_iff_spent within).mp reached⟩,
      by simp [Fault.cause?]⟩
  | faulted op f left fetched below faults =>
    have ready := ready_iff.mpr fetched
    have unspent : ¬ q.Spent maxSteps := by
      rw [← limitReached_iff_spent within, below]
      exact Bool.false_ne_true
    exact ⟨rfl, fun b' => same ready.1, warrants_of_executed ready unspent faults.warranted,
      faults.eq_sinkFull⟩

theorem Warrants.ended (within : 0 < maxSteps → (q.steps : Int) ≤ maxSteps)
    (warrants : q.Warrants c maxSteps kind) :
    ∃ q' e, q.round c maxSteps = .ended ⟨q', some e⟩ ∧ e.fault.cause? = kind := by
  unfold Warrants at warrants
  split at warrants
  · rcases warrants with outside | ⟨op, fetches, short⟩
    · exact ⟨q, _, round_of_unfetched (fetch_of_outside outside), rfl⟩
    · obtain ⟨i, here, started, byte⟩ := fetches_iff.mp fetches
      have failed : q.fetched = .error ⟨i, op.byte, .operandsTruncated⟩ := by
        rw [fetched, here]
        exact fetch_of_truncated started byte (by omega)
      exact ⟨q, _, round_of_unfetched failed, rfl⟩
  · obtain ⟨b, fetches, unknown⟩ := warrants
    obtain ⟨i, here, started, byte⟩ := fetches_iff.mp fetches
    have none : Opcode.ofByte? b = .none := by
      cases known : Opcode.ofByte? b with
      | none => rfl
      | some op => exact (unknown op (Opcode.ofByte?_eq_some_iff.mp known)).elim
    have failed : q.fetched = .error ⟨i, b, .unsupportedOpcode⟩ := by
      rw [fetched, here]
      exact fetch_of_unknown started byte none
    exact ⟨q, _, round_of_unfetched failed, rfl⟩
  · obtain ⟨⟨op, ready⟩, spent⟩ := warrants
    have reached := (limitReached_iff_spent within).mpr spent
    exact ⟨q, _, round_of_limit (ready_iff.mp ready) reached, rfl⟩
  · obtain ⟨op, ready, unspent, warrants⟩ := warrants
    obtain ⟨f, left, faults, cause⟩ := warrants.faults
    have below : limitReached maxSteps q.steps = false := by
      rw [← limitReached_iff_spent within] at unspent
      exact Bool.eq_false_iff.mpr unspent
    exact ⟨_, _, round_eq_ended_iff.mpr (.faulted op f left (ready_iff.mp ready) below faults), cause⟩

/-- The error of a run tells where and why it ended, whatever class, frame, sink and step limit it
started with. The position is that of the last round, the byte is the one there, and the cause is the
one that the state before that round warrants, and no other; only the sink's refusal has no cause of
its own. And a run that comes to a state that warrants a fault ends there with this fault. -/
theorem run_error_explained (c : ClassFile) (m : Machine) (maxSteps : Int) :
    (∀ rounds ended e, (start m).run c maxSteps rounds = some ended → ended.error = some e →
      ∃ n q, Advances c maxSteps (start m) n q ∧ q.round c maxSteps = .ended ended ∧ q.steps = n ∧
        e.pc = q.machine.frame.pc ∧ (∀ b, q.machine.frame.Fetches b → e.opcode = b) ∧
        (∀ kind, e.fault.cause? = kind ↔ q.Warrants c maxSteps kind) ∧
        (e.fault.cause? = none → ∃ method, e.fault = .inMethod method .sinkFull)) ∧
    (∀ n q kind, Advances c maxSteps (start m) n q → q.Warrants c maxSteps kind →
      ∃ ended e, (start m).run c maxSteps (n + 1) = some ended ∧ ended.error = some e ∧
        e.fault.cause? = kind) := by
  have within {n : Nat} {q : Progress} (run : Advances c maxSteps (start m) n q)
      (positive : 0 < maxSteps) : (q.steps : Int) ≤ maxSteps :=
    run.steps_le positive (Int.le_of_lt positive)
  constructor
  · rintro rounds ⟨last, error⟩ e ends rfl
    obtain ⟨n, q, _, run, ended⟩ := run_eq_some_iff.mp ends
    obtain ⟨position, byte, warranted, sink⟩ := (round_eq_ended_iff.mp ended).warranted (within run)
    have counted : q.steps = n := by rw [run.steps_eq, start, Nat.zero_add]
    refine ⟨n, q, run, ended, counted, position, byte, ?_, sink⟩
    intro kind
    constructor
    · rintro rfl
      exact warranted
    · intro warrants
      obtain ⟨last', e', ended', cause⟩ := warrants.ended (within run)
      rw [ended] at ended'
      cases ended'
      exact cause
  · intro n q kind run warrants
    obtain ⟨last, e, ended, cause⟩ := warrants.ended (within run)
    exact ⟨⟨last, some e⟩, e, run_eq_some_iff.mpr ⟨n, q, Nat.lt_succ_self n, run, ended⟩, rfl, cause⟩

private def loneZero : Machine :=
  { frame := { code := List.replicate 8 0 ++ [0x70], pc := 8, stack := [.int 0], locals := [] }
    sink := .unlimited }

/-- The dividend is popped before the divisor is looked at, so the stack is what is short. -/
theorem run_error_explained_lone_zero :
    ∃ q : Progress, q.machine.frame.pc = 8 ∧ q.Warrants .empty 0 (some .stackUnderflow) ∧
      ¬ q.Warrants .empty 0 (some .divideByZero) := by
  have ends : (start loneZero).run .empty 0 1 =
      some ⟨_, some ⟨8, Opcode.irem.byte, .stackUnderflow⟩⟩ := rfl
  obtain ⟨n, q, _, _, _, position, _, cause, _⟩ :=
    (run_error_explained .empty loneZero 0).1 1 _ _ ends rfl
  refine ⟨q, position.symm, (cause _).mp rfl, ?_⟩
  rw [← cause]
  decide

end Progress

end Jvm
