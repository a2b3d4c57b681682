import Jvm.Machine.Vm
import Jvm.Proofs.Instructions
import Mathlib.Data.List.Infix
import Mathlib.Tactic.Common

/-!
Rounds and runs in terms of what instructions do. The lists of what an instruction does and of its
faults are exact: no machine is in both, or in one of them twice, so what they list is what happens.
-/

set_option autoImplicit false
set_option relaxedAutoImplicit false

namespace Jvm

namespace Frame.Unpoppable

variable {kinds : List Kind} {stack left left' : List Value} {e e' : Fault}

theorem not_prefix (top : Unpoppable kinds stack e left) : ¬ kinds <+: stack.map Value.kind := by
  induction top with
  | underflow => simp
  | wrong other =>
    intro fits
    exact other (List.cons_prefix_cons.mp fits).1.symm
  | later right deeper ih =>
    intro fits
    exact ih (List.cons_prefix_cons.mp fits).2

theorem unique (top : Unpoppable kinds stack e left) (top' : Unpoppable kinds stack e' left') :
    e = e' ∧ left = left' := by
  induction top with
  | underflow =>
    cases top'
    exact ⟨rfl, rfl⟩
  | wrong other =>
    cases top' with
    | wrong _ => exact ⟨rfl, rfl⟩
    | later right _ => exact (other right).elim
  | later right deeper ih =>
    cases top' with
    | wrong other => exact (other right).elim
    | later _ deeper' => exact ih deeper'

end Frame.Unpoppable

theorem Native.pops_prefix {n : Native} {stack rest : List Value} {line : Bytes}
    (top : n.line? stack = some (line, rest)) : n.pops <+: stack.map Value.kind := by
  unfold Native.line? at top
  split at top
  · simp [Native.pops, Value.kind, List.cons_prefix_cons]
  · simp [Native.pops, Value.kind, List.cons_prefix_cons]
  · cases top

theorem Native.line?_length {n : Native} {stack rest : List Value} {line : Bytes}
    (top : n.line? stack = some (line, rest)) : stack.length = rest.length + 2 := by
  unfold Native.line? at top
  split at top
  · cases top
    rfl
  · cases top
    rfl
  · cases top

namespace Machine

variable {c : ClassFile} {m m' : Machine} {op : Opcode} {returned : Bool}

theorem Does.code_eq (does : Does c m op returned m') : m'.frame.code = m.frame.code := by
  cases does <;> rfl

theorem Does.not_faults (does : Does c m op returned m') {e : Fault} {left : List Value} :
    ¬ Faults c m op e left := by
  intro faults
  cases does with
  | iconst1 | iconst3 | iconst5 | bipush | goto | return_ | getstatic => cases faults
  | ldc index text operand resolved =>
    cases faults with
    | ldc index' e operand' unresolved => simp_all
  | iload1 v present =>
    cases faults with
    | iload1 absent => simp [List.getElem?_eq_none absent] at present
  | istore1 v rest top fits =>
    cases faults with
    | istore1Underflow empty => simp [empty] at top
    | istore1 _ _ _ absent => omega
  | iinc slot delta n first second present =>
    cases faults with
    | iincAbsent slot' operand absent =>
      obtain rfl : slot = slot' := by simpa [first] using operand
      simp [List.getElem?_eq_none absent] at present
    | iincKind slot' v operand present' other =>
      obtain rfl : slot = slot' := by simpa [first] using operand
      obtain rfl : .int n = v := by simpa [present] using present'
      exact other rfl
  | irem v2 v1 rest top nonzero =>
    cases faults with
    | irem e left unpopped => exact unpopped.not_prefix (by simp [top, Value.kind])
    | iremZero v1' rest' top' => simp_all
  | ifneTaken _ _ _ _ top _ | ifneNotTaken _ _ top _ =>
    cases faults with
    | ifne e left unpopped => exact unpopped.not_prefix (by simp [top, Value.kind])
  | ifIcmpgtTaken _ _ _ _ _ top _ | ifIcmpgtNotTaken _ _ _ top _ =>
    cases faults with
    | ifIcmpgt e left unpopped => exact unpopped.not_prefix (by simp [top, Value.kind])
  | invokevirtual index method n line rest sink operand resolved known top printed =>
    -- A call whose line is printed has found the kinds that its method pops.
    have fits := Native.pops_prefix top
    cases faults with
    | unpopped index' method' n' e left operand' resolved' known' unpopped =>
      obtain rfl : n = n' := by simp_all
      exact unpopped.not_prefix fits
    | _ => simp_all

theorem Faults.unique {e e' : Fault} {left left' : List Value} (faults : Faults c m op e left)
    (faults' : Faults c m op e' left') : e = e' ∧ left = left' := by
  cases faults with
  | ldc index e operand unresolved =>
    cases faults' with
    | ldc index' e' operand' unresolved' => simp_all
  | iload1 absent =>
    cases faults'
    exact ⟨rfl, rfl⟩
  | istore1Underflow empty =>
    cases faults' with
    | istore1Underflow _ => exact ⟨rfl, rfl⟩
    | istore1 v rest top _ => simp [empty] at top
  | istore1 v rest top absent =>
    cases faults' with
    | istore1Underflow empty => simp [empty] at top
    | istore1 v' rest' top' _ => simp_all
  | iincAbsent slot operand absent =>
    cases faults' with
    | iincAbsent slot' operand' _ => simp_all
    | iincKind slot' v operand' present _ =>
      obtain rfl : slot = slot' := by simpa [operand] using operand'
      simp [List.getElem?_eq_none absent] at present
  | iincKind slot v operand present other =>
    cases faults' with
    | iincAbsent slot' operand' absent =>
      obtain rfl : slot = slot' := by simpa [operand] using operand'
      simp [List.getElem?_eq_none absent] at present
    | iincKind slot' v' operand' present' _ => simp_all
  | irem e left top =>
    cases faults' with
    | irem e' left' top' => exact top.unique top'
    | iremZero v1 rest top' => exact (top.not_prefix (by simp [top', Value.kind])).elim
  | iremZero v1 rest top =>
    cases faults' with
    | irem e left top' => exact (top'.not_prefix (by simp [top, Value.kind])).elim
    | iremZero v1' rest' top' => simp_all
  | ifne e left top =>
    cases faults' with
    | ifne e' left' top' => exact top.unique top'
  | ifIcmpgt e left top =>
    cases faults' with
    | ifIcmpgt e' left' top' => exact top.unique top'
  | unresolved index e operand unresolved => cases faults' <;> simp_all
  | unknown index method operand resolved unknown => cases faults' <;> simp_all
  | unpopped index method n e left operand resolved known top =>
    cases faults' with
    | unpopped index' method' n' e' left' operand' resolved' known' top' =>
      obtain rfl : method = method' := by simp_all
      obtain rfl : n = n' := by simp_all
      obtain ⟨rfl, rfl⟩ := top.unique top'
      exact ⟨rfl, rfl⟩
    | refused index' method' n' line rest operand' resolved' known' top' refused =>
      obtain rfl : n = n' := by simp_all
      exact (top.not_prefix (Native.pops_prefix top')).elim
    | _ => simp_all
  | refused index method n line rest operand resolved known top refused =>
    cases faults' with
    | unpopped index' method' n' e left operand' resolved' known' top' =>
      obtain rfl : n = n' := by simp_all
      exact (top'.not_prefix (Native.pops_prefix top)).elim
    | _ => simp_all

theorem Does.unique {returned' : Bool} {m'' : Machine} (does : Does c m op returned m')
    (does' : Does c m op returned' m'') : returned = returned' ∧ m' = m'' := by
  cases does with
  | iconst1 | iconst3 | iconst5 | return_ | getstatic =>
    cases does'
    exact ⟨rfl, rfl⟩
  | ifneTaken distance v rest operand top taken =>
    cases does' with
    | ifneTaken distance' v' rest' operand' top' taken' => simp_all
    | ifneNotTaken v' rest' top' notTaken => simp_all
  | ifneNotTaken v rest top notTaken =>
    cases does' with
    | ifneTaken distance' v' rest' operand' top' taken => simp_all
    | ifneNotTaken v' rest' top' notTaken' => simp_all
  | ifIcmpgtTaken distance v2 v1 rest operand top taken =>
    cases does' with
    | ifIcmpgtTaken distance' v2' v1' rest' operand' top' taken' => simp_all
    | ifIcmpgtNotTaken v2' v1' rest' top' notTaken => simp_all
  | ifIcmpgtNotTaken v2 v1 rest top notTaken =>
    cases does' with
    | ifIcmpgtTaken distance' v2' v1' rest' operand' top' taken =>
      rw [top] at top'
      cases top'
      exact (notTaken taken).elim
    | ifIcmpgtNotTaken v2' v1' rest' top' notTaken' => simp_all
  | iinc slot delta n first second present =>
    cases does' with
    | iinc slot' delta' n' first' second' present' =>
      obtain rfl : slot = slot' := by simpa [first] using first'
      obtain rfl : delta = delta' := by simpa [second] using second'
      obtain rfl : n = n' := by simpa [present] using present'
      exact ⟨rfl, rfl⟩
  | _ =>
    cases does'
    simp_all

theorem execute_eq_ok_iff (there : m.frame.HasOperands op) :
    execute c op m.pass = .ok returned m' ↔ Does c m op returned m' := by
  have accounted := execute_accounted (c := c) there
  constructor
  · intro executed
    rw [executed] at accounted
    exact accounted
  · intro does
    cases executed : execute c op m.pass with
    | ok returned' m'' =>
      rw [executed] at accounted
      obtain ⟨rfl, rfl⟩ := does.unique accounted
      rfl
    | error e m'' =>
      rw [executed] at accounted
      obtain ⟨left, _, faults⟩ := accounted
      exact (does.not_faults faults).elim

theorem execute_eq_error_iff {e : Fault} (there : m.frame.HasOperands op) :
    execute c op m.pass = .error e m' ↔ ∃ left, m' = m.behind op left ∧ Faults c m op e left := by
  have accounted := execute_accounted (c := c) there
  constructor
  · intro executed
    rw [executed] at accounted
    exact accounted
  · rintro ⟨left, rfl, faults⟩
    cases executed : execute c op m.pass with
    | ok returned m'' =>
      rw [executed] at accounted
      exact (Does.not_faults accounted faults).elim
    | error e' m'' =>
      rw [executed] at accounted
      obtain ⟨left', rfl, faults'⟩ := accounted
      obtain ⟨rfl, rfl⟩ := faults.unique faults'
      rfl

end Machine

namespace Progress

variable {c : ClassFile} {maxSteps : Int} {p q q' : Progress} {op : Opcode}

/-! ## Rounds -/

theorem fetched_inside (fetched : q.fetched = .ok op) :
    (codeStart : Int) ≤ q.machine.frame.pc ∧
      q.machine.frame.pc + op.width ≤ q.machine.frame.code.length ∧
      q.machine.frame.byteAt? q.machine.frame.pc = some op.byte := by
  obtain ⟨i, here, started, byte, wide⟩ := fetch_eq_ok_iff.mp fetched
  rw [here]
  exact ⟨by omega, by omega, byte⟩

theorem fetched_operands (fetched : q.fetched = .ok op) : q.machine.frame.HasOperands op := by
  obtain ⟨started, wide, _⟩ := fetched_inside fetched
  intro i low high
  obtain ⟨n, rfl⟩ : ∃ n : Nat, i = n := Int.eq_ofNat_of_zero_le (by omega)
  have inside : n < q.machine.frame.code.length := by omega
  exact ⟨_, List.getElem?_eq_getElem inside⟩

theorem unfetched_pc {e : ExecError} (failed : q.fetched = .error e) :
    e.pc = q.machine.frame.pc := by
  have possible := fetch_case q.machine.frame.code q.machine.frame.pc
  rw [show fetch _ _ = .error e from failed] at possible
  cases possible <;> rfl

theorem round_of_ok {returned : Bool} {m : Machine} (fetched : q.fetched = .ok op)
    (below : limitReached maxSteps q.steps = false)
    (executed : Machine.execute c op q.machine.pass = .ok returned m) :
    q.round c maxSteps =
      if returned then .ended ⟨q.record op m, none⟩ else .next (q.record op m) := by
  unfold Progress.fetched at fetched
  unfold Machine.pass at executed
  unfold round
  dsimp only
  rw [fetched]
  dsimp only
  rw [below, if_neg Bool.false_ne_true, executed]
  rfl

theorem round_of_error {f : Fault} {m : Machine} (fetched : q.fetched = .ok op)
    (below : limitReached maxSteps q.steps = false)
    (executed : Machine.execute c op q.machine.pass = .error f m) :
    q.round c maxSteps = .ended ⟨q.record op m, some ⟨q.machine.frame.pc, op.byte, f⟩⟩ := by
  unfold Progress.fetched at fetched
  unfold Machine.pass at executed
  unfold round
  dsimp only
  rw [fetched]
  dsimp only
  rw [below, if_neg Bool.false_ne_true, executed]
  rfl

theorem round_eq_next_iff :
    q.round c maxSteps = .next q' ↔
      ∃ op m, q.fetched = .ok op ∧ limitReached maxSteps q.steps = false ∧
        Machine.Does c q.machine op false m ∧ q' = q.record op m := by
  constructor
  · intro next
    obtain ⟨op, m, fetched, below, executed, same⟩ := round_eq_next next
    exact ⟨op, m, fetched, below,
      (Machine.execute_eq_ok_iff (fetched_operands fetched)).mp executed, same⟩
  · rintro ⟨op, m, fetched, below, does, rfl⟩
    exact round_of_ok fetched below
      ((Machine.execute_eq_ok_iff (fetched_operands fetched)).mpr does)

inductive Ends (c : ClassFile) (maxSteps : Int) (q : Progress) : Ended -> Prop
  | unfetched (e : ExecError) (failed : q.fetched = .error e) : Ends c maxSteps q ⟨q, some e⟩
  | limited (op : Opcode) (fetched : q.fetched = .ok op)
    (reached : limitReached maxSteps q.steps = true) :
    Ends c maxSteps q ⟨q, some ⟨q.machine.frame.pc, op.byte, .stepLimit⟩⟩
  | returned (op : Opcode) (m : Machine) (fetched : q.fetched = .ok op)
    (below : limitReached maxSteps q.steps = false) (does : Machine.Does c q.machine op true m) :
    Ends c maxSteps q ⟨q.record op m, none⟩
  | faulted (op : Opcode) (f : Fault) (left : List Value) (fetched : q.fetched = .ok op)
    (below : limitReached maxSteps q.steps = false) (faults : Machine.Faults c q.machine op f left) :
    Ends c maxSteps q
      ⟨q.record op (q.machine.behind op left), some ⟨q.machine.frame.pc, op.byte, f⟩⟩

theorem round_eq_ended_iff {e : Ended} : q.round c maxSteps = .ended e ↔ Ends c maxSteps q e := by
  constructor
  · intro ended
    have possible := round_case c maxSteps q
    rw [ended] at possible
    cases possible with
    | unfetched e failed => exact .unfetched e failed
    | limited op fetched reached => exact .limited op fetched reached
    | returned op m fetched below executed =>
      exact .returned op m fetched below
        ((Machine.execute_eq_ok_iff (fetched_operands fetched)).mp executed)
    | faulted op m f fetched below executed =>
      obtain ⟨left, rfl, faults⟩ :=
        (Machine.execute_eq_error_iff (fetched_operands fetched)).mp executed
      exact .faulted op f left fetched below faults
  · intro ends
    cases ends with
    | unfetched e failed => exact round_of_unfetched failed
    | limited op fetched reached => exact round_of_limit fetched reached
    | returned op m fetched below does =>
      exact round_of_ok fetched below
        ((Machine.execute_eq_ok_iff (fetched_operands fetched)).mpr does)
    | faulted op f left fetched below faults =>
      exact round_of_error fetched below
        ((Machine.execute_eq_error_iff (fetched_operands fetched)).mpr ⟨left, rfl, faults⟩)

/-! ## Runs -/

/-- One instruction is executed, whether it goes on, returns or faults. -/
inductive Executes (c : ClassFile) (q : Progress) : Progress -> Prop
  | does (op : Opcode) (returned : Bool) (m : Machine) (fetched : q.fetched = .ok op)
    (does : Machine.Does c q.machine op returned m) : Executes c q (q.record op m)
  | faults (op : Opcode) (f : Fault) (left : List Value) (fetched : q.fetched = .ok op)
    (faults : Machine.Faults c q.machine op f left) :
    Executes c q (q.record op (q.machine.behind op left))

/-- What every executed instruction keeps holds of every state that shows in a run. -/
theorem Shows.invariant {P : Progress -> Prop} (first : P p)
    (step : ∀ q q', P q → Executes c q q' → P q') (shown : Shows c maxSteps p q) : P q := by
  -- The rounds that go on come first; the round that ends the run may execute one more instruction.
  have between {n : Nat} {q : Progress} (run : Advances c maxSteps p n q) : P q := by
    induction run with
    | zero => exact first
    | succ prior last ih =>
      obtain ⟨op, m, fetched, _, does, rfl⟩ := round_eq_next_iff.mp last
      exact step _ _ ih (.does op false m fetched does)
  cases shown with
  | between run => exact between run
  | last run ended =>
    have reached := between run
    cases round_eq_ended_iff.mp ended with
    | unfetched e failed => exact reached
    | limited op fetched _ => exact reached
    | returned op m fetched _ does => exact step _ _ reached (.does op true m fetched does)
    | faulted op f left fetched _ faults => exact step _ _ reached (.faults op f left fetched faults)

theorem shows_of_run {rounds : Nat} {e : Ended} (ends : p.run c maxSteps rounds = some e) :
    Shows c maxSteps p e.progress := by
  obtain ⟨n, q, _, run, ended⟩ := run_eq_some_iff.mp ends
  exact .last run ended

end Progress

/-! ## Executions of a virtual machine -/

namespace Vm

theorem two_le_slotCount {vm : Vm} (enough : vm.slots ≤ 0 ∨ 2 ≤ vm.slots) : 2 ≤ vm.slotCount := by
  unfold slotCount defaultSlots
  split <;> omega

def entered (vm : Vm) (code : Bytes) : Progress :=
  .start { frame := .start vm.slotCount code, sink := vm.sink }

def finished (vm : Vm) (e : Ended) : Vm :=
  { vm with
    sink := e.progress.machine.sink
    steps := e.progress.steps
    state := if e.error.isSome then .faulted else .returned
    error := e.error.map .exec }

theorem execute_of_entry (vm : Vm) {code : Bytes} (entry : vm.classFile.entryPoint = .ok code)
    (rounds : Nat) :
    vm.execute rounds = ((vm.entered code).run vm.classFile vm.maxSteps rounds).map fun e =>
      (vm.finished e, e.progress.trace) := by
  rw [execute, entry]
  unfold entered
  dsimp only
  cases Progress.run vm.classFile vm.maxSteps rounds
      (.start { frame := .start vm.slotCount code, sink := vm.sink }) with
  | none => rfl
  | some e => rfl

end Vm

/-- A class that starts with some code; at entry 6 it has the method that prints numbers. -/
def ClassFile.printing (code : Bytes) : ClassFile where
  minor := 0
  major := 0
  pool := [.unused, .utf8 (utf8 "java/io/PrintStream"), .classInfo 1, .utf8 (utf8 "println"),
    .utf8 (utf8 "(I)V"), .nameAndType 3 4, .methodref 2 5, .utf8 (utf8 "main"), .utf8 (utf8 "Code")]
  members := [⟨0, 7, 0, some [⟨8, some code⟩]⟩]

end Jvm
