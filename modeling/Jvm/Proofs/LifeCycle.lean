import Jvm.Proofs.Diagnosis
import Mathlib.Tactic.Common

/-!
The life of a virtual machine: its settings change and it executes, in any order. What it tells about
itself is about the last execution alone, and an execution is the one that a fresh virtual machine
makes, whatever was executed before. What earlier executions have written lies in the sink below
everything that is written later, and no instruction looks at it.
-/

set_option autoImplicit false
set_option relaxedAutoImplicit false

namespace Jvm

/-! ## Earlier writes -/

def Sink.above (old : List Bytes) (s : Sink) : Sink := { s with writes := s.writes ++ old }

theorem Sink.println?_above (old : List Bytes) (s : Sink) (line : Bytes) :
    (s.above old).println? line = (s.println? line).map (above old) := by
  obtain ⟨writes, budget⟩ := s
  rcases budget with _ | _ | n
  · rfl
  · rfl
  · rfl

def Machine.resink (s : Sink) (m : Machine) : Machine := { m with sink := s }

namespace Machine

variable {c : ClassFile} {m m' : Machine} {op : Opcode} {returned : Bool} {s s' : Sink}

theorem Does.resink (does : Does c m op returned m') (silent : m'.sink = m.sink → s' = s)
    (prints : ∀ line, m.sink.println? line = some m'.sink → s.println? line = some s') :
    Does c (m.resink s) op returned (m'.resink s') := by
  cases does with
  | invokevirtual index method n line rest sink operand resolved known top printed =>
    exact .invokevirtual index method n line rest s' operand resolved known top (prints line printed)
  | _ =>
    obtain rfl := silent rfl
    constructor <;> assumption

theorem Faults.resink {e : Fault} {left : List Value} (faults : Faults c m op e left)
    (refuses : ∀ line, m.sink.println? line = none → s.println? line = none) :
    Faults c (m.resink s) op e left := by
  cases faults with
  | refused index method n line _ operand resolved known top refused =>
    exact .refused index method n line left operand resolved known top (refuses line refused)
  -- Two lists of faults are about remainders, so the constructor has to be named.
  | iremZero v1 _ top => exact .iremZero v1 left top
  | _ => constructor <;> assumption

def above (old : List Bytes) (m : Machine) : Machine := m.resink (m.sink.above old)

theorem Does.above (does : Does c m op returned m') (old : List Bytes) :
    Does c (m.above old) op returned (m'.above old) := by
  refine does.resink (fun same => by rw [same]) ?_
  intro line printed
  rw [Sink.println?_above, printed]
  rfl

theorem Faults.above {e : Fault} {left : List Value} (faults : Faults c m op e left)
    (old : List Bytes) : Faults c (m.above old) op e left := by
  refine faults.resink ?_
  intro line refused
  rw [Sink.println?_above, refused]
  rfl

end Machine

def Progress.above (old : List Bytes) (p : Progress) : Progress :=
  { p with machine := p.machine.above old }

def Ended.above (old : List Bytes) (e : Ended) : Ended := { e with progress := e.progress.above old }

namespace Progress

variable {c : ClassFile} {maxSteps : Int} {p q : Progress}

theorem Ends.above {e : Ended} (ends : Ends c maxSteps q e) (old : List Bytes) :
    Ends c maxSteps (q.above old) (e.above old) := by
  cases ends with
  | unfetched e failed => exact .unfetched e failed
  | limited op fetched reached => exact .limited op fetched reached
  | returned op m fetched below does => exact .returned op (m.above old) fetched below (does.above old)
  | faulted op f left fetched below faults =>
    exact .faulted op f left fetched below (faults.above old)

theorem run_above (c : ClassFile) (maxSteps : Int) (old : List Bytes) (rounds : Nat) (p : Progress) :
    (p.above old).run c maxSteps rounds = (p.run c maxSteps rounds).map (Ended.above old) := by
  induction rounds generalizing p with
  | zero => rfl
  | succ rounds ih =>
    rw [run, run]
    cases first : p.round c maxSteps with
    | ended e =>
      have ended := round_eq_ended_iff.mpr ((round_eq_ended_iff.mp first).above old)
      rw [ended]
      rfl
    | next q =>
      obtain ⟨op, m, fetched, below, does, rfl⟩ := round_eq_next_iff.mp first
      have next : (p.above old).round c maxSteps = .next ((p.record op m).above old) :=
        round_eq_next_iff.mpr ⟨op, m.above old, fetched, below, does.above old, rfl⟩
      rw [next]
      exact ih (p.record op m)

/-! ## Counting steps -/

theorem Executes.counted {q' : Progress} (executes : Executes c q q')
    (counted : q.steps = q.trace.length) : q'.steps = q'.trace.length := by
  have recorded (op : Opcode) (m : Machine) :
      (q.record op m).steps = (q.record op m).trace.length := by
    rw [trace_record, List.length_append, List.length_singleton, ← counted]
    rfl
  cases executes with
  | does op returned m fetched does => exact recorded op m
  | faults op f left fetched faults => exact recorded op _

theorem run_steps_eq {m : Machine} {rounds : Nat} {e : Ended}
    (ends : (start m).run c maxSteps rounds = some e) :
    e.progress.steps = e.progress.trace.length :=
  (shows_of_run ends).invariant (P := fun q => q.steps = q.trace.length) rfl
    fun _ _ counted executes => executes.counted counted

theorem run_steps_le {m : Machine} {rounds : Nat} {e : Ended}
    (ends : (start m).run c maxSteps rounds = some e) (positive : 0 < maxSteps) :
    (e.progress.steps : Int) ≤ maxSteps := by
  obtain ⟨n, q, _, run, ended⟩ := run_eq_some_iff.mp ends
  have within : (q.steps : Int) ≤ maxSteps := run.steps_le positive (Int.le_of_lt positive)
  rcases round_eq_ended ended with same | ⟨op, m', _, below, same⟩
  · rw [same]
    exact within
  · -- The last instruction is executed only when the limit is not used up.
    have unspent : ¬ (0 < maxSteps ∧ maxSteps ≤ q.steps) := by
      rw [← limitReached_eq_true_iff, below]
      exact Bool.false_ne_true
    rw [same]
    change ((q.steps + 1 : Nat) : Int) ≤ maxSteps
    omega

end Progress

namespace Vm

/-! ## Executions -/

/-- What an execution gives back when it ends: its error and its trace. Nothing that an earlier
execution has left takes part in it. -/
inductive Returns (vm : Vm) : Option VmError -> List TraceEntry -> Prop
  | unentered (e : EntryError) (entry : vm.classFile.entryPoint = .error e) :
    Returns vm (some (.entry e)) []
  | ended {code : Bytes} {rounds : Nat} {e : Ended} (entry : vm.classFile.entryPoint = .ok code)
    (ends : (vm.entered code).run vm.classFile vm.maxSteps rounds = some e) :
    Returns vm (e.error.map .exec) e.progress.trace

/-- What `after` tells about itself is what an execution of `before` with this trace came to. -/
structure Reflects (before : Vm) (trace : List TraceEntry) (after : Vm) : Prop where
  returns : Returns before after.error trace
  state_eq : after.state = if after.error.isSome then .faulted else .returned
  steps_eq : after.steps = trace.length
  within : 0 < before.maxSteps → (after.steps : Int) ≤ before.maxSteps

variable {c : ClassFile} {vm vm' first : Vm}

theorem execute_of_unentered (vm : Vm) {e : EntryError} (entry : vm.classFile.entryPoint = .error e)
    (rounds : Nat) :
    vm.execute rounds =
      some ({ vm with state := .faulted, steps := 0, error := some (.entry e) }, []) := by
  rw [execute, entry]

theorem reflects_of_execute {rounds : Nat} {trace : List TraceEntry}
    (executed : vm.execute rounds = some (vm', trace)) : Reflects vm trace vm' := by
  cases entry : vm.classFile.entryPoint with
  | error e =>
    rw [execute_of_unentered vm entry] at executed
    cases executed
    exact ⟨.unentered e entry, rfl, rfl, fun positive => Int.le_of_lt positive⟩
  | ok code =>
    rw [execute_of_entry vm entry] at executed
    obtain ⟨e, ends, same⟩ := Option.map_eq_some_iff.mp executed
    cases same
    refine ⟨.ended entry ends, ?_, Progress.run_steps_eq ends, Progress.run_steps_le ends⟩
    rw [finished, Option.isSome_map]

/-- A virtual machine of the same class, with the same settings and a sink that accepts as many
writes, that has not executed anything. -/
def fresh (vm : Vm) : Vm :=
  { start vm.classFile with
    slots := vm.slots
    maxSteps := vm.maxSteps
    sink := { Sink.unlimited with budget := vm.sink.budget } }

def above (old : List Bytes) (vm : Vm) : Vm := { vm with sink := vm.sink.above old }

/-- An execution is that of a fresh virtual machine, with earlier writes at the bottom of the sink. -/
theorem execute_eq_fresh (vm : Vm) (rounds : Nat) :
    vm.execute rounds =
      (vm.fresh.execute rounds).map fun out => (out.1.above vm.sink.writes, out.2) := by
  cases entry : vm.classFile.entryPoint with
  | error e =>
    rw [execute_of_unentered vm entry, execute_of_unentered vm.fresh entry]
    rfl
  | ok code =>
    rw [execute_of_entry vm entry, execute_of_entry vm.fresh entry]
    have below : vm.entered code = (vm.fresh.entered code).above vm.sink.writes := rfl
    rw [below, Progress.run_above, Option.map_map, Option.map_map]
    rfl

/-! ## Sequences of operations -/

inductive Setting where
  | slots (n : Int)
  | maxSteps (n : Int)
  | classFile (c : ClassFile)
  | budget (n : Int)

def Setting.apply (vm : Vm) : Setting -> Vm
  | slots n => { vm with slots := n }
  | maxSteps n => { vm with maxSteps := n }
  | classFile c => { vm with classFile := c }
  | budget n => { vm with sink := vm.sink.withBudget n }

inductive Operation where
  | set (s : Setting)
  | execute

/-- The operations lead from the first virtual machine to another one; each execution among them
ends. -/
inductive Performs (first : Vm) : List Operation -> Vm -> Prop
  | none : Performs first [] first
  | set {ops : List Operation} {vm : Vm} (prior : Performs first ops vm) (s : Setting) :
    Performs first (ops ++ [.set s]) (s.apply vm)
  | execute {ops : List Operation} {vm vm' : Vm} {rounds : Nat} {trace : List TraceEntry}
    (prior : Performs first ops vm) (executed : vm.execute rounds = some (vm', trace)) :
    Performs first (ops ++ [.execute]) vm'

theorem Setting.apply_status (s : Setting) (vm : Vm) :
    (s.apply vm).state = vm.state ∧ (s.apply vm).error = vm.error ∧
      (s.apply vm).steps = vm.steps := by
  cases s <;> exact ⟨rfl, rfl, rfl⟩

theorem Reflects.set {trace : List TraceEntry} (reflects : Reflects first trace vm) (s : Setting) :
    Reflects first trace (s.apply vm) := by
  obtain ⟨state, error, steps⟩ := s.apply_status vm
  obtain ⟨returns, state_eq, steps_eq, within⟩ := reflects
  constructor
  · rwa [error]
  · rwa [state, error]
  · rwa [steps]
  · rwa [steps]

def Unexecuted (ops : List Operation) (vm : Vm) : Prop :=
  (∃ settings : List Setting, ops = settings.map .set) ∧
    vm.state = .running ∧ vm.error = none ∧ vm.steps = 0

/-- There was a last execution, only settings have changed since, and it is what is told of. -/
def Executed (first : Vm) (ops : List Operation) (vm : Vm) : Prop :=
  ∃ (earlier : List Operation) (settings : List Setting) (before after : Vm) (rounds : Nat)
    (trace : List TraceEntry),
    ops = earlier ++ .execute :: settings.map .set ∧ Performs first earlier before ∧
      before.execute rounds = some (after, trace) ∧ Performs after (settings.map .set) vm ∧
      Reflects before trace vm

theorem Unexecuted.set {ops : List Operation} (unexecuted : Unexecuted ops vm) (s : Setting) :
    Unexecuted (ops ++ [.set s]) (s.apply vm) := by
  obtain ⟨⟨settings, rfl⟩, running, none, zero⟩ := unexecuted
  obtain ⟨state, error, steps⟩ := s.apply_status vm
  exact ⟨⟨settings ++ [s], by simp⟩, state.trans running, error.trans none, steps.trans zero⟩

theorem Executed.set {ops : List Operation} (executed : Executed first ops vm) (s : Setting) :
    Executed first (ops ++ [.set s]) (s.apply vm) := by
  obtain ⟨earlier, settings, before, after, rounds, trace, rfl, prior, ran, since, reflects⟩ :=
    executed
  refine ⟨earlier, settings ++ [s], before, after, rounds, trace, by simp, prior, ran, ?_,
    reflects.set s⟩
  rw [List.map_append]
  exact since.set s

/-- Only the last execution shows. Whatever operations lead from a new virtual machine to one, the
latter has never executed anything and tells so, or its state, error and number of steps are those of
the last execution. And the next execution is, for every number of rounds, what it would be on a fresh
virtual machine of the same settings: it ends in the same way with the same trace, or goes on, and has
put the same writes on top of the earlier ones. -/
theorem only_last_execution_shows (c : ClassFile) (ops : List Operation) (vm : Vm)
    (performed : Performs (start c) ops vm) :
    (Unexecuted ops vm ∨ Executed (start c) ops vm) ∧
      ∀ rounds, vm.execute rounds =
        (vm.fresh.execute rounds).map fun out => (out.1.above vm.sink.writes, out.2) := by
  refine ⟨?_, execute_eq_fresh vm⟩
  induction performed with
  | none => exact .inl ⟨⟨[], rfl⟩, rfl, rfl, rfl⟩
  | set prior s ih => exact ih.imp (·.set s) (·.set s)
  | @execute ops vm vm' rounds trace prior executed ih =>
    exact .inr ⟨ops, [], vm, vm', rounds, trace, rfl, prior, executed, .none,
      reflects_of_execute executed⟩

/-- Print 1 and return. -/
private def printingOne : ClassFile :=
  .printing (List.replicate 8 0 ++ [0xB2, 0, 0, 0x04, 0xB6, 0, 6, 0xB1])

private def mishaps : List Operation :=
  [.set (.budget 1), .execute, .execute, .set (.classFile .empty), .execute,
    .set (.classFile printingOne), .set (.maxSteps 2), .execute, .set (.maxSteps 0)]

/-- One execution prints, one is refused its line, one has no entry point and one is cut short; of the
first there is the line, and of the others only the last one shows. -/
theorem only_last_execution_shows_cut :
    ∃ vm, Performs (start printingOne) mishaps vm ∧
      Executed (start printingOne) mishaps vm ∧
      vm.error = some (.exec ⟨12, 0xB6, .stepLimit⟩) ∧ vm.state = .faulted ∧ vm.steps = 2 ∧
      vm.sink.output = utf8 "1\n" ∧
      vm.execute 5 = (vm.fresh.execute 5).map fun out => (out.1.above [utf8 "1\n"], out.2) := by
  have printed := Performs.execute (Performs.none.set (.budget 1))
    (rfl : Vm.execute 5 (Setting.apply (start printingOne) (.budget 1)) = some (_, _))
  have refused := printed.execute (rfl : Vm.execute 5 _ = some (_, _))
  have unentered := (refused.set (.classFile .empty)).execute (rfl : Vm.execute 5 _ = some (_, _))
  have cut := ((unentered.set (.classFile printingOne)).set (.maxSteps 2)).execute
    (rfl : Vm.execute 5 _ = some (_, _))
  have performed : Performs (start printingOne) mishaps _ := cut.set (.maxSteps 0)
  obtain ⟨unexecuted | executed, memoryless⟩ := only_last_execution_shows _ _ _ performed
  · cases unexecuted.2.1
  · exact ⟨_, performed, executed, by decide, rfl, rfl, by decide, memoryless 5⟩

end Vm

end Jvm
