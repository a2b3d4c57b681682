import Jvm.Proofs.ControlFlow
import Jvm.Proofs.Provenance
import Mathlib.Tactic.Common

/-!
The number of local slots does not show. Two executions that differ in it alone go on side by side,
with slot 1 alike and no other slot set. The one place where they could come apart is an increment of
another slot, and there both fault: the slot is missing, or nothing is set in it.
-/

set_option autoImplicit false
set_option relaxedAutoImplicit false

namespace Jvm

def Machine.reslot (locals : List Value) (m : Machine) : Machine :=
  { m with frame := { m.frame with locals := locals } }

/-- Why an increment of a slot fails: there is no such slot, or no integer in it. -/
def incrementCause (slots : Nat) (slot : UInt8) : Cause :=
  if slots ≤ slot.toNat then .badLocal else .typeMismatch

namespace Machine

variable {c : ClassFile} {m m' : Machine} {op : Opcode} {returned : Bool} {locals left : List Value}
  {e : Fault}

theorem Does.reslot (only : m.frame.OnlySlotOne) (agree : locals[1]? = m.frame.locals[1]?)
    (does : Does c m op returned m') :
    ∃ locals', Does c (m.reslot locals) op returned (m'.reslot locals') ∧
      locals'[1]? = m'.frame.locals[1]? := by
  cases does with
  | iconst1 => exact ⟨locals, .iconst1, agree⟩
  | iconst3 => exact ⟨locals, .iconst3, agree⟩
  | iconst5 => exact ⟨locals, .iconst5, agree⟩
  | bipush b operand => exact ⟨locals, .bipush b operand, agree⟩
  | ldc index text operand resolved => exact ⟨locals, .ldc index text operand resolved, agree⟩
  | iload1 v present => exact ⟨locals, .iload1 v (agree.trans present), agree⟩
  | istore1 v rest top fits =>
    have fits' : 1 < locals.length := by
      rw [List.getElem?_eq_getElem fits] at agree
      exact (List.getElem?_eq_some_iff.mp agree).1
    refine ⟨locals.set 1 v, .istore1 v rest top fits', ?_⟩
    change _ = (m.frame.locals.set 1 v)[1]?
    rw [List.getElem?_set_self fits', List.getElem?_set_self fits]
  | iinc slot delta n first second present =>
    -- An integer that can be incremented is in slot 1, where the machines agree.
    have one := only.eq_one present
    have present' : locals[slot.toNat]? = some (.int n) := by
      rw [one] at present ⊢
      exact agree.trans present
    refine ⟨_, .iinc slot delta n first second present', ?_⟩
    have fits := (List.getElem?_eq_some_iff.mp present).1
    have fits' := (List.getElem?_eq_some_iff.mp present').1
    change (locals.set slot.toNat _)[1]? = (m.frame.locals.set slot.toNat _)[1]?
    rw [one] at fits fits' ⊢
    rw [List.getElem?_set_self fits', List.getElem?_set_self fits]
  | irem v2 v1 rest top nonzero => exact ⟨locals, .irem v2 v1 rest top nonzero, agree⟩
  | ifneTaken distance v rest operand top taken =>
    exact ⟨locals, .ifneTaken distance v rest operand top taken, agree⟩
  | ifneNotTaken v rest top notTaken => exact ⟨locals, .ifneNotTaken v rest top notTaken, agree⟩
  | ifIcmpgtTaken distance v2 v1 rest operand top taken =>
    exact ⟨locals, .ifIcmpgtTaken distance v2 v1 rest operand top taken, agree⟩
  | ifIcmpgtNotTaken v2 v1 rest top notTaken =>
    exact ⟨locals, .ifIcmpgtNotTaken v2 v1 rest top notTaken, agree⟩
  | goto distance operand => exact ⟨locals, .goto distance operand, agree⟩
  | return_ => exact ⟨locals, .return_, agree⟩
  | getstatic => exact ⟨locals, .getstatic, agree⟩
  | invokevirtual index method n line rest sink operand resolved known top printed =>
    exact ⟨locals, .invokevirtual index method n line rest sink operand resolved known top printed,
      agree⟩

theorem iinc_faults {slot : UInt8} (only : m.frame.OnlySlotOne)
    (operand : m.frame.byteAt? (m.frame.pc + 1) = some slot) (other : slot.toNat ≠ 1) :
    ∃ e, Faults c m .iinc e m.frame.stack := by
  cases present : m.frame.locals[slot.toNat]? with
  | none => exact ⟨_, .iincAbsent slot operand (List.getElem?_eq_none_iff.mp present)⟩
  | some v =>
    have unset : v.kind ≠ .int := by
      rw [only _ v other present]
      decide
    exact ⟨_, .iincKind slot v operand present unset⟩

theorem Faults.cause_of_iinc {slot : UInt8}
    (operand : m.frame.byteAt? (m.frame.pc + 1) = some slot) (faults : Faults c m .iinc e left) :
    e.cause? = some (incrementCause m.frame.locals.length slot) := by
  cases faults with
  | iincAbsent slot' operand' absent =>
    obtain rfl : slot = slot' := by simpa [operand] using operand'
    rw [incrementCause, if_pos absent]
    rfl
  | iincKind slot' v operand' present _ =>
    obtain rfl : slot = slot' := by simpa [operand] using operand'
    have fits := (List.getElem?_eq_some_iff.mp present).1
    rw [incrementCause, if_neg (by omega)]
    rfl

theorem Faults.reslot (two : 1 < m.frame.locals.length)
    (only' : (m.reslot locals).frame.OnlySlotOne) (agree : locals[1]? = m.frame.locals[1]?)
    (faults : Faults c m op e left) :
    ∃ e', Faults c (m.reslot locals) op e' left ∧ (e' = e ∨ op = .iinc ∧
      ∃ slot : UInt8, m.frame.byteAt? (m.frame.pc + 1) = some slot ∧ slot.toNat ≠ 1) := by
  cases faults with
  | ldc index e operand unresolved => exact ⟨_, .ldc index e operand unresolved, .inl rfl⟩
  | iload1 absent => omega
  | istore1Underflow empty => exact ⟨_, .istore1Underflow empty, .inl rfl⟩
  | istore1 v rest top absent => omega
  | iincAbsent slot operand absent =>
    have other : slot.toNat ≠ 1 := by omega
    obtain ⟨e', faults'⟩ := iinc_faults (c := c) only' operand other
    exact ⟨e', faults', .inr ⟨rfl, slot, operand, other⟩⟩
  | iincKind slot v operand present other =>
    by_cases one : slot.toNat = 1
    · have present' : locals[slot.toNat]? = some v := by
        rw [one] at present ⊢
        exact agree.trans present
      exact ⟨_, .iincKind slot v operand present' other, .inl rfl⟩
    · obtain ⟨e', faults'⟩ := iinc_faults (c := c) only' operand one
      exact ⟨e', faults', .inr ⟨rfl, slot, operand, one⟩⟩
  | irem e left top => exact ⟨_, .irem e left top, .inl rfl⟩
  | iremZero v1 rest top => exact ⟨_, .iremZero v1 _ top, .inl rfl⟩
  | ifne e left top => exact ⟨_, .ifne e left top, .inl rfl⟩
  | ifIcmpgt e left top => exact ⟨_, .ifIcmpgt e left top, .inl rfl⟩
  | unresolved index e operand unresolved =>
    exact ⟨_, .unresolved index e operand unresolved, .inl rfl⟩
  | unknown index method operand resolved unknown =>
    exact ⟨_, .unknown index method operand resolved unknown, .inl rfl⟩
  | unpopped index method n e left operand resolved known top =>
    exact ⟨_, .unpopped index method n e left operand resolved known top, .inl rfl⟩
  | refused index method n line rest operand resolved known top refused =>
    exact ⟨_, .refused index method n line _ operand resolved known top refused, .inl rfl⟩

end Machine

/-! ## Errors -/

/-- What a tracer is shown of an instruction: its position, its byte and the depth of the stack. -/
def TraceEntry.seen (e : TraceEntry) : Int × UInt8 × Nat := (e.pc, e.opcode, e.depth)

theorem TraceEntry.LeadsTo.pc_ne {code : Bytes} {e : TraceEntry} {f : Frame}
    (leads : e.LeadsTo code f) (increments : e.opcode = Opcode.iinc.byte) : f.pc ≠ e.pc := by
  obtain ⟨op, i, byte, here, edge, _⟩ := leads
  obtain rfl := Opcode.byte_injective (byte.symm.trans increments)
  rw [here]
  generalize f.pc = pc at edge
  cases edge with
  | behind _ _ =>
    change (i : Int) + 3 ≠ i
    omega
  | branch branches _ => simp at branches

namespace ExecError

/-- The error comes from the last instruction of the trace, which increments a slot. -/
def Increments (code : Bytes) (trace : List TraceEntry) (e : ExecError) (slot : UInt8) : Prop :=
  (∃ last, trace.getLast? = some last ∧ last.pc = e.pc ∧ last.opcode = e.opcode) ∧
    e.opcode = Opcode.iinc.byte ∧ ∃ i : Nat, e.pc = i ∧ code[i + 1]? = some slot

/-- The errors of two runs with different numbers of slots: they name the same instruction, and they
have the same cause unless an increment of another slot than slot 1 was executed. -/
structure Alike (code : Bytes) (trace : List TraceEntry) (slots slots' : Nat)
    (e e' : ExecError) : Prop where
  pc : e'.pc = e.pc
  opcode : e'.opcode = e.opcode
  cause : (∀ slot, e.Increments code trace slot → slot = 1) → e'.fault.cause? = e.fault.cause?
  unset : ∀ slot, e.Increments code trace slot → slot ≠ 1 →
    e.fault.cause? = some (incrementCause slots slot) ∧
      e'.fault.cause? = some (incrementCause slots' slot)

theorem alike_of_unexecuted {code : Bytes} {q : Progress} {slots slots' : Nat} {e : ExecError}
    (path : q.Underway code) (here : e.pc = q.machine.frame.pc) :
    Alike code q.trace slots slots' e e where
  pc := rfl
  opcode := rfl
  cause _ := rfl
  unset slot increments _ := by
    -- The last entry would be an increment that leads to its own position.
    obtain ⟨⟨last, isLast, position, byte⟩, increment, _⟩ := increments
    have apart := (path.arrives last isLast).pc_ne (byte.trans increment)
    exact (apart (here.symm.trans position.symm)).elim

theorem alike_of_faults {c : ClassFile} {code : Bytes} {q : Progress} {op : Opcode} {m : Machine}
    {locals left : List Value} {f f' : Fault} (code_eq : q.machine.frame.code = code)
    (fetched : q.fetched = .ok op) (faults : Machine.Faults c q.machine op f left)
    (faults' : Machine.Faults c (q.machine.reslot locals) op f' left)
    (exception : f' = f ∨ op = .iinc ∧
      ∃ slot : UInt8, q.machine.frame.byteAt? (q.machine.frame.pc + 1) = some slot ∧ slot.toNat ≠ 1) :
    Alike code (q.record op m).trace q.machine.frame.locals.length locals.length
      ⟨q.machine.frame.pc, op.byte, f⟩ ⟨q.machine.frame.pc, op.byte, f'⟩ := by
  obtain ⟨i, here, _⟩ := fetch_eq_ok_iff.mp fetched
  -- The operand of an increment, in the frame and in the code.
  have operand_iff (slot : UInt8) :
      q.machine.frame.byteAt? (q.machine.frame.pc + 1) = some slot ↔ code[i + 1]? = some slot := by
    rw [here, ← code_eq]
    rfl
  refine ⟨rfl, rfl, ?_, ?_⟩
  · intro ordinary
    rcases exception with rfl | ⟨rfl, slot, operand, other⟩
    · rfl
    · have last : (q.record .iinc m).trace.getLast? = some ⟨Opcode.iinc.byte, q.machine.frame⟩ := by
        simp [Progress.trace_record]
      have one := ordinary slot
        ⟨⟨_, last, rfl, rfl⟩, rfl, i, here, (operand_iff slot).mp operand⟩
      rw [one] at other
      exact (other rfl).elim
  · rintro slot ⟨_, increment, i', here', operand⟩ _
    obtain rfl := Opcode.byte_injective increment
    obtain rfl : i = i' := by
      change q.machine.frame.pc = i' at here'
      omega
    have operand := (operand_iff slot).mpr operand
    have cause' : f'.cause? = some (incrementCause locals.length slot) :=
      Machine.Faults.cause_of_iinc (m := q.machine.reslot locals) operand faults'
    exact ⟨faults.cause_of_iinc operand, cause'⟩

end ExecError

/-! ## Runs -/

/-- The ends of two runs that cannot be told apart but by the number of slots. -/
structure Ended.Alike (code : Bytes) (slots slots' : Nat) (e e' : Ended) : Prop where
  seen : e'.progress.trace.map TraceEntry.seen = e.progress.trace.map TraceEntry.seen
  sink : e'.progress.machine.sink = e.progress.machine.sink
  steps : e'.progress.steps = e.progress.steps
  error : Option.Rel (ExecError.Alike code e.progress.trace slots slots') e.error e'.error

namespace Progress

/-- Two runs side by side that differ in their local slots but not in slot 1. -/
structure Alike (code : Bytes) (slots slots' : Nat) (q q' : Progress) : Prop where
  path : q.Underway code
  steps : q'.steps = q.steps
  seen : q'.trace.map TraceEntry.seen = q.trace.map TraceEntry.seen
  machine : ∃ locals, q'.machine = q.machine.reslot locals ∧
    locals[1]? = q.machine.frame.locals[1]?
  count : q.machine.frame.locals.length = slots
  count' : q'.machine.frame.locals.length = slots'
  only : q.machine.frame.OnlySlotOne
  only' : q'.machine.frame.OnlySlotOne

variable {c : ClassFile} {maxSteps : Int} {code : Bytes} {slots slots' : Nat} {q q' : Progress}
  {op : Opcode}

theorem alike_start (slots slots' : Nat) (code : Bytes) (sink : Sink) (two : 2 ≤ slots)
    (two' : 2 ≤ slots') :
    Alike code slots slots' (start { frame := .start slots code, sink := sink })
      (start { frame := .start slots' code, sink := sink }) where
  path := underway_start slots code sink
  steps := rfl
  seen := rfl
  machine := by
    refine ⟨List.replicate slots' .void, rfl, ?_⟩
    change _ = (List.replicate slots Value.void)[1]?
    rw [List.getElem?_replicate_of_lt two, List.getElem?_replicate_of_lt two']
  count := List.length_replicate
  count' := List.length_replicate
  only := (sourced_start .empty slots code sink).unset
  only' := (sourced_start .empty slots' code sink).unset

theorem seen_record {m m' : Machine} (alike : Alike code slots slots' q q') :
    (q'.record op m').trace.map TraceEntry.seen = (q.record op m).trace.map TraceEntry.seen := by
  obtain ⟨locals, same, _⟩ := alike.machine
  rw [trace_record, trace_record, List.map_append, List.map_append, alike.seen, same]
  rfl

inductive RoundsAlike (code : Bytes) (slots slots' : Nat) : Round -> Round -> Prop
  | next {q q' : Progress} (alike : Alike code slots slots' q q') :
    RoundsAlike code slots slots' (.next q) (.next q')
  | ended {e e' : Ended} (alike : Ended.Alike code slots slots' e e') :
    RoundsAlike code slots slots' (.ended e) (.ended e')

theorem Alike.fetched_eq (alike : Alike code slots slots' q q') : q'.fetched = q.fetched := by
  obtain ⟨locals, same, _⟩ := alike.machine
  rw [fetched, fetched, same]
  rfl

theorem Alike.limit_eq (alike : Alike code slots slots' q q') :
    limitReached maxSteps q'.steps = limitReached maxSteps q.steps := by
  rw [alike.steps]

theorem Alike.does {returned : Bool} {m : Machine} (alike : Alike code slots slots' q q')
    (does : Machine.Does c q.machine op returned m) :
    ∃ locals, Machine.Does c q'.machine op returned (m.reslot locals) ∧
      locals[1]? = m.frame.locals[1]? := by
  obtain ⟨locals, same, agree⟩ := alike.machine
  rw [same]
  exact does.reslot alike.only agree

theorem Alike.faults {f : Fault} {left : List Value} {m : Machine} (two : 2 ≤ slots)
    (alike : Alike code slots slots' q q') (fetched : q.fetched = .ok op)
    (faults : Machine.Faults c q.machine op f left) :
    ∃ f', Machine.Faults c q'.machine op f' left ∧
      ExecError.Alike code (q.record op m).trace slots slots' ⟨q.machine.frame.pc, op.byte, f⟩
        ⟨q'.machine.frame.pc, op.byte, f'⟩ := by
  obtain ⟨locals, same, agree⟩ := alike.machine
  have only' := alike.only'
  have count' := alike.count'
  rw [← alike.count] at two ⊢
  rw [← count']
  rw [same] at only' ⊢
  obtain ⟨f', faults', exception⟩ := faults.reslot two only' agree
  exact ⟨f', faults', ExecError.alike_of_faults alike.path.code_eq fetched faults faults' exception⟩

theorem Alike.record {m : Machine} {locals : List Value} (alike : Alike code slots slots' q q')
    (fetched : q.fetched = .ok op) (does : Machine.Does c q.machine op false m)
    (does' : Machine.Does c q'.machine op false (m.reslot locals))
    (agree : locals[1]? = m.frame.locals[1]?) :
    Alike code slots slots' (q.record op m) (q'.record op (m.reslot locals)) where
  path := alike.path.record fetched does
  steps := congrArg (· + 1) alike.steps
  seen := seen_record alike
  machine := ⟨locals, rfl, agree⟩
  count := does.locals_length.trans alike.count
  count' := does'.locals_length.trans alike.count'
  only := does.onlySlotOne alike.only
  only' := does'.onlySlotOne alike.only'

theorem Alike.round (c : ClassFile) (maxSteps : Int) (two : 2 ≤ slots)
    (alike : Alike code slots slots' q q') :
    RoundsAlike code slots slots' (q.round c maxSteps) (q'.round c maxSteps) := by
  have sink_eq : q'.machine.sink = q.machine.sink := by
    obtain ⟨locals, same, _⟩ := alike.machine
    rw [same]
    rfl
  have pc_eq : q'.machine.frame.pc = q.machine.frame.pc := by
    obtain ⟨locals, same, _⟩ := alike.machine
    rw [same]
    rfl
  have counted : q'.steps + 1 = q.steps + 1 := congrArg (· + 1) alike.steps
  cases round : q.round c maxSteps with
  | next r =>
    obtain ⟨op, m, fetched, below, does, rfl⟩ := round_eq_next_iff.mp round
    obtain ⟨locals, does', agree⟩ := alike.does does
    rw [round_eq_next_iff.mpr
      ⟨op, _, alike.fetched_eq.trans fetched, alike.limit_eq.trans below, does', rfl⟩]
    exact .next (alike.record fetched does does' agree)
  | ended e =>
    cases round_eq_ended_iff.mp round with
    | unfetched e failed =>
      rw [round_of_unfetched (alike.fetched_eq.trans failed)]
      exact .ended ⟨alike.seen, sink_eq, alike.steps,
        .some (ExecError.alike_of_unexecuted alike.path (unfetched_pc failed))⟩
    | limited op fetched reached =>
      rw [round_of_limit (alike.fetched_eq.trans fetched) (alike.limit_eq.trans reached), pc_eq]
      exact .ended ⟨alike.seen, sink_eq, alike.steps,
        .some (ExecError.alike_of_unexecuted alike.path rfl)⟩
    | returned op m fetched below does =>
      obtain ⟨locals, does', _⟩ := alike.does does
      rw [round_eq_ended_iff.mpr
        (.returned op _ (alike.fetched_eq.trans fetched) (alike.limit_eq.trans below) does')]
      exact .ended ⟨seen_record alike, rfl, counted, .none⟩
    | faulted op f left fetched below faults =>
      obtain ⟨f', faults', errors⟩ := alike.faults two fetched faults
      rw [round_eq_ended_iff.mpr
        (.faulted op f' left (alike.fetched_eq.trans fetched) (alike.limit_eq.trans below) faults')]
      exact .ended ⟨seen_record alike, sink_eq, counted, .some errors⟩

theorem Alike.run (c : ClassFile) (maxSteps : Int) (two : 2 ≤ slots)
    (alike : Alike code slots slots' q q') (rounds : Nat) :
    Option.Rel (Ended.Alike code slots slots') (q.run c maxSteps rounds)
      (q'.run c maxSteps rounds) := by
  induction rounds generalizing q q' with
  | zero => exact .none
  | succ rounds ih =>
    have rounds_alike := alike.round c maxSteps two
    rw [run, run]
    generalize q.round c maxSteps = r at rounds_alike
    generalize q'.round c maxSteps = r' at rounds_alike
    cases rounds_alike with
    | next alike' => exact ih alike'
    | ended alike' => exact .some alike'

end Progress

namespace Vm

inductive ErrorsAlike (c : ClassFile) (trace : List TraceEntry) (slots slots' : Nat) :
    Option VmError -> Option VmError -> Prop
  | none : ErrorsAlike c trace slots slots' none none
  | entry (e : EntryError) : ErrorsAlike c trace slots slots' (some (.entry e)) (some (.entry e))
  | exec {code : Bytes} {e e' : ExecError} (entry : c.entryPoint = .ok code)
    (alike : ExecError.Alike code trace slots slots' e e') :
    ErrorsAlike c trace slots slots' (some (.exec e)) (some (.exec e'))

structure Alike (c : ClassFile) (slots slots' : Nat) (out out' : Vm × List TraceEntry) : Prop where
  seen : out'.2.map TraceEntry.seen = out.2.map TraceEntry.seen
  sink : out'.1.sink = out.1.sink
  steps : out'.1.steps = out.1.steps
  state : out'.1.state = out.1.state
  error : ErrorsAlike c out.2 slots slots' out.1.error out'.1.error

theorem alike_finished (vm vm' : Vm) {code : Bytes} {slots slots' : Nat} {e e' : Ended}
    (entry : vm.classFile.entryPoint = .ok code) (alike : Ended.Alike code slots slots' e e') :
    Alike vm.classFile slots slots' (vm.finished e, e.progress.trace)
      (vm'.finished e', e'.progress.trace) := by
  obtain ⟨seen, sink, steps, error⟩ := alike
  obtain ⟨p, error₁⟩ := e
  obtain ⟨p', error₂⟩ := e'
  cases error with
  | none => exact ⟨seen, sink, steps, rfl, .none⟩
  | some alike => exact ⟨seen, sink, steps, rfl, .exec entry alike⟩

/-- The number of local slots does not influence an execution, as long as there is a slot 1. With two
settings that each give at least two slots, both executions go on for ever, or both end with the same
trace, output, number of steps and state. Their errors name the same instruction with the same cause;
only an increment of another slot than slot 1, which can do nothing but fault, tells whether the slot
is there. -/
theorem execute_slots_unseen (vm : Vm) (s s' : Int) (enough : s ≤ 0 ∨ 2 ≤ s)
    (enough' : s' ≤ 0 ∨ 2 ≤ s') :
    let vm₁ : Vm := { vm with slots := s }
    let vm₂ : Vm := { vm with slots := s' }
    (∀ rounds, Option.Rel (Alike vm.classFile vm₁.slotCount vm₂.slotCount) (vm₁.execute rounds)
      (vm₂.execute rounds)) ∧
    ((∀ rounds, vm₁.execute rounds = none) ↔ ∀ rounds, vm₂.execute rounds = none) := by
  intro vm₁ vm₂
  have side (rounds : Nat) : Option.Rel (Alike vm.classFile vm₁.slotCount vm₂.slotCount)
      (vm₁.execute rounds) (vm₂.execute rounds) := by
    cases entry : vm.classFile.entryPoint with
    | error e =>
      have missing (s : Int) : ({ vm with slots := s } : Vm).execute rounds =
          some ({ vm with slots := s, state := .faulted, steps := 0, error := some (.entry e) }, []) := by
        rw [execute, entry]
      rw [missing s, missing s']
      exact .some ⟨rfl, rfl, rfl, rfl, .entry e⟩
    | ok code =>
      have start_alike := Progress.alike_start vm₁.slotCount vm₂.slotCount code vm.sink
        (two_le_slotCount enough) (two_le_slotCount enough')
      have ends_alike := start_alike.run vm.classFile vm.maxSteps (two_le_slotCount enough) rounds
      rw [execute_of_entry vm₁ entry, execute_of_entry vm₂ entry]
      exact Outcome.rel_map ends_alike fun e e' alike =>
        alike_finished vm₁ vm₂ entry alike
  refine ⟨side, ?_⟩
  constructor
  · intro endless rounds
    exact (Outcome.rel_eq_none_iff (side rounds)).mp (endless rounds)
  · intro endless rounds
    exact (Outcome.rel_eq_none_iff (side rounds)).mpr (endless rounds)

/-- Increment slot 3, which no instruction can set. -/
private def incrementing : Vm := .start
  { minor := 0, major := 0
    pool := [.unused, .utf8 (utf8 "main"), .utf8 (utf8 "Code")]
    members := [⟨0, 1, 0, some [⟨2, some (List.replicate 8 0 ++ [0x84, 0x03, 0x01])⟩]⟩] }

/-- With two slots the slot is missing; with the default of four it is there, and nothing is set. -/
theorem execute_slots_unseen_increment :
    ((2 : Int) ≤ 0 ∨ (2 : Int) ≤ 2) ∧ ((0 : Int) ≤ 0 ∨ (2 : Int) ≤ 0) ∧
      Option.Rel (Alike incrementing.classFile 2 4)
        (({ incrementing with slots := 2 } : Vm).execute 1)
        (({ incrementing with slots := 0 } : Vm).execute 1) ∧
      (({ incrementing with slots := 2 } : Vm).execute 1).map (·.1.error) =
        some (some (.exec ⟨8, Opcode.iinc.byte, .badLocal 3 2⟩)) ∧
      (({ incrementing with slots := 0 } : Vm).execute 1).map (·.1.error) =
        some (some (.exec ⟨8, Opcode.iinc.byte, .localKind 3 .void⟩)) :=
  ⟨by decide, by decide, (execute_slots_unseen incrementing 2 0 (by decide) (by decide)).1 1,
    by decide, by decide⟩

end Vm

end Jvm
