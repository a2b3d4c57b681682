import Jvm.Proofs.Provenance
import Mathlib.Tactic.Common

/-!
What a run prints. The output can be read off the trace: a call that does not fault writes one line,
made from the top of the stack as the trace shows it, and nothing else writes. The round that ends a
run writes nothing, be it a return or a fault.
-/

set_option autoImplicit false
set_option relaxedAutoImplicit false

namespace Jvm

def Native.id : Native -> Bytes
  | printlnInt => utf8 "java/io/PrintStream.println:(I)V"
  | printlnString => utf8 "java/io/PrintStream.println:(Ljava/lang/String;)V"

/-- The line that a call at the frame's position prints: a number in decimal or a text as it stands,
with a newline. There is none when the call names no print method or does not find an argument of the
method's kind on top of an integer. -/
def Frame.printed? (c : ClassFile) (f : Frame) : Option Bytes := do
  let index <- f.u16At? (f.pc + 1)
  let method <- (c.resolveMethodref index).toOption
  match f.stack with
  | .int n :: .int _ :: _ =>
    if method.id = Native.printlnInt.id then some (Bytes.int n.toInt ++ utf8 "\n") else none
  | .string text :: .int _ :: _ =>
    if method.id = Native.printlnString.id then some (text ++ utf8 "\n") else none
  | _ => none

def TraceEntry.printed? (c : ClassFile) (e : TraceEntry) : Option Bytes :=
  if e.opcode = Opcode.invokevirtual.byte then e.frame.printed? c else none

/-- Whether an instruction reports the fault when it is executed. The other faults keep an instruction
from being executed. -/
def Fault.executing : Fault -> Bool
  | .noInstruction | .unsupportedOpcode | .operandsTruncated | .stepLimit => false
  | _ => true

/-- The instructions of a finished run that were executed without a fault. -/
def Ended.completed (e : Ended) : List TraceEntry :=
  if (e.error.map (·.fault.executing)).getD false then e.progress.trace.dropLast
  else e.progress.trace

theorem Native.ofId?_eq_some_iff {id : Bytes} {n : Native} : ofId? id = some n ↔ id = n.id := by
  constructor
  · intro found
    unfold ofId? at found
    split at found
    · cases found
      assumption
    · split at found
      · cases found
        assumption
      · cases found
  · rintro rfl
    cases n <;> decide

theorem Frame.Unpoppable.executing {kinds : List Kind} {stack left : List Value} {e : Fault}
    (top : Unpoppable kinds stack e left) : e.executing = true := by
  induction top with
  | underflow => rfl
  | wrong _ => rfl
  | later _ _ ih => exact ih

namespace Machine

variable {c : ClassFile} {m m' : Machine} {op : Opcode} {returned : Bool}

theorem printed?_of_line? {index : UInt16} {method : MemberRef} {n : Native} {line : Bytes}
    {rest : List Value} (operand : m.frame.u16At? (m.frame.pc + 1) = some index)
    (resolved : c.resolveMethodref index = .ok method) (known : Native.ofId? method.id = some n)
    (top : n.line? m.frame.stack = some (line, rest)) :
    m.frame.printed? c = some (line ++ utf8 "\n") ∧ rest = m.frame.stack.drop 2 := by
  have named := Native.ofId?_eq_some_iff.mp known
  unfold Native.line? at top
  split at top
  · rename_i k receiver below stack
    cases top
    simp [Frame.printed?, operand, resolved, Except.toOption, stack, named]
  · rename_i text receiver below stack
    cases top
    simp [Frame.printed?, operand, resolved, Except.toOption, stack, named]
  · cases top

theorem Does.sink_eq (does : Does c m op returned m') (other : op ≠ .invokevirtual) :
    m'.sink = m.sink := by
  cases does with
  | invokevirtual => exact (other rfl).elim
  | _ => rfl

theorem Does.prints (does : Does c m .invokevirtual returned m') :
    ∃ line, m.frame.printed? c = some line ∧ m'.sink.writes = line :: m.sink.writes ∧
      m'.frame.stack = m.frame.stack.drop 2 := by
  cases does with
  | invokevirtual index method n line rest sink operand resolved known top printed =>
    obtain ⟨prints, popped⟩ := printed?_of_line? operand resolved known top
    exact ⟨_, prints, Sink.writes_of_println? printed, popped⟩

theorem Faults.executing {e : Fault} {left : List Value} (faults : Faults c m op e left) :
    e.executing = true := by
  cases faults with
  | irem _ _ top => exact top.executing
  | ifne _ _ top => exact top.executing
  | ifIcmpgt _ _ top => exact top.executing
  | _ => rfl

end Machine

namespace Progress

variable {c : ClassFile} {maxSteps : Int} {p q q' : Progress}

theorem unfetched_not_executing {e : ExecError} (failed : q.fetched = .error e) :
    e.fault.executing = false := by
  have possible := fetch_case q.machine.frame.code q.machine.frame.pc
  rw [show fetch _ _ = .error e from failed] at possible
  cases possible <;> rfl

/-- Executed instructions account for what a sink has taken since: each call among them has its line,
and the lines are the new writes, in order. -/
structure Printed (c : ClassFile) (executed : List TraceEntry) (before after : Sink) : Prop where
  each : ∀ t ∈ executed, t.opcode = Opcode.invokevirtual.byte → (t.frame.printed? c).isSome
  writes : after.writes.reverse = before.writes.reverse ++ executed.filterMap (TraceEntry.printed? c)

theorem Printed.output_eq {executed : List TraceEntry} {before after : Sink}
    (printed : Printed c executed before after) :
    after.output = before.output ++ (executed.filterMap (TraceEntry.printed? c)).flatten := by
  rw [Sink.output, printed.writes, List.flatten_append, Sink.output]

theorem Printed.append_call {executed : List TraceEntry} {before after after' : Sink} {t : TraceEntry}
    {line : Bytes} (printed : Printed c executed before after)
    (call : t.opcode = Opcode.invokevirtual.byte) (prints : t.frame.printed? c = some line)
    (written : after'.writes = line :: after.writes) : Printed c (executed ++ [t]) before after' where
  each := by
    intro t' member calls
    rcases List.mem_append.mp member with earlier | last
    · exact printed.each t' earlier calls
    · obtain rfl := List.mem_singleton.mp last
      rw [prints]
      rfl
  writes := by
    have shown : t.printed? c = some line := (if_pos call).trans prints
    rw [written, List.reverse_cons, printed.writes, List.filterMap_append, List.append_assoc]
    simp [shown]

theorem Printed.append_silent {executed : List TraceEntry} {before after : Sink} {t : TraceEntry}
    (printed : Printed c executed before after) (silent : t.opcode ≠ Opcode.invokevirtual.byte) :
    Printed c (executed ++ [t]) before after where
  each := by
    intro t' member calls
    rcases List.mem_append.mp member with earlier | last
    · exact printed.each t' earlier calls
    · obtain rfl := List.mem_singleton.mp last
      exact (silent calls).elim
  writes := by
    have shown : t.printed? c = none := if_neg silent
    rw [printed.writes, List.filterMap_append]
    simp [shown]

theorem round_next_writes (next : q.round c maxSteps = .next q') :
    (q.fetched = .ok .invokevirtual →
      ∃ line, q.machine.frame.printed? c = some line ∧
        q'.machine.sink.writes = line :: q.machine.sink.writes ∧
        q'.machine.frame.stack = q.machine.frame.stack.drop 2) ∧
    (q.fetched ≠ .ok .invokevirtual → q'.machine.sink = q.machine.sink) := by
  obtain ⟨op, m, fetched, _, does, rfl⟩ := round_eq_next_iff.mp next
  rw [fetched]
  refine ⟨?_, ?_⟩
  · intro calls
    cases calls
    exact does.prints
  · intro other
    exact does.sink_eq fun calls => other (congrArg Except.ok calls)

theorem round_ended_sink {e : Ended} (ended : q.round c maxSteps = .ended e) :
    e.progress.machine.sink = q.machine.sink := by
  cases round_eq_ended_iff.mp ended with
  | unfetched e failed => rfl
  | limited op fetched reached => rfl
  | returned op m fetched below does =>
    refine does.sink_eq ?_
    rintro rfl
    cases does
  | faulted op f left fetched below faults => rfl

theorem round_ended_completed {q : Progress} {e : Ended} {err : ExecError}
    (ended : q.round c maxSteps = .ended e) (outcome : e.error = some err) :
    e.completed = q.trace := by
  cases round_eq_ended_iff.mp ended with
  | unfetched e failed => simp [Ended.completed, unfetched_not_executing failed]
  | limited op fetched reached => rfl
  | returned op m fetched below does => cases outcome
  | faulted op f left fetched below faults =>
    simp [Ended.completed, faults.executing, trace_record]

theorem Printed.next {before : Sink} (printed : Printed c q.trace before q.machine.sink)
    (next : q.round c maxSteps = .next q') : Printed c q'.trace before q'.machine.sink := by
  obtain ⟨calls, others⟩ := round_next_writes next
  obtain ⟨op, m, fetched, _, _, rfl⟩ := round_eq_next next
  rw [trace_record]
  by_cases call : op = .invokevirtual
  · subst call
    obtain ⟨line, prints, written, _⟩ := calls fetched
    exact printed.append_call rfl prints written
  · have same := others fun calls => call (Except.ok.inj (fetched.symm.trans calls))
    rw [same]
    exact printed.append_silent fun byte => call (Opcode.byte_injective byte)

theorem Advances.printed {n : Nat} {before : Sink} (first : Printed c p.trace before p.machine.sink)
    (run : Advances c maxSteps p n q) : Printed c q.trace before q.machine.sink := by
  induction run with
  | zero => exact first
  | succ prior last ih => exact ih.next last

theorem Printed.ended {before : Sink} {e : Ended} (printed : Printed c q.trace before q.machine.sink)
    (ended : q.round c maxSteps = .ended e) :
    Printed c e.completed before e.progress.machine.sink := by
  rw [round_ended_sink ended]
  cases outcome : e.error with
  | some err =>
    rw [round_ended_completed ended outcome]
    exact printed
  | none =>
    -- The last instruction is a return, which is in the trace but is not a call.
    cases round_eq_ended_iff.mp ended with
    | returned op m fetched below does =>
      have silent : op.byte ≠ Opcode.invokevirtual.byte := by
        cases does
        decide
      have completed : (Ended.mk (q.record op m) none).completed =
          q.trace ++ [⟨op.byte, q.machine.frame⟩] := trace_record q op m
      rw [completed]
      exact printed.append_silent silent
    | _ => cases outcome

/-- The output of a run is that of the calls in its trace that did not fault, in order. A round at a
call that goes on writes one line, the one that the frame before it shows, and takes two values from
the stack; no other round writes, be it one that goes on, faults or returns. So at every point of a
run, and when it has ended, the sink has taken exactly one write for each call that was completed. -/
theorem run_output_eq_calls (c : ClassFile) (m : Machine) (maxSteps : Int) :
    (∀ q q' : Progress, q.round c maxSteps = .next q' →
      (q.fetched = .ok .invokevirtual →
        ∃ line, q.machine.frame.printed? c = some line ∧
          q'.machine.sink.writes = line :: q.machine.sink.writes ∧
          q'.machine.frame.stack = q.machine.frame.stack.drop 2) ∧
      (q.fetched ≠ .ok .invokevirtual → q'.machine.sink = q.machine.sink)) ∧
    (∀ (q : Progress) (e : Ended), q.round c maxSteps = .ended e →
      e.progress.machine.sink = q.machine.sink ∧
      e.completed = if e.error = none then e.progress.trace else q.trace) ∧
    (∀ n q, Advances c maxSteps (start m) n q → Printed c q.trace m.sink q.machine.sink) ∧
    (∀ rounds e, (start m).run c maxSteps rounds = some e →
      Printed c e.completed m.sink e.progress.machine.sink ∧
      e.progress.machine.sink.output =
        m.sink.output ++ (e.completed.filterMap (TraceEntry.printed? c)).flatten) := by
  have first : Printed c (start m).trace m.sink (start m).machine.sink :=
    ⟨by simp [trace, start], by simp [trace, start]⟩
  refine ⟨fun q q' => round_next_writes, ?_, ?_, ?_⟩
  · intro q e ended
    refine ⟨round_ended_sink ended, ?_⟩
    cases outcome : e.error with
    | none => simp [Ended.completed, outcome]
    | some err => exact round_ended_completed ended outcome
  · intro n q run
    exact run.printed first
  · intro rounds e ends
    obtain ⟨n, q, _, run, ended⟩ := run_eq_some_iff.mp ends
    have printed := (run.printed first).ended ended
    exact ⟨printed, printed.output_eq⟩

/-- Print -128 and then 1. -/
private def printingTwice : Bytes :=
  List.replicate 8 0 ++ [0xB2, 0, 0, 0x10, 0x80, 0xB6, 0, 6, 0xB2, 0, 0, 0x04, 0xB6, 0, 6]

private def oneLine : Machine where
  frame := .start 0 printingTwice
  sink := { writes := [], budget := some 1 }

/-- The second call is in the trace but was not completed, and it has written nothing. -/
theorem run_output_eq_calls_refused :
    ∃ e, (start oneLine).run (.printing printingTwice) 0 6 = some e ∧
      e.error.map (·.pc) = some 20 ∧ e.progress.trace.length = 6 ∧ e.completed.length = 5 ∧
      Printed (.printing printingTwice) e.completed oneLine.sink e.progress.machine.sink ∧
      e.progress.machine.sink.output = utf8 "-128\n" := by
  refine ⟨_, rfl, by decide, by decide, by decide, ?_, by decide⟩
  exact ((run_output_eq_calls (.printing printingTwice) oneLine 0).2.2.2 6 _ rfl).1

end Progress

end Jvm
