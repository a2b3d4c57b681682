import Jvm.Proofs.Execution
import Mathlib.Data.List.Chain
import Mathlib.Tactic.Common

/-!
The trace of a run is a path through its code. An instruction that goes on leads to the position
behind it or to the target of its branch, and it changes the depth of the stack by a number that its
byte alone decides. So the column of depths is fixed by the column of bytes.
-/

set_option autoImplicit false
set_option relaxedAutoImplicit false

namespace Jvm

/-- By how much an instruction changes the depth of the stack. -/
def Opcode.effect : Opcode -> Int
  | iconst1 | iconst3 | iconst5 | bipush | ldc | iload1 | getstatic => 1
  | istore1 | irem | ifne => -1
  | ifIcmpgt | invokevirtual => -2
  | iinc | goto | return_ => 0

def Bytes.signedAt? (code : Bytes) (i : Nat) : Option Int := do
  let high <- code[i]?
  let low <- code[i + 1]?
  return Int.bmod (high.toNat * 256 + low.toNat) 65536

/-- The control-flow graph of a code: an instruction at a position, and the positions that it can
lead to. -/
inductive Edge (code : Bytes) : Opcode -> Nat -> Int -> Prop
  | behind {op : Opcode} {i : Nat} (goes : op ≠ .goto) (stays : op ≠ .return_) :
    Edge code op i (i + op.width)
  | branch {op : Opcode} {i : Nat} {distance : Int}
    (branches : op = .ifne ∨ op = .ifIcmpgt ∨ op = .goto)
    (operand : code.signedAt? (i + 1) = some distance) : Edge code op i (i + distance)

/-- The instruction of a trace entry leads to a frame: along an edge to the frame's position, and
with its effect on the depth. -/
def TraceEntry.LeadsTo (code : Bytes) (e : TraceEntry) (f : Frame) : Prop :=
  ∃ (op : Opcode) (i : Nat), e.opcode = op.byte ∧ e.pc = i ∧ Edge code op i f.pc ∧
    (f.depth : Int) = e.depth + op.effect

theorem Frame.signedAt?_of_u16At? {f : Frame} {i : Nat} {n : UInt16} (operand : f.u16At? i = some n) :
    f.code.signedAt? i = some n.toInt16.toInt := by
  have unfolded : (do
      let high <- f.code[i]?
      let low <- f.code[i + 1]?
      return (Bytes.bigEndian [high, low]).toUInt16 : Option UInt16) = some n := operand
  cases first : f.code[i]? with
  | none => simp [first] at unfolded
  | some high =>
    cases second : f.code[i + 1]? with
    | none => simp [first, second] at unfolded
    | some low =>
      have spelled : (Bytes.bigEndian [high, low]).toUInt16 = n := by
        simpa [first, second] using unfolded
      have below : high.toNat * 256 + low.toNat < 65536 := by
        have := high.toNat_lt
        have := low.toNat_lt
        omega
      have number : n.toNat = high.toNat * 256 + low.toNat := by
        rw [← spelled]
        simp [Bytes.bigEndian, Nat.mod_eq_of_lt below]
      have signed : n.toInt16.toInt = Int.bmod n.toNat 65536 := BitVec.toInt_eq_toNat_bmod _
      rw [Bytes.signedAt?, first, second, signed, number]
      simp

namespace Machine.Does

variable {c : ClassFile} {m m' : Machine} {op : Opcode} {returned : Bool}

theorem depth_eq (does : Does c m op returned m') :
    (m'.frame.depth : Int) = m.frame.depth + op.effect := by
  cases does with
  | invokevirtual index method n line rest sink operand resolved known top printed =>
    have popped := Native.line?_length top
    simp only [Frame.depth, behind, moved, Opcode.effect, popped]
    omega
  | iconst1 | iconst3 | iconst5 | bipush | ldc | iload1 | iinc | goto | return_ | getstatic =>
    simp [Frame.depth, behind, moved, stored, Opcode.effect]
  | _ =>
    -- What is popped is known from the shape of the stack.
    rename_i top _
    simp only [Frame.depth, behind, moved, stored, Opcode.effect, top, List.length_cons]
    omega

theorem edge {i : Nat} (does : Does c m op false m') (here : m.frame.pc = i) :
    Edge m.frame.code op i m'.frame.pc := by
  have behind_edge (op : Opcode) (goes : op ≠ .goto) (stays : op ≠ .return_) :
      Edge m.frame.code op i (m.frame.pc + op.width) := by
    rw [here]
    exact .behind goes stays
  have branch_edge {op : Opcode} {distance : UInt16}
      (branches : op = .ifne ∨ op = .ifIcmpgt ∨ op = .goto)
      (operand : m.frame.u16At? (m.frame.pc + 1) = some distance) :
      Edge m.frame.code op i (m.frame.pc + distance.toInt16.toInt) := by
    rw [here] at operand ⊢
    exact .branch branches (Frame.signedAt?_of_u16At? operand)
  cases does with
  | ifneTaken distance v rest operand top taken => exact branch_edge (by simp) operand
  | ifIcmpgtTaken distance v2 v1 rest operand top taken => exact branch_edge (by simp) operand
  | goto distance operand => exact branch_edge (by simp) operand
  | _ => exact behind_edge _ (by decide) (by decide)

end Machine.Does

namespace Progress

/-- The trace of the run is a path through the code. -/
structure OnPath (code : Bytes) (q : Progress) : Prop where
  counted : q.steps = q.trace.length
  begins : ∀ e, q.trace.head? = some e → e.pc = codeStart ∧ e.depth = 0
  inside : ∀ e ∈ q.trace, ∃ (op : Opcode) (i : Nat), e.pc = i ∧ codeStart ≤ i ∧
    code[i]? = some e.opcode ∧ e.opcode = op.byte ∧ i + op.width ≤ code.length
  linked : q.trace.IsChain fun e e' => e.LeadsTo code e'.frame
  returns : ∀ e ∈ q.trace.dropLast, e.opcode ≠ Opcode.return_.byte

/-- The trace of a run that goes on is a path that leads to where the run is. -/
structure Underway (code : Bytes) (q : Progress) : Prop extends OnPath code q where
  code_eq : q.machine.frame.code = code
  fresh : q.trace = [] → q.machine.frame.pc = codeStart ∧ q.machine.frame.depth = 0
  arrives : ∀ e ∈ q.trace.getLast?, e.LeadsTo code q.machine.frame
  unreturned : ∀ e ∈ q.trace, e.opcode ≠ Opcode.return_.byte

variable {c : ClassFile} {maxSteps : Int} {code : Bytes} {p q : Progress} {op : Opcode}

theorem underway_start (slots : Nat) (code : Bytes) (sink : Sink) :
    Underway code (start { frame := .start slots code, sink := sink }) where
  counted := rfl
  begins := by simp [trace, start]
  inside := by simp [trace, start]
  linked := .nil
  returns := by simp [trace, start]
  code_eq := rfl
  fresh _ := ⟨rfl, rfl⟩
  arrives := by simp [trace, start]
  unreturned := by simp [trace, start]

theorem Underway.onPath_record (path : Underway code q) (fetched : q.fetched = .ok op)
    (m : Machine) : OnPath code (q.record op m) := by
  obtain ⟨i, here, started, byte, wide⟩ := fetch_eq_ok_iff.mp fetched
  rw [path.code_eq] at byte wide
  constructor
  · rw [trace_record, List.length_append, List.length_singleton, ← path.counted]
    rfl
  · intro e first
    rw [trace_record] at first
    cases before : q.trace with
    | nil =>
      obtain rfl : ⟨op.byte, q.machine.frame⟩ = e := by simpa [before] using first
      exact path.fresh before
    | cons e' rest =>
      obtain rfl : e' = e := by simpa [before] using first
      exact path.begins e' (by simp [before])
  · intro e member
    rw [trace_record, List.mem_append, List.mem_singleton] at member
    rcases member with earlier | rfl
    · exact path.inside e earlier
    · exact ⟨op, i, here, started, byte, rfl, wide⟩
  · -- The one new link is from the last entry to where the run stands.
    rw [trace_record, List.isChain_append]
    refine ⟨path.linked, .singleton _, ?_⟩
    intro e last e' only
    obtain rfl : ⟨op.byte, q.machine.frame⟩ = e' := by simpa using only
    exact path.arrives e last
  · rw [trace_record, List.dropLast_concat]
    exact path.unreturned

theorem Underway.record {m : Machine} (path : Underway code q) (fetched : q.fetched = .ok op)
    (does : Machine.Does c q.machine op false m) : Underway code (q.record op m) where
  toOnPath := path.onPath_record fetched m
  code_eq := does.code_eq.trans path.code_eq
  fresh := by simp [trace_record]
  arrives := by
    obtain ⟨i, here, _⟩ := fetch_eq_ok_iff.mp fetched
    have edge := does.edge here
    rw [path.code_eq] at edge
    intro e last
    obtain rfl : ⟨op.byte, q.machine.frame⟩ = e := by simpa [trace_record] using last
    exact ⟨op, i, rfl, here, edge, does.depth_eq⟩
  unreturned := by
    intro e member
    rw [trace_record, List.mem_append, List.mem_singleton] at member
    rcases member with earlier | rfl
    · exact path.unreturned e earlier
    · change op.byte ≠ Opcode.return_.byte
      cases does <;> decide

theorem Advances.underway {n : Nat} (first : Underway code p) (run : Advances c maxSteps p n q) :
    Underway code q := by
  induction run with
  | zero => exact first
  | succ prior last ih =>
    obtain ⟨op, m, fetched, _, does, rfl⟩ := round_eq_next_iff.mp last
    exact ih.record fetched does

theorem Shows.onPath (first : Underway code p) (shown : Shows c maxSteps p q) : OnPath code q := by
  cases shown with
  | between run => exact (run.underway first).toOnPath
  | last run ended =>
    have path := run.underway first
    cases round_eq_ended_iff.mp ended with
    | unfetched e failed => exact path.toOnPath
    | limited op fetched reached => exact path.toOnPath
    | returned op m fetched below does => exact path.onPath_record fetched m
    | faulted op f left fetched below faults => exact path.onPath_record fetched _

/-- The trace of every run from the start of a code, with or without a step limit, is a path through
the code: at every point of a run that may go on for ever, and when a run has ended. Every round that
goes on adds its instruction. -/
theorem run_traces_path (c : ClassFile) (slots : Nat) (code : Bytes) (sink : Sink) (maxSteps : Int) :
    let p := start { frame := .start slots code, sink := sink }
    (∀ n q, Advances c maxSteps p n q → q.trace.length = n) ∧
    (∀ q, Shows c maxSteps p q → OnPath code q) ∧
    (∀ rounds e, p.run c maxSteps rounds = some e → OnPath code e.progress) := by
  intro p
  have first : Underway code p := underway_start slots code sink
  refine ⟨?_, ?_, ?_⟩
  · intro n q run
    rw [run.trace_length]
    change 0 + n = n
    omega
  · intro q shown
    exact shown.onPath first
  · intro rounds e ends
    exact (shows_of_run ends).onPath first

/-- A constant and a branch back to it. -/
private def endlessLoop : Bytes := List.replicate 8 0 ++ [0x04, 0x9A, 0xFF, 0xFF]

theorem run_traces_path_back :
    ∃ q, Shows .empty 0 (start { frame := .start 0 endlessLoop, sink := .unlimited }) q ∧
      q.trace.map (fun e => (e.pc, e.opcode, e.depth)) = [(8, 0x04, 0), (9, 0x9A, 1), (8, 0x04, 0)] ∧
      OnPath endlessLoop q := by
  have shown : Shows .empty 0 (start { frame := .start 0 endlessLoop, sink := .unlimited }) _ :=
    .between (.succ (.succ (.succ .zero rfl) rfl) rfl)
  exact ⟨_, shown, by decide, (run_traces_path .empty 0 endlessLoop .unlimited 0).2.1 _ shown⟩

end Progress

end Jvm
