import Jvm.Proofs.Confinement
import Mathlib.Tactic.Common

/-!
Which bytes of its code a run depends on. A round looks at the instruction that the frame is at and at
nothing else of the code, so two codes that have the same instruction wherever a run comes to give the
same run. The bytes before the first instruction are never come to; bytes behind the end are come to
only when the code without them is overrun.
-/

set_option autoImplicit false
set_option relaxedAutoImplicit false

namespace Jvm

def TraceEntry.recode (code : Bytes) (e : TraceEntry) : TraceEntry :=
  { e with frame := e.frame.recode code }

namespace Progress

/-- The run in progress with other code in its frames; position, stack, locals, sink and the number
of steps stay. -/
def recode (code : Bytes) (q : Progress) : Progress :=
  { machine := q.machine.recode code, steps := q.steps, history := q.history.map (.recode code) }

end Progress

def Ended.recode (code : Bytes) (e : Ended) : Ended := { e with progress := e.progress.recode code }

def Round.recode (code : Bytes) : Round -> Round
  | .ended e => .ended (e.recode code)
  | .next q => .next (q.recode code)

/-- Other code that has the same instruction at the frame's position, or fails to have one in the same
way. -/
structure Frame.SameHere (code : Bytes) (f : Frame) : Prop where
  fetch_eq : fetch code f.pc = fetch f.code f.pc
  operands_eq : ∀ op, fetch f.code f.pc = .ok op → ∀ i : Int, f.pc < i → i < f.pc + op.width →
    (f.recode code).byteAt? i = f.byteAt? i

namespace Frame

variable {f : Frame} {code : Bytes}

theorem SameHere.of_header (same : ∀ i, codeStart ≤ i → code[i]? = f.code[i]?) :
    f.SameHere code := by
  have drop_eq {i : Nat} (started : codeStart ≤ i) : code.drop i = f.code.drop i := by
    apply List.ext_getElem?
    intro j
    rw [List.getElem?_drop, List.getElem?_drop]
    exact same (i + j) (by omega)
  refine ⟨?_, ?_⟩
  · unfold fetch
    cases f.pc with
    | negSucc n => rfl
    | ofNat i =>
      dsimp only
      by_cases started : i < codeStart
      · rw [if_pos started, if_pos started]
      · rw [drop_eq (Nat.le_of_not_lt started)]
  · intro op fetched i low high
    obtain ⟨j, here, started, _⟩ := fetch_eq_ok_iff.mp fetched
    obtain ⟨k, rfl⟩ : ∃ k : Nat, i = k := Int.eq_ofNat_of_zero_le (by omega)
    exact same k (by omega)

theorem SameHere.of_append {s : Bytes}
    (within : ∀ e, fetch f.code f.pc = .error e → e.fault.cause? ≠ some .codeOverrun) :
    f.SameHere (f.code ++ s) := by
  have byte_eq {i : Nat} {b : UInt8} (here : f.code[i]? = some b) : (f.code ++ s)[i]? = some b := by
    rw [List.getElem?_append_left (List.getElem?_eq_some_iff.mp here).1]
    exact here
  have possible := fetch_case f.code f.pc
  generalize fetched : fetch f.code f.pc = outcome at possible
  cases possible with
  | outside outside => exact (within _ fetched rfl).elim
  | truncated i op here started byte short => exact (within _ fetched rfl).elim
  | unknown i b here started byte unknown =>
    refine ⟨?_, fun op known => ?_⟩
    · rw [fetched, here]
      exact fetch_of_unknown started (byte_eq byte) unknown
    · rw [fetched] at known
      cases known
  | whole i op here started byte wide =>
    refine ⟨?_, fun op' known j low high => ?_⟩
    · rw [fetched]
      exact fetch_eq_ok_iff.mpr ⟨i, here, started, byte_eq byte, by rw [List.length_append]; omega⟩
    · rw [fetched] at known
      cases known
      obtain ⟨k, rfl⟩ : ∃ k : Nat, j = k := Int.eq_ofNat_of_zero_le (by omega)
      exact List.getElem?_append_left (by omega)

end Frame

namespace Progress

variable {c : ClassFile} {maxSteps : Int} {p q : Progress} {code : Bytes}

theorem round_recode (same : q.machine.frame.SameHere code) :
    (q.recode code).round c maxSteps = (q.round c maxSteps).recode code := by
  have fetched_eq : (q.recode code).fetched = q.fetched := same.fetch_eq
  have executed_eq {op : Opcode} (fetched : q.fetched = .ok op) :
      Machine.execute c op (q.recode code).machine.pass =
        Machine.recodeOutcome code (Machine.execute c op q.machine.pass) :=
    executed_recoded c q op code (same.operands_eq op fetched)
  have possible := round_case c maxSteps q
  generalize q.round c maxSteps = outcome at possible
  cases possible with
  | unfetched e failed => exact round_of_unfetched (fetched_eq.trans failed)
  | limited op fetched reached => exact round_of_limit (fetched_eq.trans fetched) reached
  | returned op m fetched below executed =>
    have executed' := executed_eq fetched
    rw [executed] at executed'
    exact round_of_ok (fetched_eq.trans fetched) below executed'
  | faulted op m f fetched below executed =>
    have executed' := executed_eq fetched
    rw [executed] at executed'
    exact round_of_error (fetched_eq.trans fetched) below executed'
  | proceeded op m fetched below executed =>
    have executed' := executed_eq fetched
    rw [executed] at executed'
    exact round_of_ok (fetched_eq.trans fetched) below executed'

/-- A run is the same run with other code that has the same instructions wherever it comes to. -/
theorem run_recode
    (same : ∀ n q, Advances c maxSteps p n q → q.machine.frame.SameHere code) (rounds : Nat) :
    (p.recode code).run c maxSteps rounds = (p.run c maxSteps rounds).map (.recode code) := by
  induction rounds generalizing p with
  | zero => rfl
  | succ rounds ih =>
    rw [run, run, round_recode (same 0 p .zero)]
    cases first : p.round c maxSteps with
    | ended e => rfl
    | next q => exact ih fun n q' later => same (n + 1) q' (.cons first later)

theorem Shows.code_eq (shown : Shows c maxSteps p q) :
    q.machine.frame.code = p.machine.frame.code := by
  refine shown.invariant (P := fun q => q.machine.frame.code = p.machine.frame.code) rfl ?_
  intro r r' before executes
  cases executes with
  | does op returned m fetched does => exact does.code_eq.trans before
  | faults op f left fetched faults => exact before

theorem Advances.fetch_error_eq {n rounds : Nat} {e : Ended} {f : ExecError}
    (run : Advances c maxSteps p n q) (ends : p.run c maxSteps rounds = some e)
    (failed : q.fetched = .error f) : e.error = some f := by
  have ends' : p.run c maxSteps (n + 1) = some ⟨q, some f⟩ :=
    run_eq_some_iff.mpr ⟨n, q, Nat.lt_succ_self n, run, round_of_unfetched failed⟩
  rw [run_unique ends ends']

/-- A run depends only on the instructions it comes to, whatever class, position, stack, locals, sink
and step limit it starts with. Codes that differ in their first eight bytes alone give the same run,
also one that goes on for ever and one that branches into these bytes. A run that ends without
overrunning its code ends in the same way when the code is prolonged. The same run means the same
observations, steps, writes, error, position, stack and locals; only the code in the frames is the
other one. -/
theorem run_depends_on_reached_code (c : ClassFile) (m : Machine) (maxSteps : Int) :
    (∀ code code' : Bytes, (∀ i, codeStart ≤ i → code'[i]? = code[i]?) → ∀ rounds,
      (start (m.recode code')).run c maxSteps rounds =
        ((start (m.recode code)).run c maxSteps rounds).map (.recode code')) ∧
    (∀ (code s : Bytes) (rounds : Nat) (e : Ended),
      (start (m.recode code)).run c maxSteps rounds = some e →
      (∀ err, e.error = some err → err.fault.cause? ≠ some .codeOverrun) →
      (start (m.recode (code ++ s))).run c maxSteps rounds = some (e.recode (code ++ s))) := by
  refine ⟨?_, ?_⟩
  · intro code code' same rounds
    refine run_recode (p := start (m.recode code)) ?_ rounds
    refine fun n q run => .of_header fun i started => ?_
    rw [(Shows.between run).code_eq]
    exact same i started
  · intro code s rounds e ends within
    have same (n : Nat) (q : Progress) (run : Advances c maxSteps (start (m.recode code)) n q) :
        q.machine.frame.SameHere (code ++ s) := by
      have code_eq : q.machine.frame.code = code := (Shows.between run).code_eq
      rw [← code_eq]
      exact .of_append fun f failed => within f (run.fetch_error_eq ends failed)
    have recoded := run_recode same rounds
    rw [ends] at recoded
    exact recoded

/-- Branch back by three bytes, into the bytes before the first instruction. -/
private def intoHeader (header : Bytes) : Bytes := header ++ [0xA7, 0xFF, 0xFD]

private def constantReturn : Bytes := List.replicate 8 0 ++ [0x04, 0xB1]

theorem run_depends_on_reached_code_instances :
    (∀ i, codeStart ≤ i → (intoHeader [1, 2, 3, 4, 5, 6, 7, 8])[i]? =
      (intoHeader (List.replicate 8 0x04))[i]?) ∧
    (start ⟨.start 0 (intoHeader [1, 2, 3, 4, 5, 6, 7, 8]), .unlimited⟩).run .empty 0 2 =
      ((start ⟨.start 0 (intoHeader (List.replicate 8 0x04)), .unlimited⟩).run .empty 0 2).map
        (.recode (intoHeader [1, 2, 3, 4, 5, 6, 7, 8])) ∧
    ((start ⟨.start 0 (intoHeader (List.replicate 8 0x04)), .unlimited⟩).run .empty 0 2).map (·.error) =
      some (some ⟨5, 0, .noInstruction⟩) ∧
    ∃ e, (start ⟨.start 0 constantReturn, .unlimited⟩).run .empty 0 2 = some e ∧ e.error = none ∧
      (start ⟨.start 0 (constantReturn ++ [0xFF]), .unlimited⟩).run .empty 0 2 =
        some (e.recode (constantReturn ++ [0xFF])) := by
  have same : ∀ i, codeStart ≤ i → (intoHeader [1, 2, 3, 4, 5, 6, 7, 8])[i]? =
      (intoHeader (List.replicate 8 0x04))[i]? := by
    intro i started
    unfold codeStart at started
    rw [intoHeader, intoHeader, List.getElem?_append_right started, List.getElem?_append_right started]
    rfl
  refine ⟨same, ?_, by decide, ?_⟩
  · exact (run_depends_on_reached_code .empty ⟨.start 0 [], .unlimited⟩ 0).1 _ _ same 2
  · refine ⟨_, rfl, rfl, ?_⟩
    exact (run_depends_on_reached_code .empty ⟨.start 0 [], .unlimited⟩ 0).2 constantReturn [0xFF] 2 _
      rfl (by simp)

end Progress

end Jvm
