import Jvm.Machine.Run
import Mathlib.Tactic.Common

/-!
The run loop, round by round: what one round can lead to, and a whole run as rounds one after the
other. A run ends exactly when some number of rounds goes on and the next one does not.
-/

set_option autoImplicit false
set_option relaxedAutoImplicit false

namespace Jvm

theorem Opcode.ofByte?_eq_some_iff {b : UInt8} {op : Opcode} :
    Opcode.ofByte? b = some op ↔ op.byte = b := by
  constructor
  · intro found
    simpa [Opcode.ofByte?] using List.find?_some found
  · rintro rfl
    exact Opcode.ofByte?_byte op

theorem Opcode.byte_injective {op op' : Opcode} (same : op.byte = op'.byte) : op = op' := by
  have found := Opcode.ofByte?_eq_some_iff.mpr same
  rw [Opcode.ofByte?_byte] at found
  exact (Option.some.inj found).symm

theorem Opcode.width_pos (op : Opcode) : 0 < op.width := by cases op <;> decide

theorem fetch_eq_ok_iff {code : Bytes} {pc : Int} {op : Opcode} :
    fetch code pc = .ok op ↔
      ∃ i : Nat, pc = i ∧ codeStart ≤ i ∧ code[i]? = some op.byte ∧ i + op.width ≤ code.length := by
  unfold fetch
  cases pc with
  | negSucc n =>
    constructor
    · intro fetched
      cases fetched
    · rintro ⟨i, same, _⟩
      omega
  | ofNat i =>
    have dropped {b : UInt8} (here : code[i]? = some b) :
        code.drop i = b :: code.drop (i + 1) := by
      obtain ⟨inside, same⟩ := List.getElem?_eq_some_iff.mp here
      rw [List.drop_eq_getElem_cons inside, same]
    dsimp only
    constructor
    · intro fetched
      split at fetched
      · cases fetched
      · rename_i started
        split at fetched
        · cases fetched
        · rename_i b operands rest
          split at fetched
          · cases fetched
          · rename_i op' known
            split at fetched
            · cases fetched
            · rename_i wide
              cases fetched
              have here : code[i]? = some b := by
                rw [← List.head?_drop, rest, List.head?_cons]
              have counted := congrArg List.length rest
              rw [List.length_drop, List.length_cons] at counted
              obtain rfl := Opcode.ofByte?_eq_some_iff.mp known
              exact ⟨i, rfl, Nat.le_of_not_lt started, here, by omega⟩
    · rintro ⟨i', same, started, here, wide⟩
      obtain rfl : i = i' := Int.ofNat.inj same
      have enough : ¬ (code.drop (i + 1)).length + 1 < op.width := by
        rw [List.length_drop]
        omega
      rw [if_neg (Nat.not_lt.mpr started), dropped here]
      dsimp only
      rw [Opcode.ofByte?_byte]
      dsimp only
      rw [if_neg enough]

theorem fetch_of_outside {code : Bytes} {pc : Int}
    (outside : pc < codeStart ∨ (code.length : Int) ≤ pc) :
    fetch code pc = .error ⟨pc, 0, .noInstruction⟩ := by
  unfold fetch
  cases pc with
  | negSucc n => rfl
  | ofNat i =>
    dsimp only
    split
    · rfl
    · rename_i started
      have beyond : code.length ≤ i := by
        have cast : (Int.ofNat i) = (i : Int) := rfl
        omega
      rw [List.drop_eq_nil_of_le beyond]

theorem fetch_of_unknown {code : Bytes} {i : Nat} {b : UInt8} (started : codeStart ≤ i)
    (here : code[i]? = some b) (unknown : Opcode.ofByte? b = none) :
    fetch code i = .error ⟨i, b, .unsupportedOpcode⟩ := by
  obtain ⟨inside, same⟩ := List.getElem?_eq_some_iff.mp here
  change fetch code (.ofNat i) = _
  unfold fetch
  dsimp only
  rw [if_neg (Nat.not_lt.mpr started), List.drop_eq_getElem_cons inside, same]
  dsimp only
  rw [unknown]
  rfl

theorem fetch_of_truncated {code : Bytes} {i : Nat} {op : Opcode} (started : codeStart ≤ i)
    (here : code[i]? = some op.byte) (short : code.length < i + op.width) :
    fetch code i = .error ⟨i, op.byte, .operandsTruncated⟩ := by
  obtain ⟨inside, same⟩ := List.getElem?_eq_some_iff.mp here
  have few : (code.drop (i + 1)).length + 1 < op.width := by
    rw [List.length_drop]
    omega
  change fetch code (.ofNat i) = _
  unfold fetch
  dsimp only
  rw [if_neg (Nat.not_lt.mpr started), List.drop_eq_getElem_cons inside, same]
  dsimp only
  rw [Opcode.ofByte?_byte]
  dsimp only
  rw [if_pos few]
  rfl

inductive FetchCase (code : Bytes) (pc : Int) : Except ExecError Opcode -> Prop
  | outside (outside : pc < codeStart ∨ (code.length : Int) ≤ pc) :
    FetchCase code pc (.error ⟨pc, 0, .noInstruction⟩)
  | unknown (i : Nat) (b : UInt8) (here : pc = i) (started : codeStart ≤ i)
    (byte : code[i]? = some b) (unknown : Opcode.ofByte? b = none) :
    FetchCase code pc (.error ⟨pc, b, .unsupportedOpcode⟩)
  | truncated (i : Nat) (op : Opcode) (here : pc = i) (started : codeStart ≤ i)
    (byte : code[i]? = some op.byte) (short : code.length < i + op.width) :
    FetchCase code pc (.error ⟨pc, op.byte, .operandsTruncated⟩)
  | whole (i : Nat) (op : Opcode) (here : pc = i) (started : codeStart ≤ i)
    (byte : code[i]? = some op.byte) (wide : i + op.width ≤ code.length) :
    FetchCase code pc (.ok op)

theorem fetch_case (code : Bytes) (pc : Int) : FetchCase code pc (fetch code pc) := by
  by_cases outside : pc < codeStart ∨ (code.length : Int) ≤ pc
  · rw [fetch_of_outside outside]
    exact .outside outside
  · obtain ⟨i, rfl⟩ : ∃ i : Nat, pc = i := Int.eq_ofNat_of_zero_le (by omega)
    have started : codeStart ≤ i := by omega
    have inside : i < code.length := by omega
    have byte : code[i]? = some code[i] := List.getElem?_eq_getElem inside
    cases known : Opcode.ofByte? code[i] with
    | none =>
      rw [fetch_of_unknown started byte known]
      exact .unknown i code[i] rfl started byte known
    | some op =>
      rw [← Opcode.ofByte?_eq_some_iff.mp known] at byte
      rcases Nat.lt_or_ge code.length (i + op.width) with short | wide
      · rw [fetch_of_truncated started byte short]
        exact .truncated i op rfl started byte short
      · rw [fetch_eq_ok_iff.mpr ⟨i, rfl, started, byte, wide⟩]
        exact .whole i op rfl started byte wide

def Machine.pass (m : Machine) : Machine :=
  { m with frame := { m.frame with pc := m.frame.pc + 1 } }

namespace Progress

def fetched (p : Progress) : Except ExecError Opcode :=
  fetch p.machine.frame.code p.machine.frame.pc

def record (p : Progress) (op : Opcode) (m : Machine) : Progress :=
  { machine := m, steps := p.steps + 1, history := ⟨op.byte, p.machine.frame⟩ :: p.history }

theorem trace_record (p : Progress) (op : Opcode) (m : Machine) :
    (p.record op m).trace = p.trace ++ [⟨op.byte, p.machine.frame⟩] := by
  simp [trace, record]

inductive RoundCase (c : ClassFile) (maxSteps : Int) (p : Progress) : Round -> Prop
  | unfetched (e : ExecError) (failed : p.fetched = .error e) :
    RoundCase c maxSteps p (.ended ⟨p, some e⟩)
  | limited (op : Opcode) (fetched : p.fetched = .ok op)
    (reached : limitReached maxSteps p.steps = true) :
    RoundCase c maxSteps p (.ended ⟨p, some ⟨p.machine.frame.pc, op.byte, .stepLimit⟩⟩)
  | returned (op : Opcode) (m : Machine) (fetched : p.fetched = .ok op)
    (below : limitReached maxSteps p.steps = false)
    (executed : Machine.execute c op p.machine.pass = .ok true m) :
    RoundCase c maxSteps p (.ended ⟨p.record op m, none⟩)
  | faulted (op : Opcode) (m : Machine) (f : Fault) (fetched : p.fetched = .ok op)
    (below : limitReached maxSteps p.steps = false)
    (executed : Machine.execute c op p.machine.pass = .error f m) :
    RoundCase c maxSteps p (.ended ⟨p.record op m, some ⟨p.machine.frame.pc, op.byte, f⟩⟩)
  | proceeded (op : Opcode) (m : Machine) (fetched : p.fetched = .ok op)
    (below : limitReached maxSteps p.steps = false)
    (executed : Machine.execute c op p.machine.pass = .ok false m) :
    RoundCase c maxSteps p (.next (p.record op m))

variable {c : ClassFile} {maxSteps : Int} {p q : Progress}

theorem round_case (c : ClassFile) (maxSteps : Int) (p : Progress) :
    RoundCase c maxSteps p (p.round c maxSteps) := by
  unfold round
  dsimp only
  split
  · rename_i e failed
    exact .unfetched e failed
  · rename_i op fetched
    split
    · rename_i reached
      exact .limited op fetched reached
    · rename_i below
      have below : limitReached maxSteps p.steps = false := by simpa using below
      split
      · rename_i returned m executed
        cases returned with
        | true => exact .returned op m fetched below executed
        | false => exact .proceeded op m fetched below executed
      · rename_i f m executed
        exact .faulted op m f fetched below executed

theorem round_congr {maxSteps' : Int}
    (same : limitReached maxSteps p.steps = limitReached maxSteps' p.steps) :
    p.round c maxSteps = p.round c maxSteps' := by
  unfold round
  rw [same]

theorem round_of_unfetched {e : ExecError} (failed : p.fetched = .error e) :
    p.round c maxSteps = .ended ⟨p, some e⟩ := by
  unfold round
  unfold fetched at failed
  dsimp only
  rw [failed]

theorem round_of_limit {op : Opcode} (fetched : p.fetched = .ok op)
    (reached : limitReached maxSteps p.steps = true) :
    p.round c maxSteps = .ended ⟨p, some ⟨p.machine.frame.pc, op.byte, .stepLimit⟩⟩ := by
  unfold round
  unfold Progress.fetched at fetched
  dsimp only
  rw [fetched]
  dsimp only
  rw [if_pos reached]

theorem round_eq_next (next : p.round c maxSteps = .next q) :
    ∃ op m, p.fetched = .ok op ∧ limitReached maxSteps p.steps = false ∧
      Machine.execute c op p.machine.pass = .ok false m ∧ q = p.record op m := by
  have possible := round_case c maxSteps p
  rw [next] at possible
  cases possible with
  | proceeded op m fetched below executed => exact ⟨op, m, fetched, below, executed, rfl⟩

theorem round_eq_ended {e : Ended} (ended : p.round c maxSteps = .ended e) :
    e.progress = p ∨ ∃ op m, p.fetched = .ok op ∧ limitReached maxSteps p.steps = false ∧
      e.progress = p.record op m := by
  have possible := round_case c maxSteps p
  rw [ended] at possible
  cases possible with
  | unfetched e' failed => exact .inl rfl
  | limited op fetched reached => exact .inl rfl
  | returned op m fetched below executed => exact .inr ⟨op, m, fetched, below, rfl⟩
  | faulted op m f fetched below executed => exact .inr ⟨op, m, fetched, below, rfl⟩

/-! ## Runs -/

/-- A run that goes on for `n` rounds. -/
inductive Advances (c : ClassFile) (maxSteps : Int) (p : Progress) : Nat -> Progress -> Prop
  | zero : Advances c maxSteps p 0 p
  | succ {n : Nat} {q q' : Progress} (prior : Advances c maxSteps p n q)
    (last : q.round c maxSteps = .next q') : Advances c maxSteps p (n + 1) q'

namespace Advances

variable {n : Nat}

theorem cons {p' : Progress} (first : p.round c maxSteps = .next p')
    (rest : Advances c maxSteps p' n q) : Advances c maxSteps p (n + 1) q := by
  induction rest with
  | zero => exact .succ .zero first
  | succ _ last ih => exact .succ ih last

theorem head (run : Advances c maxSteps p (n + 1) q) :
    ∃ p', p.round c maxSteps = .next p' ∧ Advances c maxSteps p' n q := by
  induction n generalizing q with
  | zero =>
    cases run with
    | succ prior last =>
      cases prior
      exact ⟨q, last, .zero⟩
  | succ n ih =>
    cases run with
    | succ prior last =>
      obtain ⟨p', first, rest⟩ := ih prior
      exact ⟨p', first, .succ rest last⟩

theorem unique {q' : Progress} (run : Advances c maxSteps p n q)
    (run' : Advances c maxSteps p n q') : q = q' := by
  induction run generalizing q' with
  | zero =>
    cases run'
    rfl
  | succ prior last ih =>
    cases run' with
    | succ prior' last' =>
      obtain rfl := ih prior'
      rw [last] at last'
      exact Round.next.inj last'

theorem steps_eq (run : Advances c maxSteps p n q) : q.steps = p.steps + n := by
  induction run with
  | zero => rfl
  | succ prior last ih =>
    obtain ⟨op, m, _, _, _, rfl⟩ := round_eq_next last
    change _ + 1 = _
    rw [ih, Nat.add_assoc]

theorem trace_prefix (run : Advances c maxSteps p n q) : p.trace <+: q.trace := by
  induction run with
  | zero => exact List.prefix_rfl
  | succ prior last ih =>
    obtain ⟨op, m, _, _, _, rfl⟩ := round_eq_next last
    rw [trace_record]
    exact ih.trans (List.prefix_append _ _)

theorem trace_length (run : Advances c maxSteps p n q) : q.trace.length = p.trace.length + n := by
  induction run with
  | zero => rfl
  | succ prior last ih =>
    obtain ⟨op, m, _, _, _, rfl⟩ := round_eq_next last
    rw [trace_record, List.length_append, List.length_singleton, ih, Nat.add_assoc]

theorem split {k : Nat} (run : Advances c maxSteps p (n + k) q) :
    ∃ r, Advances c maxSteps p n r ∧ Advances c maxSteps r k q := by
  induction k generalizing q with
  | zero => exact ⟨q, run, .zero⟩
  | succ k ih =>
    cases run with
    | succ prior last =>
      obtain ⟨r, first, second⟩ := ih prior
      exact ⟨r, first, .succ second last⟩

end Advances

/-- A state that shows in a run: one between two rounds, or the last one. -/
inductive Shows (c : ClassFile) (maxSteps : Int) (p : Progress) : Progress -> Prop
  | between {n : Nat} {q : Progress} (run : Advances c maxSteps p n q) : Shows c maxSteps p q
  | last {n : Nat} {q : Progress} {e : Ended} (run : Advances c maxSteps p n q)
    (ended : q.round c maxSteps = .ended e) : Shows c maxSteps p e.progress

/-- The instruction that a run is at after `n` rounds is the next one in every longer trace of the
run. -/
theorem Shows.trace_prefix {n : Nat} {op : Opcode} {r : Progress} (run : Advances c maxSteps p n q)
    (fetched : q.fetched = .ok op) (shown : Shows c maxSteps p r) (later : p.steps + n < r.steps) :
    q.trace ++ [⟨op.byte, q.machine.frame⟩] <+: r.trace := by
  have between {k : Nat} {r : Progress} (run' : Advances c maxSteps p k r)
      (later : p.steps + n < r.steps) : q.trace ++ [⟨op.byte, q.machine.frame⟩] <+: r.trace := by
    have counted := run'.steps_eq
    obtain ⟨j, rfl⟩ : ∃ j, k = n + (j + 1) := ⟨k - n - 1, by omega⟩
    obtain ⟨q', first, second⟩ := run'.split
    obtain rfl := run.unique first
    obtain ⟨q₁, next, rest⟩ := second.head
    obtain ⟨op', m, fetched', _, _, rfl⟩ := round_eq_next next
    rw [fetched] at fetched'
    cases fetched'
    rw [← trace_record q op m]
    exact rest.trace_prefix
  cases shown with
  | between run' => exact between run' later
  | @last k q' e run' ended =>
    rcases round_eq_ended ended with same | ⟨op', m, fetched', _, same⟩
    · rw [same] at later ⊢
      exact between run' later
    · rw [same] at later ⊢
      rw [trace_record]
      by_cases here : k = n
      · subst here
        obtain rfl := run.unique run'
        rw [fetched] at fetched'
        cases fetched'
        exact List.prefix_rfl
      · have counted := run'.steps_eq
        change p.steps + n < q'.steps + 1 at later
        exact (between run' (by omega)).trans (List.prefix_append _ _)

theorem run_eq_some_iff {rounds : Nat} {e : Ended} :
    p.run c maxSteps rounds = some e ↔
      ∃ n q, n < rounds ∧ Advances c maxSteps p n q ∧ q.round c maxSteps = .ended e := by
  induction rounds generalizing p with
  | zero => simp [run]
  | succ rounds ih =>
    rw [run]
    cases first : p.round c maxSteps with
    | ended e' =>
      constructor
      · intro same
        cases same
        exact ⟨0, p, Nat.succ_pos rounds, .zero, first⟩
      · rintro ⟨n, q, _, run, last⟩
        cases n with
        | zero =>
          cases run
          rw [first] at last
          cases last
          rfl
        | succ n =>
          obtain ⟨p', next, _⟩ := run.head
          rw [first] at next
          cases next
    | next p' =>
      dsimp only
      rw [ih]
      constructor
      · rintro ⟨n, q, fewer, run, last⟩
        exact ⟨n + 1, q, Nat.succ_lt_succ fewer, .cons first run, last⟩
      · rintro ⟨n, q, fewer, run, last⟩
        cases n with
        | zero =>
          cases run
          rw [first] at last
          cases last
        | succ n =>
          obtain ⟨p'', next, rest⟩ := run.head
          rw [first] at next
          cases next
          exact ⟨n, q, Nat.lt_of_succ_lt_succ fewer, rest, last⟩

theorem run_unique {rounds rounds' : Nat} {e e' : Ended} (ends : p.run c maxSteps rounds = some e)
    (ends' : p.run c maxSteps rounds' = some e') : e = e' := by
  obtain ⟨n, q, _, run, ended⟩ := run_eq_some_iff.mp ends
  obtain ⟨n', q', _, run', ended'⟩ := run_eq_some_iff.mp ends'
  -- The shorter of the two runs cannot have ended where the longer one goes on.
  have notLonger {n k : Nat} {q q' : Progress} {e : Ended} (run : Advances c maxSteps p n q)
      (ended : q.round c maxSteps = .ended e) (run' : Advances c maxSteps p (n + (k + 1)) q') :
      False := by
    obtain ⟨r, first, second⟩ := run'.split
    obtain rfl := run.unique first
    obtain ⟨q₁, next, _⟩ := second.head
    rw [ended] at next
    cases next
  rcases Nat.lt_trichotomy n n' with shorter | rfl | longer
  · obtain ⟨k, rfl⟩ := Nat.exists_eq_add_of_lt shorter
    exact (notLonger run ended run').elim
  · obtain rfl := run.unique run'
    rw [ended] at ended'
    exact Round.ended.inj ended'
  · obtain ⟨k, rfl⟩ := Nat.exists_eq_add_of_lt longer
    exact (notLonger run' ended' run).elim

end Progress

end Jvm
