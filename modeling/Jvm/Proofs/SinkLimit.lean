import Jvm.Proofs.LifeCycle
import Jvm.Proofs.Output
import Mathlib.Data.List.Infix
import Mathlib.Tactic.Common

/-!
A sink that takes a limited number of writes. The run into it is the run into a sink that takes
everything, up to the call whose line is one too many: this call faults, and what was printed before
it are whole lines. A sink of which `n` writes are taken in all is the unlimited one with a budget of
what is left of `n`, so the two runs are compared state by state.
-/

set_option autoImplicit false
set_option relaxedAutoImplicit false

namespace Jvm

namespace Sink

/-- The sink as one that accepts `n` writes in all. -/
def capped (n : Nat) (s : Sink) : Sink := { s with budget := some (n - s.writes.length) }

variable {s s' : Sink} {line : Bytes} {n : Nat}

theorem println?_of_unlimited (free : s.budget = none) (line : Bytes) :
    s.println? line = some { s with writes := (line ++ utf8 "\n") :: s.writes } := by
  simp [println?, write?, free]

theorem println?_capped_of_lt (room : s.writes.length < n)
    (printed : s.println? line = some s') : (s.capped n).println? line = some (s'.capped n) := by
  have written := writes_of_println? printed
  obtain ⟨k, left⟩ : ∃ k, n - s.writes.length = k + 1 := ⟨n - s.writes.length - 1, by omega⟩
  have used : k = n - (s.writes.length + 1) := by omega
  simpa [println?, write?, capped, left, written] using used

theorem println?_capped_of_le (spent : n ≤ s.writes.length) (line : Bytes) :
    (s.capped n).println? line = none := by
  have none_left : n - s.writes.length = 0 := by omega
  simp [println?, write?, capped, none_left]

end Sink

namespace Machine

def capped (n : Nat) (m : Machine) : Machine := m.resink (m.sink.capped n)

variable {c : ClassFile} {m m' : Machine} {op : Opcode} {returned : Bool} {n : Nat}

theorem Does.unlimited (does : Does c m op returned m') (free : m.sink.budget = none) :
    m'.sink.budget = none := by
  cases does with
  | invokevirtual index method k line rest sink operand resolved known top printed =>
    rw [Sink.println?_of_unlimited free] at printed
    cases printed
    exact free
  | _ => exact free

theorem Does.writes_cases (does : Does c m op returned m') :
    m'.sink.writes = m.sink.writes ∨
      ∃ text, m'.sink.writes = (text ++ utf8 "\n") :: m.sink.writes := by
  cases does with
  | invokevirtual index method k line rest sink operand resolved known top printed =>
    exact .inr ⟨line, Sink.writes_of_println? printed⟩
  | _ => exact .inl rfl

theorem Does.writes_length (does : Does c m op returned m') :
    m'.sink.writes.length ≤ m.sink.writes.length + 1 := by
  rcases does.writes_cases with same | ⟨text, written⟩
  · simp [same]
  · simp [written]

theorem Does.writes_suffix (does : Does c m op returned m') : m.sink.writes <:+ m'.sink.writes := by
  rcases does.writes_cases with same | ⟨text, written⟩
  · rw [same]
  · rw [written]
    exact List.suffix_cons _ _

theorem Does.capped (does : Does c m op returned m') (within : m'.sink.writes.length ≤ n) :
    Does c (m.capped n) op returned (m'.capped n) := by
  refine does.resink (fun same => by rw [same]) ?_
  intro line printed
  have written := Sink.writes_of_println? printed
  refine Sink.println?_capped_of_lt ?_ printed
  rw [written, List.length_cons] at within
  omega

/-- Where everything is accepted no fault comes from the sink, so a limit changes no fault. -/
theorem Faults.capped {e : Fault} {left : List Value} (faults : Faults c m op e left)
    (free : m.sink.budget = none) : Faults c (m.capped n) op e left := by
  refine faults.resink ?_
  intro line refused
  rw [Sink.println?_of_unlimited free] at refused
  cases refused

theorem Does.refused (does : Does c m op returned m')
    (writes : m.sink.writes.length < m'.sink.writes.length) (spent : n ≤ m.sink.writes.length) :
    op = .invokevirtual ∧ ∃ index method left, m.frame.u16At? (m.frame.pc + 1) = some index ∧
      c.resolveMethodref index = .ok method ∧
      Faults c (m.capped n) .invokevirtual (.inMethod method .sinkFull) left := by
  cases does with
  | invokevirtual index method k line rest sink operand resolved known top printed =>
    have refused := Sink.println?_capped_of_le spent line
    exact ⟨rfl, index, method, rest, operand, resolved,
      .refused index method k line rest operand resolved known top refused⟩
  | _ => exact absurd writes (Nat.lt_irrefl _)

end Machine

namespace Progress

def capped (n : Nat) (p : Progress) : Progress := { p with machine := p.machine.capped n }

def writes (p : Progress) : List Bytes := p.machine.sink.writes

variable {c : ClassFile} {maxSteps : Int} {p q q' r : Progress} {n k : Nat}

/-! ## How the writes grow -/

theorem round_next_writes_length (next : q.round c maxSteps = .next q') :
    q'.writes.length ≤ q.writes.length + 1 := by
  obtain ⟨op, m, _, _, does, rfl⟩ := round_eq_next_iff.mp next
  exact does.writes_length

theorem round_ended_writes {e : Ended} (ended : q.round c maxSteps = .ended e) :
    e.progress.writes = q.writes :=
  congrArg Sink.writes (round_ended_sink ended)

theorem Advances.writes_suffix (run : Advances c maxSteps p k q) : p.writes <:+ q.writes := by
  induction run with
  | zero => exact List.suffix_rfl
  | succ prior last ih =>
    obtain ⟨op, m, _, _, does, rfl⟩ := round_eq_next_iff.mp last
    exact ih.trans does.writes_suffix

theorem Advances.unlimited (run : Advances c maxSteps p k q) (free : p.machine.sink.budget = none) :
    q.machine.sink.budget = none := by
  induction run with
  | zero => exact free
  | succ prior last ih =>
    obtain ⟨op, m, _, _, does, rfl⟩ := round_eq_next_iff.mp last
    exact does.unlimited ih

def WholeLines (p : Progress) : Prop := ∀ line ∈ p.writes, ∃ text, line = text ++ utf8 "\n"

theorem Shows.wholeLines (shown : Shows c maxSteps p q) (whole : p.WholeLines) : q.WholeLines := by
  refine shown.invariant whole ?_
  intro q q' whole executes
  cases executes with
  | does op returned m fetched does =>
    intro line taken
    change line ∈ m.sink.writes at taken
    rcases does.writes_cases with same | ⟨text, written⟩
    · rw [same] at taken
      exact whole line taken
    · rw [written] at taken
      rcases List.mem_cons.mp taken with rfl | earlier
      · exact ⟨text, rfl⟩
      · exact whole line earlier
  | faults op e left fetched faults => exact whole

theorem Shows.later_of_writes (run : Advances c maxSteps p k q) (shown : Shows c maxSteps p r)
    (more : q.writes.length < r.writes.length) : p.steps + k < r.steps ∧ q.writes <:+ r.writes := by
  have between {j : Nat} {r : Progress} (run' : Advances c maxSteps p j r)
      (more : q.writes.length < r.writes.length) :
      p.steps + k < r.steps ∧ q.writes <:+ r.writes := by
    have counted := run'.steps_eq
    -- Rounds are determined, so one of the two runs goes on from the other.
    rcases Nat.lt_or_ge k j with after | before
    · obtain ⟨i, rfl⟩ := Nat.exists_eq_add_of_le (Nat.le_of_lt after)
      obtain ⟨q₁, first, second⟩ := run'.split
      obtain rfl := run.unique first
      exact ⟨by omega, second.writes_suffix⟩
    · obtain ⟨i, rfl⟩ := Nat.exists_eq_add_of_le before
      obtain ⟨r₁, first, second⟩ := run.split
      obtain rfl := run'.unique first
      have fewer := second.writes_suffix.length_le
      omega
  cases shown with
  | between run' => exact between run' more
  | @last j q₁ e run' ended =>
    rw [round_ended_writes ended] at more ⊢
    obtain ⟨later, suffix⟩ := between run' more
    refine ⟨?_, suffix⟩
    rcases round_eq_ended ended with same | ⟨op, m, _, _, same⟩
    · rw [same]
      exact later
    · rw [same]
      exact Nat.lt_succ_of_lt later

/-- Writes come one by one, so a run with more than `n` of them has a round that makes the next one
after the `n`-th. -/
theorem Shows.crossing (shown : Shows c maxSteps p r) (below : p.writes.length ≤ n)
    (more : n < r.writes.length) :
    ∃ k q q', Advances c maxSteps p k q ∧ q.round c maxSteps = .next q' ∧ q.writes.length = n ∧
      q'.writes.length = n + 1 := by
  have between {j : Nat} {r : Progress} (run : Advances c maxSteps p j r)
      (more : n < r.writes.length) :
      ∃ k q q', Advances c maxSteps p k q ∧ q.round c maxSteps = .next q' ∧ q.writes.length = n ∧
        q'.writes.length = n + 1 := by
    induction run with
    | zero => omega
    | @succ k q q' prior last ih =>
      have growth := round_next_writes_length last
      -- Either the limit was passed before the last round, or the last round passes it.
      by_cases earlier : n < q.writes.length
      · exact ih earlier
      · exact ⟨k, q, q', prior, last, by omega, by omega⟩
  cases shown with
  | between run => exact between run more
  | @last j q e run ended =>
    rw [round_ended_writes ended] at more
    exact between run more

/-! ## The two runs -/

theorem round_next_capped (next : q.round c maxSteps = .next q') (within : q'.writes.length ≤ n) :
    (q.capped n).round c maxSteps = .next (q'.capped n) := by
  obtain ⟨op, m, fetched, below, does, rfl⟩ := round_eq_next_iff.mp next
  exact round_eq_next_iff.mpr ⟨op, m.capped n, fetched, below, does.capped within, rfl⟩

theorem Advances.capped (run : Advances c maxSteps p k q) (within : q.writes.length ≤ n) :
    Advances c maxSteps (p.capped n) k (q.capped n) := by
  induction run with
  | zero => exact .zero
  | @succ k q q' prior last ih =>
    have earlier := (Advances.succ .zero last).writes_suffix.length_le
    exact .succ (ih (by omega)) (round_next_capped last within)

theorem round_ended_capped {e : Ended} (ended : q.round c maxSteps = .ended e)
    (free : q.machine.sink.budget = none) (within : q.writes.length ≤ n) :
    (q.capped n).round c maxSteps = .ended ⟨e.progress.capped n, e.error⟩ := by
  rw [← round_ended_writes ended] at within
  refine round_eq_ended_iff.mpr ?_
  cases round_eq_ended_iff.mp ended with
  | unfetched e failed => exact .unfetched e failed
  | limited op fetched reached => exact .limited op fetched reached
  | returned op m fetched below does =>
    exact .returned op (m.capped n) fetched below (does.capped within)
  | faulted op f left fetched below faults =>
    exact .faulted op f left fetched below (faults.capped free)

theorem round_refused (next : q.round c maxSteps = .next q') (spent : q.writes.length = n)
    (writes : q'.writes.length = n + 1) :
    q.fetched = .ok .invokevirtual ∧ ∃ index method left,
      q.machine.frame.u16At? (q.machine.frame.pc + 1) = some index ∧
      c.resolveMethodref index = .ok method ∧
      (q.capped n).round c maxSteps = .ended
        ⟨(q.capped n).record .invokevirtual ((q.capped n).machine.behind .invokevirtual left),
          some ⟨q.machine.frame.pc, Opcode.invokevirtual.byte, .inMethod method .sinkFull⟩⟩ := by
  obtain ⟨op, m, fetched, below, does, rfl⟩ := round_eq_next_iff.mp next
  have grown : q.machine.sink.writes.length < m.sink.writes.length := by
    change m.sink.writes.length = n + 1 at writes
    change q.machine.sink.writes.length = n at spent
    omega
  obtain ⟨rfl, index, method, left, operand, resolved, faults⟩ :=
    does.refused grown (Nat.le_of_eq spent.symm)
  refine ⟨fetched, index, method, left, operand, resolved, ?_⟩
  exact round_eq_ended_iff.mpr (.faulted .invokevirtual _ left fetched below faults)

theorem advances_of_endless (endless : ∀ rounds, p.run c maxSteps rounds = none) (k : Nat) :
    ∃ q q', Advances c maxSteps p k q ∧ q.round c maxSteps = .next q' := by
  have goes_on {k : Nat} {q : Progress} (run : Advances c maxSteps p k q) :
      ∃ q', q.round c maxSteps = .next q' := by
    cases next : q.round c maxSteps with
    | next q' => exact ⟨q', rfl⟩
    | ended e =>
      have ends := run_eq_some_iff.mpr ⟨k, q, Nat.lt_succ_self k, run, next⟩
      rw [endless] at ends
      cases ends
  induction k with
  | zero =>
    obtain ⟨q', next⟩ := goes_on .zero
    exact ⟨p, q', .zero, next⟩
  | succ k ih =>
    obtain ⟨q, q', run, next⟩ := ih
    obtain ⟨q'', next'⟩ := goes_on (.succ run next)
    exact ⟨q', q'', .succ run next, next'⟩

/-- The run of a frame into a sink that accepts `n` writes, or everything without a number. -/
def ofFrame (f : Frame) (n : Option Nat) : Progress := start { frame := f, sink := ⟨[], n⟩ }

theorem capped_ofFrame (f : Frame) (n : Nat) : (ofFrame f none).capped n = ofFrame f (some n) := rfl

/-- A sink that accepts `n` writes cuts the output behind a whole line and the run with it. A run that
ends with at most `n` writes ends the same way with the limit. A run that makes another write is
stopped by the limit at the call that makes it: the error is the sink's, with the position and the byte
of this call, the trace ends with the call, and the output are the first `n` lines. And a run that does
neither goes on with the limit for ever. -/
theorem run_cut_at_refused_line (c : ClassFile) (f : Frame) (maxSteps : Int) (n : Nat) :
    (∀ rounds e, (ofFrame f none).run c maxSteps rounds = some e → e.progress.writes.length ≤ n →
      ∃ e', (ofFrame f (some n)).run c maxSteps rounds = some e' ∧ e'.error = e.error ∧
        e'.progress.trace = e.progress.trace ∧
        e'.progress.machine.frame = e.progress.machine.frame ∧
        e'.progress.machine.sink.output = e.progress.machine.sink.output) ∧
    (∀ r, Shows c maxSteps (ofFrame f none) r → n < r.writes.length →
      ∃ k q q' index method e,
        Advances c maxSteps (ofFrame f none) k q ∧ q.round c maxSteps = .next q' ∧
        q.writes.length = n ∧ q'.writes.length = n + 1 ∧ q.fetched = .ok .invokevirtual ∧
        q.machine.frame.u16At? (q.machine.frame.pc + 1) = some index ∧
        c.resolveMethodref index = .ok method ∧
        (ofFrame f (some n)).run c maxSteps (k + 1) = some e ∧
        e.error = some ⟨q.machine.frame.pc, Opcode.invokevirtual.byte, .inMethod method .sinkFull⟩ ∧
        e.progress.trace = q.trace ++ [⟨Opcode.invokevirtual.byte, q.machine.frame⟩] ∧
        e.progress.trace <+: r.trace ∧ r.WholeLines ∧
        e.progress.machine.sink.output = (r.writes.reverse.take n).flatten) ∧
    ((∀ rounds, (ofFrame f none).run c maxSteps rounds = none) →
      (∀ r, Shows c maxSteps (ofFrame f none) r → r.writes.length ≤ n) →
      ∀ rounds, (ofFrame f (some n)).run c maxSteps rounds = none) := by
  rw [← capped_ofFrame]
  have unlimited {k : Nat} {q : Progress} (run : Advances c maxSteps (ofFrame f none) k q) :
      q.machine.sink.budget = none := run.unlimited rfl
  refine ⟨?_, ?_, ?_⟩
  · intro rounds e ends within
    obtain ⟨k, q, fewer, run, ended⟩ := run_eq_some_iff.mp ends
    rw [round_ended_writes ended] at within
    have ended' := round_ended_capped ended (unlimited run) within
    exact ⟨_, run_eq_some_iff.mpr ⟨k, _, fewer, run.capped within, ended'⟩, rfl, rfl, rfl, rfl⟩
  · intro r shown more
    obtain ⟨k, q, q', run, next, spent, written⟩ := shown.crossing (Nat.zero_le n) more
    obtain ⟨fetched, index, method, left, operand, resolved, refused⟩ :=
      round_refused next spent written
    obtain ⟨later, suffix⟩ := shown.later_of_writes run (by omega)
    have stopped := run_eq_some_iff.mpr
      ⟨k, _, Nat.lt_succ_self k, run.capped (Nat.le_of_eq spent), refused⟩
    have traced : ((q.capped n).record .invokevirtual
        ((q.capped n).machine.behind .invokevirtual left)).trace =
          q.trace ++ [⟨Opcode.invokevirtual.byte, q.machine.frame⟩] := trace_record _ _ _
    have whole : r.WholeLines := shown.wholeLines fun _ taken => absurd taken List.not_mem_nil
    refine ⟨k, q, q', index, method, _, run, next, spent, written, fetched, operand, resolved,
      stopped, rfl, traced, ?_, whole, ?_⟩
    · rw [traced]
      exact Shows.trace_prefix run fetched shown later
    · have first : r.writes.reverse.take n = q.writes.reverse := by
        rw [← spent, ← List.length_reverse]
        exact (List.prefix_iff_eq_take.mp (List.reverse_prefix.mpr suffix)).symm
      rw [first]
      rfl
  · intro endless quiet rounds
    cases ends : ((ofFrame f none).capped n).run c maxSteps rounds with
    | none => rfl
    | some e =>
      exfalso
      obtain ⟨k, q, _, run, ended⟩ := run_eq_some_iff.mp ends
      -- The round that would end the run goes on without the limit and writes nothing too much.
      obtain ⟨q₁, q₂, run₁, next₁⟩ := advances_of_endless endless k
      have alike := run₁.capped (quiet q₁ (.between run₁))
      obtain rfl := run.unique alike
      rw [round_next_capped next₁ (quiet q₂ (.between (.succ run₁ next₁)))] at ended
      cases ended

/-- Print 1 for ever. -/
private def printingOn : Bytes :=
  List.replicate 8 0 ++ [0xB2, 0, 0, 0x04, 0xB6, 0, 6, 0xA7, 0xFF, 0xF9]

private def printsOn (limit : Option Nat) : Progress := ofFrame (.start 0 printingOn) limit

theorem run_cut_at_refused_line_third :
    ∃ r e, Shows (.printing printingOn) 0 (printsOn none) r ∧ 2 < r.writes.length ∧
      (printsOn (some 2)).run (.printing printingOn) 0 11 = some e ∧
      e.error.map (·.pc) = some 12 ∧ e.progress.trace.length = 11 ∧ e.progress.trace <+: r.trace ∧
      e.progress.machine.sink.output = utf8 "1\n1\n" := by
  have once : Advances (.printing printingOn) 0 (printsOn none) 4 _ :=
    .succ (.succ (.succ (.succ .zero rfl) rfl) rfl) rfl
  have twice : Advances (.printing printingOn) 0 (printsOn none) 8 _ :=
    .succ (.succ (.succ (.succ once rfl) rfl) rfl) rfl
  have thrice : Advances (.printing printingOn) 0 (printsOn none) 12 _ :=
    .succ (.succ (.succ (.succ twice rfl) rfl) rfl) rfl
  have stopped : (printsOn (some 2)).run (.printing printingOn) 0 11 = some _ := rfl
  obtain ⟨k, q, q', index, method, e, _, _, _, _, _, _, _, ends, _, _, cut, _⟩ :=
    (run_cut_at_refused_line (.printing printingOn) (.start 0 printingOn) 0 2).2.1 _ (.between thrice) (by decide)
  obtain rfl := run_unique stopped ends
  exact ⟨_, _, .between thrice, by decide, stopped, by decide, by decide, cut, by decide⟩

end Progress

end Jvm
