import Jvm.Proofs.Rounds
import Mathlib.Tactic.Common

/-!
The step limit. A run with a limit is the run without one, cut where the limit is used up: rounds
agree as long as fewer instructions have been executed than the limit allows, and an instruction that
cannot be fetched ends both runs alike, also right at the limit.
-/

set_option autoImplicit false
set_option relaxedAutoImplicit false

namespace Jvm

theorem limitReached_of_nonpos {maxSteps : Int} (unlimited : maxSteps ≤ 0) (steps : Nat) :
    limitReached maxSteps steps = false := by
  unfold limitReached
  have never : ¬ 0 < maxSteps := by omega
  simp [never]

theorem limitReached_of_lt {n steps : Nat} (below : steps < n) : limitReached n steps = false := by
  unfold limitReached
  simp [below]

theorem limitReached_self {n : Nat} (positive : 0 < n) : limitReached n n = true := by
  unfold limitReached
  simp [positive]

namespace Progress

variable {c : ClassFile} {p q : Progress} {unlimited : Int} {n k : Nat}

theorem Advances.congr {maxSteps maxSteps' : Int} (run : Advances c maxSteps p k q)
    (same : ∀ s < p.steps + k, limitReached maxSteps s = limitReached maxSteps' s) :
    Advances c maxSteps' p k q := by
  induction run with
  | zero => exact .zero
  | @succ k q q' prior last ih =>
    refine .succ (ih fun s earlier => same s (by omega)) ?_
    have here := same q.steps (by rw [prior.steps_eq]; omega)
    rw [← round_congr here]
    exact last

private theorem advances_limited (run : Advances c unlimited p k q) (nonpos : unlimited ≤ 0)
    (below : p.steps + k ≤ n) : Advances c n p k q := by
  refine run.congr ?_
  intro s earlier
  rw [limitReached_of_nonpos nonpos, limitReached_of_lt (Nat.lt_of_lt_of_le earlier below)]

/-- Without a limit an instruction that can be fetched is executed and counted, also the last one. -/
private theorem steps_of_ended {e : Ended} {op : Opcode} (ended : q.round c unlimited = .ended e)
    (nonpos : unlimited ≤ 0) (fetched : q.fetched = .ok op) : e.progress.steps = q.steps + 1 := by
  have possible := round_case c unlimited q
  rw [ended] at possible
  cases possible with
  | unfetched e' failed =>
    rw [fetched] at failed
    cases failed
  | limited op fetched reached =>
    rw [limitReached_of_nonpos nonpos] at reached
    cases reached
  | returned op m fetched below executed => rfl
  | faulted op m f fetched below executed => rfl

private theorem round_limited {e : Ended} (ended : q.round c unlimited = .ended e)
    (nonpos : unlimited ≤ 0) (within : e.progress.steps ≤ n) :
    q.steps ≤ n ∧ q.round c n = .ended e := by
  cases fetched : q.fetched with
  | error e' =>
    rw [round_of_unfetched fetched] at ended
    cases ended
    exact ⟨within, round_of_unfetched fetched⟩
  | ok op =>
    have counted := steps_of_ended ended nonpos fetched
    have below : q.steps < n := by omega
    refine ⟨Nat.le_of_lt below, ?_⟩
    rw [← ended]
    apply round_congr
    rw [limitReached_of_nonpos nonpos, limitReached_of_lt below]

/-- A run that does not end within `n` instructions executes `n` of them and has another one to
execute. -/
private theorem advances_of_not_ended
    (longer : ∀ k q e, Advances c unlimited p k q → q.round c unlimited = .ended e →
      p.steps + n < e.progress.steps) :
    ∃ q op, Advances c unlimited p n q ∧ q.fetched = .ok op := by
  have reach : ∀ k ≤ n, ∃ q, Advances c unlimited p k q := by
    intro k
    induction k with
    | zero =>
      intro _
      exact ⟨p, .zero⟩
    | succ k ih =>
      intro within
      obtain ⟨q, run⟩ := ih (by omega)
      have counted := run.steps_eq
      cases next : q.round c unlimited with
      | next q' => exact ⟨q', .succ run next⟩
      | ended e =>
        have late := longer k q e run next
        rcases round_eq_ended next with same | ⟨op, m, _, _, same⟩
        · rw [same] at late
          omega
        · rw [same] at late
          change p.steps + n < q.steps + 1 at late
          omega
  obtain ⟨q, run⟩ := reach n (Nat.le_refl n)
  cases fetched : q.fetched with
  | ok op => exact ⟨q, op, run, fetched⟩
  | error e =>
    have late := longer n q _ run (round_of_unfetched fetched)
    have counted := run.steps_eq
    change p.steps + n < q.steps at late
    omega

private theorem shows_of_fetched {op : Opcode} (run : Advances c unlimited p k q)
    (fetched : q.fetched = .ok op) (nonpos : unlimited ≤ 0) :
    ∃ r, Shows c unlimited p r ∧ r.steps = q.steps + 1 := by
  cases next : q.round c unlimited with
  | next q' =>
    obtain ⟨_, m, _, _, _, rfl⟩ := round_eq_next next
    exact ⟨_, .between (.succ run next), rfl⟩
  | ended e => exact ⟨_, .last run next, steps_of_ended next nonpos fetched⟩

private theorem run_limited_of_within {rounds : Nat} {e : Ended}
    (ends : p.run c unlimited rounds = some e) (nonpos : unlimited ≤ 0) (fresh : p.steps = 0)
    (within : e.progress.steps ≤ n) :
    p.run c n rounds = some e ∧ p.run c n (n + 1) = some e := by
  obtain ⟨k, q, fewer, run, ended⟩ := run_eq_some_iff.mp ends
  obtain ⟨below, ended'⟩ := round_limited ended nonpos within
  have counted := run.steps_eq
  have run' : Advances c n p k q := advances_limited run nonpos (by omega)
  constructor
  · exact run_eq_some_iff.mpr ⟨k, q, fewer, run', ended'⟩
  · exact run_eq_some_iff.mpr ⟨k, q, by omega, run', ended'⟩

private theorem run_limited_of_longer {op : Opcode} (run : Advances c unlimited p n q)
    (nonpos : unlimited ≤ 0) (positive : 0 < n) (fresh : p.steps = 0) (fetched : q.fetched = .ok op) :
    p.run c n (n + 1) = some ⟨q, some ⟨q.machine.frame.pc, op.byte, .stepLimit⟩⟩ := by
  have counted : q.steps = n := by rw [run.steps_eq, fresh, Nat.zero_add]
  have run' : Advances c n p n q := advances_limited run nonpos (by omega)
  refine run_eq_some_iff.mpr ⟨n, q, Nat.lt_succ_self n, run', round_of_limit fetched ?_⟩
  rw [counted]
  exact limitReached_self positive

/-- The step limit cuts a run and changes nothing else. A run that ends without a limit and within
`n` instructions ends the same way with the limit `n`. Any other run is stopped by the limit `n` in
the state it is in after `n` instructions without a limit, and the error names the instruction that
comes next there. So a run with a limit always ends. -/
theorem run_limited_eq_cut (c : ClassFile) (m : Machine) (n : Nat) (positive : 0 < n)
    (unlimited : Int) (nonpos : unlimited ≤ 0) :
    (∀ rounds e, (start m).run c unlimited rounds = some e → e.progress.steps ≤ n →
      (start m).run c n rounds = some e) ∧
    ((∀ rounds e, (start m).run c unlimited rounds = some e → n < e.progress.steps) →
      ∃ q op, Advances c unlimited (start m) n q ∧ q.fetched = .ok op ∧
        (start m).run c n (n + 1) =
          some ⟨q, some ⟨q.machine.frame.pc, op.byte, .stepLimit⟩⟩ ∧
        q.steps = n ∧ q.trace.length = n ∧
        (∃ r, Shows c unlimited (start m) r ∧ r.steps = n + 1) ∧
        (∀ r, Shows c unlimited (start m) r → n < r.steps →
          q.trace ++ [⟨op.byte, q.machine.frame⟩] <+: r.trace)) ∧
    (∃ e, (start m).run c n (n + 1) = some e ∧ e.progress.steps ≤ n) := by
  -- The run that is not over within the limit, in terms of its rounds.
  have going (longer : ∀ rounds e, (start m).run c unlimited rounds = some e →
      n < e.progress.steps) : ∃ q op, Advances c unlimited (start m) n q ∧ q.fetched = .ok op := by
    apply advances_of_not_ended
    intro k q e run ended
    have late := longer (k + 1) e (run_eq_some_iff.mpr ⟨k, q, Nat.lt_succ_self k, run, ended⟩)
    change 0 + n < e.progress.steps
    omega
  refine ⟨?_, ?_, ?_⟩
  · intro rounds e ends within
    exact (run_limited_of_within ends nonpos rfl within).1
  · intro longer
    obtain ⟨q, op, run, fetched⟩ := going longer
    have counted : q.steps = n := by rw [run.steps_eq, start, Nat.zero_add]
    have observed : q.trace.length = n := by
      rw [run.trace_length, trace, start, List.reverse_nil, List.length_nil, Nat.zero_add]
    refine ⟨q, op, run, fetched, run_limited_of_longer run nonpos positive rfl fetched, counted,
      observed, ?_, ?_⟩
    · rw [← counted]
      exact shows_of_fetched run fetched nonpos
    · intro r shown later
      refine Shows.trace_prefix run fetched shown ?_
      change 0 + n < r.steps
      omega
  · by_cases early : ∃ rounds e, (start m).run c unlimited rounds = some e ∧ e.progress.steps ≤ n
    · obtain ⟨rounds, e, ends, within⟩ := early
      exact ⟨e, (run_limited_of_within ends nonpos rfl within).2, within⟩
    · have longer : ∀ rounds e, (start m).run c unlimited rounds = some e →
          n < e.progress.steps := by
        intro rounds e ends
        by_contra within
        exact early ⟨rounds, e, ends, Nat.le_of_not_lt within⟩
      obtain ⟨q, op, run, fetched⟩ := going longer
      have counted : q.steps = n := by rw [run.steps_eq, start, Nat.zero_add]
      exact ⟨_, run_limited_of_longer run nonpos positive rfl fetched, Nat.le_of_eq counted⟩

private def twoConstants : Machine :=
  { frame := .start 2 (List.replicate 8 0 ++ [0x04, 0x06, 0xB1]), sink := .unlimited }

theorem run_limited_eq_cut_at_one :
    0 < 1 ∧ (0 : Int) ≤ 0 ∧ ∃ q op, q.fetched = .ok op ∧ q.steps = 1 ∧
      (start twoConstants).run .empty 1 2 =
        some ⟨q, some ⟨q.machine.frame.pc, op.byte, .stepLimit⟩⟩ := by
  have whole : ∃ e, (start twoConstants).run .empty 0 3 = some e ∧ e.progress.steps = 3 :=
    ⟨_, rfl, rfl⟩
  obtain ⟨e, ends, three⟩ := whole
  have longer : ∀ rounds e', (start twoConstants).run .empty 0 rounds = some e' →
      1 < e'.progress.steps := by
    intro rounds e' ends'
    obtain rfl := run_unique ends ends'
    omega
  obtain ⟨q, op, _, fetched, stopped, counted, _⟩ :=
    (run_limited_eq_cut .empty twoConstants 1 (by decide) 0 (by decide)).2.1 longer
  exact ⟨by decide, by decide, q, op, fetched, counted, stopped⟩

end Progress

end Jvm
