import Mathlib.Tactic.Common

/-!
Outcomes of computations that may fail, with or without a state: what it means that a composite
computation succeeds or fails, in terms of its parts.
-/

set_option autoImplicit false
set_option relaxedAutoImplicit false

namespace Jvm.Outcome

variable {ε ε' σ α β γ δ : Type}

theorem pure_eq_ok_iff {a b : α} {s s' : σ} :
    (pure a : EStateM ε σ α) s = .ok b s' ↔ b = a ∧ s' = s := by
  constructor
  · intro run
    cases run
    exact ⟨rfl, rfl⟩
  · rintro ⟨rfl, rfl⟩
    rfl

theorem bind_of_ok {x : EStateM ε σ α} {a : α} {s t : σ} (first : x s = .ok a t)
    (f : α -> EStateM ε σ β) : (x >>= f) s = f a t := by
  change EStateM.bind x f s = f a t
  unfold EStateM.bind
  rw [first]

theorem bind_of_error {x : EStateM ε σ α} {e : ε} {s t : σ} (first : x s = .error e t)
    (f : α -> EStateM ε σ β) : (x >>= f) s = .error e t := by
  change EStateM.bind x f s = .error e t
  unfold EStateM.bind
  rw [first]

theorem get_bind {f : σ -> EStateM ε σ β} {s : σ} :
    ((get : EStateM ε σ σ) >>= f) s = f s s := rfl

theorem bind_eq_ok_iff {x : EStateM ε σ α} {f : α -> EStateM ε σ β} {b : β} {s s' : σ} :
    (x >>= f) s = .ok b s' ↔ ∃ a t, x s = .ok a t ∧ f a t = .ok b s' := by
  cases first : x s with
  | ok a t => simp [bind_of_ok first]
  | error e t => simp [bind_of_error first]

theorem except_bind_eq_ok_iff {x : Except ε α} {f : α -> Except ε β} {b : β} :
    (x >>= f) = .ok b ↔ ∃ a, x = .ok a ∧ f a = .ok b := by
  cases x with
  | error e => simp [bind, Except.bind]
  | ok a => simp [bind, Except.bind]

theorem mapError_eq_ok_iff {x : Except ε α} {f : ε -> ε'} {a : α} :
    x.mapError f = .ok a ↔ x = .ok a := by
  cases x with
  | error e => simp [Except.mapError]
  | ok b => simp [Except.mapError]

theorem except_bind_eq_error_iff {x : Except ε α} {f : α -> Except ε β} {e : ε} :
    (x >>= f) = .error e ↔ x = .error e ∨ ∃ a, x = .ok a ∧ f a = .error e := by
  cases x with
  | error e' => simp [bind, Except.bind]
  | ok a => simp [bind, Except.bind]

theorem mapError_eq_error_iff {x : Except ε α} {f : ε -> ε'} {e : ε'} :
    x.mapError f = .error e ↔ ∃ e', x = .error e' ∧ f e' = e := by
  cases x with
  | error e' => simp [Except.mapError]
  | ok a => simp [Except.mapError]

theorem rel_map {R : α -> β -> Prop} {S : γ -> δ -> Prop} {f : α -> γ} {g : β -> δ} {x : Option α}
    {y : Option β} (rel : Option.Rel R x y) (maps : ∀ a b, R a b → S (f a) (g b)) :
    Option.Rel S (x.map f) (y.map g) := by
  cases rel with
  | none => exact .none
  | some related => exact .some (maps _ _ related)

theorem rel_eq_none_iff {R : α -> β -> Prop} {x : Option α} {y : Option β} (rel : Option.Rel R x y) :
    x = none ↔ y = none := by
  cases rel with
  | none => simp
  | some _ => simp

end Jvm.Outcome
