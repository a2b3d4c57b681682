import Jvm.ClassFile.Cursor
import Jvm.Proofs.Outcomes
import Jvm.Proofs.Words
import Mathlib.Tactic.Common

/-!
Readers against grammars. A grammar says which byte strings spell a value, without a word about how
they are read. A reader reads a grammar when, inside its buffer, it succeeds with a value exactly if
a word of that value lies ahead, and then stops right behind the word. The lemmas follow the way
readers are put together.
-/

set_option autoImplicit false
set_option relaxedAutoImplicit false

namespace Jvm

/-- Which byte strings spell a value. -/
abbrev Grammar (α : Type) := α -> Bytes -> Prop

namespace Cursor

def advance (c : Cursor) (n : Nat) : Cursor := { c with pos := c.pos + n }

@[simp] theorem advance_pos (c : Cursor) (n : Nat) : (c.advance n).pos = c.pos + n := rfl

theorem advance_advance (c : Cursor) (m n : Nat) : (c.advance m).advance n = c.advance (m + n) := by
  simp [advance, Nat.add_assoc]

theorem ahead_advance (c : Cursor) (n : Nat) : (c.advance n).ahead = c.ahead.drop n := by
  simp [ahead, advance]

@[simp] theorem length_ahead (c : Cursor) : c.ahead.length = c.buffer.size - c.pos := by
  simp [ahead]

theorem advance_inside {c : Cursor} {w : Bytes} (inside : c.pos ≤ c.buffer.size)
    (word : w <+: c.ahead) : (c.advance w.length).pos ≤ (c.advance w.length).buffer.size := by
  have short := word.length_le
  rw [length_ahead] at short
  change c.pos + w.length ≤ c.buffer.size
  omega

theorem take_of_fits {n : Nat} {c : Cursor} (what : Bytes) (fits : c.pos + n ≤ c.buffer.size) :
    take n what c = .ok (c.buffer.extract c.pos (c.pos + n)).toList (c.advance n) := by
  unfold take
  rw [if_pos fits]
  rfl

theorem take_of_short {n : Nat} {c : Cursor} (what : Bytes) (short : c.buffer.size < c.pos + n) :
    take n what c = .error (.truncated c.pos what n (c.buffer.size - c.pos)) c := by
  unfold take
  rw [if_neg (Nat.not_le.mpr short)]

theorem skip_of_fits {n : Nat} {c : Cursor} (what : Bytes) (fits : c.pos + n ≤ c.buffer.size) :
    skip n what c = .ok () (c.advance n) := by
  have enough : ¬ c.remaining < (n : Int) := by
    unfold remaining
    omega
  unfold skip
  rw [if_neg enough]
  rfl

theorem skip_of_short {n : Nat} {c : Cursor} (what : Bytes) (short : c.buffer.size < c.pos + n) :
    skip n what c = .error (.truncated c.pos what n (c.buffer.size - c.pos)) c := by
  have few : c.remaining < (n : Int) := by
    unfold remaining
    omega
  unfold skip
  rw [if_pos few]

theorem extract_eq_take_ahead (c : Cursor) (n : Nat) :
    (c.buffer.extract c.pos (c.pos + n)).toList = c.ahead.take n := by
  simp [ahead, List.take_drop]

theorem take_eq_ok_iff {n : Nat} {what b : Bytes} {c c' : Cursor}
    (inside : c.pos ≤ c.buffer.size) :
    take n what c = .ok b c' ↔ b.length = n ∧ b <+: c.ahead ∧ c' = c.advance n := by
  have size := length_ahead c
  by_cases fits : c.pos + n ≤ c.buffer.size
  · rw [take_of_fits what fits, extract_eq_take_ahead]
    constructor
    · intro run
      cases run
      refine ⟨?_, List.take_prefix n c.ahead, rfl⟩
      rw [List.length_take]
      omega
    · rintro ⟨rfl, word, rfl⟩
      rw [← List.prefix_iff_eq_take.mp word]
  · rw [take_of_short what (Nat.lt_of_not_le fits)]
    constructor
    · intro run
      cases run
    · rintro ⟨rfl, word, _⟩
      have bound := word.length_le
      omega

end Cursor

def Reads {α : Type} (r : Reader α) (G : Grammar α) : Prop :=
  ∀ (c c' : Cursor) (a : α), c.pos ≤ c.buffer.size →
    (r c = .ok a c' ↔ ∃ w, G a w ∧ w <+: c.ahead ∧ c' = c.advance w.length)

namespace Reads

variable {α β : Type}

theorem congr {r : Reader α} {G H : Grammar α} (reads : Reads r G)
    (same : ∀ a w, G a w ↔ H a w) : Reads r H := by
  intro c c' a inside
  rw [reads c c' a inside]
  simp only [same]

theorem pure (a : α) : Reads (pure a) fun b w => b = a ∧ w = [] := by
  intro c c' b inside
  rw [Outcome.pure_eq_ok_iff]
  simp [and_assoc, Cursor.advance]

theorem throw (e : ParseError) : Reads (MonadExcept.throw e : Reader α) fun _ _ => False := by
  intro c c' a inside
  constructor
  · intro run
    cases run
  · rintro ⟨w, none, _⟩
    exact none.elim

theorem get_bind {f : Cursor -> Reader α} {G : Grammar α} (reads : ∀ start, Reads (f start) G) :
    Reads (get >>= f) G := by
  intro c c' a inside
  exact reads c c c' a inside

private theorem append_prefix_iff {u v l : Bytes} :
    u ++ v <+: l ↔ u <+: l ∧ v <+: l.drop u.length := by
  constructor
  · intro both
    obtain ⟨rest, rfl⟩ := both
    simp
  · rintro ⟨⟨m, rfl⟩, tail⟩
    rw [List.drop_left] at tail
    exact (List.prefix_append_right_inj u).mpr tail

theorem bind {r : Reader α} {f : α -> Reader β} {G : Grammar α} {H : α -> Grammar β}
    (first : Reads r G) (second : ∀ a, Reads (f a) (H a)) :
    Reads (r >>= f) fun b w => ∃ a u v, G a u ∧ H a b v ∧ w = u ++ v := by
  intro c c' b inside
  rw [Outcome.bind_eq_ok_iff]
  constructor
  · rintro ⟨a, d, run, continued⟩
    obtain ⟨u, word, ahead, rfl⟩ := (first c d a inside).mp run
    have inside' := Cursor.advance_inside inside ahead
    obtain ⟨v, word', ahead', rfl⟩ := (second a _ c' b inside').mp continued
    rw [Cursor.ahead_advance] at ahead'
    refine ⟨u ++ v, ⟨a, u, v, word, word', rfl⟩, append_prefix_iff.mpr ⟨ahead, ahead'⟩, ?_⟩
    rw [Cursor.advance_advance, List.length_append]
  · rintro ⟨_, ⟨a, u, v, word, word', rfl⟩, both, rfl⟩
    obtain ⟨ahead, ahead'⟩ := append_prefix_iff.mp both
    have inside' := Cursor.advance_inside inside ahead
    refine ⟨a, c.advance u.length, (first c _ a inside).mpr ⟨u, word, ahead, rfl⟩, ?_⟩
    rw [second a _ _ b inside']
    refine ⟨v, word', ?_, ?_⟩
    · rw [Cursor.ahead_advance]
      exact ahead'
    · rw [Cursor.advance_advance, List.length_append]

theorem take (n : Nat) (what : Bytes) :
    Reads (Cursor.take n what) fun b w => b.length = n ∧ w = b := by
  intro c c' b inside
  rw [Cursor.take_eq_ok_iff inside]
  constructor
  · rintro ⟨rfl, word, rfl⟩
    exact ⟨b, ⟨rfl, rfl⟩, word, rfl⟩
  · rintro ⟨_, ⟨rfl, rfl⟩, word, rfl⟩
    exact ⟨rfl, word, rfl⟩

theorem u8 (what : Bytes) : Reads (Cursor.u8 what) fun x w => w = [x] := by
  refine (Reads.bind (Reads.take 1 what) fun b => Reads.pure (Bytes.bigEndian b).toUInt8).congr ?_
  intro x w
  constructor
  · rintro ⟨b, u, v, ⟨one, rfl⟩, ⟨rfl, rfl⟩, rfl⟩
    obtain ⟨y, rfl⟩ := List.length_eq_one_iff.mp one
    rw [Bytes.toUInt8_bigEndian_singleton]
    rfl
  · rintro rfl
    exact ⟨[x], [x], [], ⟨rfl, rfl⟩, ⟨(Bytes.toUInt8_bigEndian_singleton x).symm, rfl⟩, rfl⟩

theorem u16 (what : Bytes) : Reads (Cursor.u16 what) fun n w => w = Bytes.ofUInt16 n := by
  refine (Reads.bind (Reads.take 2 what) fun b => Reads.pure (Bytes.bigEndian b).toUInt16).congr ?_
  intro n w
  constructor
  · rintro ⟨b, u, v, ⟨two, rfl⟩, ⟨rfl, rfl⟩, rfl⟩
    rw [Bytes.ofUInt16_toUInt16_bigEndian two, List.append_nil]
  · rintro rfl
    refine ⟨_, _, [], ⟨Bytes.length_ofUInt16 n, rfl⟩, ⟨?_, rfl⟩, (List.append_nil _).symm⟩
    exact (Bytes.toUInt16_bigEndian_ofUInt16 n).symm

theorem u32 (what : Bytes) : Reads (Cursor.u32 what) fun n w => w = Bytes.ofUInt32 n := by
  refine (Reads.bind (Reads.take 4 what) fun b => Reads.pure (Bytes.bigEndian b).toUInt32).congr ?_
  intro n w
  constructor
  · rintro ⟨b, u, v, ⟨four, rfl⟩, ⟨rfl, rfl⟩, rfl⟩
    rw [Bytes.ofUInt32_toUInt32_bigEndian four, List.append_nil]
  · rintro rfl
    refine ⟨_, _, [], ⟨Bytes.length_ofUInt32 n, rfl⟩, ⟨?_, rfl⟩, (List.append_nil _).symm⟩
    exact (Bytes.toUInt32_bigEndian_ofUInt32 n).symm

theorem skip (n : Nat) (what : Bytes) : Reads (Cursor.skip n what) fun _ w => w.length = n := by
  intro c c' u inside
  have size := Cursor.length_ahead c
  by_cases fits : c.pos + n ≤ c.buffer.size
  · rw [Cursor.skip_of_fits what fits]
    constructor
    · intro run
      cases run
      have all : (c.ahead.take n).length = n := by
        rw [List.length_take]
        omega
      refine ⟨c.ahead.take n, all, List.take_prefix n c.ahead, ?_⟩
      rw [all]
    · rintro ⟨w, rfl, word, rfl⟩
      rfl
  · rw [Cursor.skip_of_short what (Nat.lt_of_not_le fits)]
    constructor
    · intro run
      cases run
    · rintro ⟨w, rfl, word, _⟩
      have bound := word.length_le
      omega

/-- The grammar of values that fit and are spelled in one way. -/
def spelling (fits : α -> Prop) (encoding : α -> Bytes) : Grammar α :=
  fun a w => fits a ∧ w = encoding a

theorem times {r : Reader α} {fits : α -> Prop} {encoding : α -> Bytes}
    (reads : Reads r (spelling fits encoding)) (n : Nat) :
    Reads (Cursor.times n r) fun l w =>
      l.length = n ∧ (∀ a ∈ l, fits a) ∧ w = l.flatMap encoding := by
  induction n with
  | zero =>
    refine (Reads.pure []).congr ?_
    intro l w
    constructor
    · rintro ⟨rfl, rfl⟩
      simp
    · rintro ⟨empty, _, rfl⟩
      obtain rfl := List.length_eq_zero_iff.mp empty
      exact ⟨rfl, rfl⟩
  | succ n ih =>
    refine (Reads.bind reads fun a => Reads.bind ih fun rest => Reads.pure (a :: rest)).congr ?_
    intro l w
    constructor
    · rintro ⟨a, _, _, ⟨fit, rfl⟩, ⟨rest, _, _, ⟨rfl, fits, rfl⟩, ⟨rfl, rfl⟩, rfl⟩, rfl⟩
      refine ⟨rfl, ?_, by simp⟩
      exact List.forall_mem_cons.mpr ⟨fit, fits⟩
    · rintro ⟨count, fits, rfl⟩
      obtain ⟨a, rest, rfl⟩ := List.exists_cons_of_length_eq_add_one count
      obtain ⟨fit, fits⟩ := List.forall_mem_cons.mp fits
      refine ⟨a, _, _, ⟨fit, rfl⟩, ⟨rest, _, [], ⟨?_, fits, rfl⟩, ⟨rfl, rfl⟩, rfl⟩, by simp⟩
      simpa using count

end Reads

end Jvm
