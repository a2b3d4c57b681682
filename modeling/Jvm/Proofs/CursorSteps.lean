import Jvm.Proofs.Extension
import Mathlib.Tactic.Common

/-!
Sequences of cursor steps. A step reads an integer or some bytes, or skips some. It is carried out whole
or not at all, and what was read and skipped on the way, written out again, is the stretch of the buffer
between the first place and the last. So no byte is left out and none is read twice.
-/

set_option autoImplicit false
set_option relaxedAutoImplicit false

namespace Jvm.Cursor

inductive Step where
  | u8 (what : Bytes)
  | u16 (what : Bytes)
  | u32 (what : Bytes)
  | bytes (n : Nat) (what : Bytes)
  | skip (n : Nat) (what : Bytes)

inductive Reading where
  | u8 (n : UInt8)
  | u16 (n : UInt16)
  | u32 (n : UInt32)
  | bytes (b : Bytes)
  | skipped (b : Bytes)

def Reading.encoding : Reading -> Bytes
  | .u8 n => [n]
  | .u16 n => Bytes.ofUInt16 n
  | .u32 n => Bytes.ofUInt32 n
  | .bytes b => b
  | .skipped b => b

def upTo (c d : Cursor) : Bytes := (c.buffer.extract c.pos d.pos).toList

namespace Step

def what : Step -> Bytes
  | .u8 what | .u16 what | .u32 what | .bytes _ what | .skip _ what => what

def size : Step -> Nat
  | .u8 _ => 1
  | .u16 _ => 2
  | .u32 _ => 4
  | .bytes n _ | .skip n _ => n

/-- Carry out a step. What a skip comes by lies between the place before it and the place behind it. -/
def read : Step -> Reader Reading
  | .u8 what => do return .u8 (<- Cursor.u8 what)
  | .u16 what => do return .u16 (<- Cursor.u16 what)
  | .u32 what => do return .u32 (<- Cursor.u32 what)
  | .bytes n what => do return .bytes (<- Cursor.bytes n what)
  | .skip n what => do
    let before <- get
    Cursor.skip n what
    return .skipped (before.upTo (<- get))

private def value : Step -> Bytes -> Reading
  | .u8 _, w => .u8 (Bytes.bigEndian w).toUInt8
  | .u16 _, w => .u16 (Bytes.bigEndian w).toUInt16
  | .u32 _, w => .u32 (Bytes.bigEndian w).toUInt32
  | .bytes _ _, w => .bytes w
  | .skip _ _, w => .skipped w

private theorem encoding_value {s : Step} {w : Bytes} (long : w.length = s.size) :
    (s.value w).encoding = w := by
  cases s with
  | u8 what =>
    obtain ⟨x, rfl⟩ := List.length_eq_one_iff.mp long
    exact congrArg ([·]) (Bytes.toUInt8_bigEndian_singleton x)
  | u16 what => exact Bytes.ofUInt16_toUInt16_bigEndian long
  | u32 what => exact Bytes.ofUInt32_toUInt32_bigEndian long
  | bytes n what => rfl
  | skip n what => rfl

private theorem fixedWidth (s : Step) : FixedWidth s.size s.what s.read s.value := by
  cases s with
  | u8 what => exact (FixedWidth.u8 what).map Reading.u8
  | u16 what => exact (FixedWidth.u16 what).map Reading.u16
  | u32 what => exact (FixedWidth.u32 what).map Reading.u32
  | bytes n what => exact (FixedWidth.take n what).map Reading.bytes
  | skip n what =>
    refine ⟨fun c fits => ?_, fun c short => ?_⟩
    · have skipped : Cursor.skip n what c = .ok () (c.advance n) := skip_of_fits what fits
      have passed : c.upTo (c.advance n) = c.ahead.take n := extract_eq_take_ahead c n
      rw [read, Outcome.get_bind, Outcome.bind_of_ok skipped, Outcome.get_bind, passed]
      rfl
    · rw [read, Outcome.get_bind]
      exact Outcome.bind_of_error (skip_of_short what short) _

/-- The rules of a step at a place: it succeeds exactly if it fits into the buffer, and then moves on by
its size; a failure stays in place and tells the place, the size and how many bytes there are. -/
structure Obeys (s : Step) (c : Cursor) : Prop where
  ok_iff : (∃ r d, s.read c = .ok r d) ↔ c.pos + s.size ≤ c.buffer.size
  moved : ∀ r d, s.read c = .ok r d → d = c.advance s.size
  stayed : ∀ e d, s.read c = .error e d → d = c ∧ e.offset = c.pos ∧ e.need = s.size ∧
    e.available = max 0 c.remaining ∧ e.what = s.what ∧ e.cause = .truncated

theorem obeys (s : Step) (c : Cursor) : s.Obeys c := by
  by_cases fits : c.pos + s.size ≤ c.buffer.size
  · have run := s.fixedWidth.fits c fits
    refine ⟨⟨fun _ => fits, fun _ => ⟨_, _, run⟩⟩, ?_, ?_⟩
    · intro r d run'
      cases run.symm.trans run'
      rfl
    · intro e d run'
      cases run.symm.trans run'
  · have run := s.fixedWidth.short c (Nat.lt_of_not_le fits)
    refine ⟨⟨?_, fun fits' => absurd fits' fits⟩, ?_, ?_⟩
    · rintro ⟨r, d, run'⟩
      cases run.symm.trans run'
    · intro r d run'
      cases run.symm.trans run'
    · intro e d run'
      cases run.symm.trans run'
      refine ⟨rfl, rfl, rfl, ?_, rfl, rfl⟩
      simp only [ParseError.truncated, remaining]
      omega

end Step

/-! ## Sequences of steps -/

/-- The place after some steps. A failed step does not keep the next one from being carried out. -/
def after (c : Cursor) (steps : List Step) : Cursor := steps.foldl (fun d s => stop (s.read d)) c

/-- What the successful ones of some steps come by. -/
def readings (c : Cursor) : List Step -> List Reading
  | [] => []
  | s :: rest =>
    match s.read c with
    | .ok r d => r :: d.readings rest
    | .error _ d => d.readings rest

private theorem encoding_step (s : Step) (c : Cursor) :
    (∃ r, s.read c = .ok r (c.advance s.size) ∧ r.encoding = c.ahead.take s.size) ∨
      ∃ e, s.read c = .error e c := by
  by_cases fits : c.pos + s.size ≤ c.buffer.size
  · have long : (c.ahead.take s.size).length = s.size := by
      rw [List.length_take, length_ahead]
      omega
    exact .inl ⟨_, s.fixedWidth.fits c fits, Step.encoding_value long⟩
  · exact .inr ⟨_, s.fixedWidth.short c (Nat.lt_of_not_le fits)⟩

private theorem readings_eq_take_ahead (c : Cursor) (steps : List Step) :
    (c.after steps).buffer = c.buffer ∧ c.pos ≤ (c.after steps).pos ∧
      (c.readings steps).flatMap Reading.encoding = c.ahead.take ((c.after steps).pos - c.pos) := by
  induction steps generalizing c with
  | nil => simp [after, readings]
  | cons s rest ih =>
    rcases encoding_step s c with ⟨r, run, written⟩ | ⟨e, run⟩
    · obtain ⟨kept, onward, read⟩ := ih (c.advance s.size)
      have next : c.after (s :: rest) = (c.advance s.size).after rest := by
        rw [after, List.foldl_cons, run]
        rfl
      have split : (c.after (s :: rest)).pos - c.pos =
          s.size + ((c.after (s :: rest)).pos - (c.pos + s.size)) := by
        rw [next]
        rw [advance_pos] at onward
        omega
      rw [ahead_advance, advance_pos, ← next] at read
      rw [← next] at kept onward
      refine ⟨kept, Nat.le_trans (Nat.le_add_right _ _) onward, ?_⟩
      rw [readings, run, List.flatMap_cons, written, read, split, List.take_add]
    · have next : c.after (s :: rest) = c.after rest := by
        rw [after, List.foldl_cons, run]
        rfl
      rw [readings, run, next]
      exact ih c

/-- In every sequence of steps from any place, also behind the end of the buffer, each step follows the
rules of a step, and the readings written out one after the other are the bytes of the buffer from the
first place to the last. -/
theorem steps_pass_each_byte_once (buffer : Array UInt8) (start : Nat) (steps : List Step) :
    (∀ before s behind, steps = before ++ s :: behind → s.Obeys (after ⟨buffer, start⟩ before)) ∧
    (after ⟨buffer, start⟩ steps).buffer = buffer ∧
    start ≤ (after ⟨buffer, start⟩ steps).pos ∧
    (readings ⟨buffer, start⟩ steps).flatMap Reading.encoding =
      (buffer.extract start (after ⟨buffer, start⟩ steps).pos).toList := by
  obtain ⟨kept, onward, read⟩ := readings_eq_take_ahead ⟨buffer, start⟩ steps
  refine ⟨fun before s behind _ => s.obeys _, kept, onward, ?_⟩
  rw [read, ← extract_eq_take_ahead, Nat.add_sub_cancel' onward]

example :
    (readings ⟨#[1, 2, 3], 0⟩ [.u8 [], .skip 5 [], .u16 [], .bytes 0 [], .u8 []]).flatMap Reading.encoding =
      [1, 2, 3] := by decide

end Jvm.Cursor
