import Jvm.ClassFile.Parser
import Jvm.Proofs.Grammar
import Mathlib.Tactic.Common

/-!
Decoding a buffer and decoding the same buffer with bytes appended. A reader never looks behind the
place where it stopped, so a success and an unknown tag stay as they are, and a shortage stays until
the value that was too long fits.
-/

set_option autoImplicit false
set_option relaxedAutoImplicit false

namespace Jvm

namespace Cursor

def extend (c : Cursor) (s : Bytes) : Cursor := { c with buffer := c.buffer ++ s.toArray }

@[simp] theorem extend_pos (c : Cursor) (s : Bytes) : (c.extend s).pos = c.pos := rfl

@[simp] theorem extend_size (c : Cursor) (s : Bytes) :
    (c.extend s).buffer.size = c.buffer.size + s.length := by
  simp [extend]

theorem take_ahead_extend {c : Cursor} {n : Nat} (fits : c.pos + n ≤ c.buffer.size) (s : Bytes) :
    (c.extend s).ahead.take n = c.ahead.take n := by
  have long : n ≤ c.ahead.length := by
    rw [length_ahead]
    omega
  have split : (c.extend s).ahead = c.ahead ++ s := by
    have inside : c.pos ≤ c.buffer.toList.length := by
      rw [Array.length_toList]
      omega
    simp only [ahead, extend, Array.toList_append]
    exact List.drop_append_of_le_length inside
  rw [split, List.take_append_of_le_length long]

theorem u8_eq_ok {what : Bytes} {x : UInt8} {c d : Cursor} (run : u8 what c = .ok x d) :
    d = c.advance 1 ∧ c.buffer[c.pos]? = some x := by
  by_cases room : c.pos < c.buffer.size
  · obtain ⟨_, rfl, word, rfl⟩ := (Reads.u8 what c d x (Nat.le_of_lt room)).mp run
    obtain ⟨rest, ahead⟩ := word
    refine ⟨rfl, ?_⟩
    have first : c.ahead[0]? = some x := by
      rw [← ahead]
      rfl
    rw [← Array.getElem?_toList]
    simpa [Cursor.ahead] using first
  · have short : c.buffer.size < c.pos + 1 := by omega
    rw [Cursor.u8, Outcome.bind_of_error (Cursor.take_of_short what short)] at run
    cases run

/-- A later place in the same buffer, inside it when the earlier one was. -/
structure Onward (c d : Cursor) : Prop where
  buffer : d.buffer = c.buffer
  pos : c.pos ≤ d.pos
  inside : c.pos ≤ c.buffer.size → d.pos ≤ c.buffer.size

namespace Onward

theorem refl (c : Cursor) : c.Onward c := ⟨rfl, Nat.le_refl c.pos, id⟩

theorem trans {c d e : Cursor} (first : c.Onward d) (second : d.Onward e) : c.Onward e := by
  refine ⟨second.buffer.trans first.buffer, first.pos.trans second.pos, ?_⟩
  intro inside
  have middle := first.inside inside
  have ended := second.inside
  rw [first.buffer] at ended
  exact ended middle

end Onward

end Cursor

/-- A reader of exactly `n` bytes: it makes a value of the bytes ahead, or reports that they are too
few. -/
structure FixedWidth {α : Type} (n : Nat) (what : Bytes) (r : Reader α) (value : Bytes -> α) :
    Prop where
  fits : ∀ c : Cursor, c.pos + n ≤ c.buffer.size → r c = .ok (value (c.ahead.take n)) (c.advance n)
  short : ∀ c : Cursor, c.buffer.size < c.pos + n →
    r c = .error (.truncated c.pos what n (c.buffer.size - c.pos)) c

namespace FixedWidth

theorem take (n : Nat) (what : Bytes) : FixedWidth n what (Cursor.take n what) id := by
  refine ⟨?_, fun _ => Cursor.take_of_short what⟩
  intro c fits
  rw [Cursor.take_of_fits what fits, Cursor.extract_eq_take_ahead]
  rfl

theorem skip (n : Nat) (what : Bytes) : FixedWidth n what (Cursor.skip n what) fun _ => () :=
  ⟨fun _ => Cursor.skip_of_fits what, fun _ => Cursor.skip_of_short what⟩

theorem map {α β : Type} {n : Nat} {what : Bytes} {r : Reader α} {value : Bytes -> α}
    (fixed : FixedWidth n what r value) (f : α -> β) :
    FixedWidth n what (do return f (<- r)) fun w => f (value w) :=
  ⟨fun c fits => Outcome.bind_of_ok (fixed.fits c fits) _,
    fun c short => Outcome.bind_of_error (fixed.short c short) _⟩

theorem u8 (what : Bytes) : FixedWidth 1 what (Cursor.u8 what) fun w => (Bytes.bigEndian w).toUInt8 :=
  (FixedWidth.take 1 what).map fun b => (Bytes.bigEndian b).toUInt8

theorem u16 (what : Bytes) :
    FixedWidth 2 what (Cursor.u16 what) fun w => (Bytes.bigEndian w).toUInt16 :=
  (FixedWidth.take 2 what).map fun b => (Bytes.bigEndian b).toUInt16

theorem u32 (what : Bytes) :
    FixedWidth 4 what (Cursor.u32 what) fun w => (Bytes.bigEndian w).toUInt32 :=
  (FixedWidth.take 4 what).map fun b => (Bytes.bigEndian b).toUInt32

theorem pos_of_ok {α : Type} {n : Nat} {what : Bytes} {r : Reader α} {value : Bytes -> α}
    (fixed : FixedWidth n what r value) {a : α} {c d : Cursor} (run : r c = .ok a d) :
    d.pos = c.pos + n := by
  by_cases fits : c.pos + n ≤ c.buffer.size
  · rw [fixed.fits c fits] at run
    cases run
    rfl
  · rw [fixed.short c (Nat.lt_of_not_le fits)] at run
    cases run

end FixedWidth

/-! ## Readers that move forward -/

def stop {α : Type} : EStateM.Result ParseError Cursor α -> Cursor
  | .ok _ c => c
  | .error _ c => c

/-- A reader that stops in the same buffer, at or behind the place where it started. -/
def Forward {α : Type} (r : Reader α) : Prop := ∀ c : Cursor, c.Onward (stop (r c))

namespace Forward

variable {α β : Type}

theorem pure (a : α) : Forward (pure a) := fun c => .refl c

theorem throw (e : ParseError) : Forward (throw e : Reader α) := fun c => .refl c

theorem get_bind {f : Cursor -> Reader α} (each : ∀ start, Forward (f start)) :
    Forward (get >>= f) := fun c => each c c

theorem bind {r : Reader α} {f : α -> Reader β} (first : Forward r)
    (second : ∀ a, Forward (f a)) : Forward (r >>= f) := by
  intro c
  have moved := first c
  cases run : r c with
  | ok a d =>
    rw [run] at moved
    rw [Outcome.bind_of_ok run]
    exact moved.trans (second a d)
  | error e d =>
    rw [run] at moved
    rw [Outcome.bind_of_error run]
    exact moved

theorem fixedWidth {n : Nat} {what : Bytes} {r : Reader α} {value : Bytes -> α}
    (fixed : FixedWidth n what r value) : Forward r := by
  intro c
  by_cases fits : c.pos + n ≤ c.buffer.size
  · rw [fixed.fits c fits]
    exact ⟨rfl, Nat.le_add_right c.pos n, fun _ => fits⟩
  · rw [fixed.short c (Nat.lt_of_not_le fits)]
    exact .refl c

end Forward

/-! ## Runs over longer buffers -/

/-- What the run of a reader at a cursor says about its runs when bytes are appended to the buffer.
Unknown tags are only reported from the offset `low` on. -/
inductive Extends {α : Type} (low : Nat) (r : Reader α) (c : Cursor) : Prop
  | ok (a : α) (d : Cursor) (run : r c = .ok a d) (longer : ∀ s, r (c.extend s) = .ok a (d.extend s))
  | unknownTag (offset : Nat) (tag : UInt8) (d : Cursor)
    (run : r c = .error (.unknownTag offset tag) d)
    (above : low ≤ offset) (byte : c.buffer[offset]? = some tag) (unknown : tag ∉ [1, 7, 8, 9, 10, 12])
    (longer : ∀ s, r (c.extend s) = .error (.unknownTag offset tag) (d.extend s))
  /-- a shortage stays until the value fits, and from then on the reader gets past the value -/
  | truncated (what : Bytes) (n : Nat) (d : Cursor)
    (run : r c = .error (.truncated d.pos what n (c.buffer.size - d.pos)) d)
    (short : c.buffer.size < d.pos + n)
    (longer : ∀ s : Bytes, c.buffer.size + s.length < d.pos + n → r (c.extend s) =
      .error (.truncated d.pos what n (c.buffer.size + s.length - d.pos)) (d.extend s))
    (enough : ∀ s : Bytes, d.pos + n ≤ c.buffer.size + s.length →
      d.pos + n ≤ (stop (r (c.extend s))).pos)

namespace Extends

variable {α β : Type} {low : Nat} {c : Cursor}

theorem through {r r' : Reader α} {c' : Cursor} (extended : Extends low r c')
    (kept : c'.buffer = c.buffer) (here : r' c = r c')
    (there : ∀ s, r' (c.extend s) = r (c'.extend s)) : Extends low r' c := by
  cases extended with
  | ok a d run longer => exact .ok a d (here.trans run) fun s => (there s).trans (longer s)
  | unknownTag offset tag d run above byte unknown longer =>
    rw [kept] at byte
    exact .unknownTag offset tag d (here.trans run) above byte unknown fun s =>
      (there s).trans (longer s)
  | truncated what n d run short longer enough =>
    rw [kept] at run short longer enough
    refine .truncated what n d (here.trans run) short (fun s few => (there s).trans (longer s few)) ?_
    intro s many
    rw [there s]
    exact enough s many

theorem mono {low' : Nat} {r : Reader α} (extended : Extends low r c) (below : low' ≤ low) :
    Extends low' r c := by
  cases extended with
  | ok a d run longer => exact .ok a d run longer
  | unknownTag offset tag d run above byte unknown longer =>
    exact .unknownTag offset tag d run (below.trans above) byte unknown longer
  | truncated what n d run short longer enough => exact .truncated what n d run short longer enough

theorem pure (a : α) : Extends low (pure a) c := .ok a c rfl fun _ => rfl

theorem bind {r : Reader α} {f : α -> Reader β} (first : Extends low r c) (forward : Forward r)
    (forward' : ∀ a, Forward (f a)) (second : ∀ a d, r c = .ok a d → Extends low (f a) d) :
    Extends low (r >>= f) c := by
  cases first with
  | ok a d run longer =>
    have kept : d.buffer = c.buffer := by
      have moved := forward c
      rw [run] at moved
      exact moved.buffer
    refine (second a d run).through kept ?_ ?_
    · exact Outcome.bind_of_ok run f
    · intro s
      exact Outcome.bind_of_ok (longer s) f
  | unknownTag offset tag d run above byte unknown longer =>
    exact .unknownTag offset tag d (Outcome.bind_of_error run f) above byte unknown fun s =>
      Outcome.bind_of_error (longer s) f
  | truncated what n d run short longer enough =>
    refine .truncated what n d (Outcome.bind_of_error run f) short
      (fun s few => Outcome.bind_of_error (longer s few) f) ?_
    intro s many
    have past := enough s many
    cases run' : r (c.extend s) with
    | ok a d' =>
      rw [run'] at past
      rw [Outcome.bind_of_ok run' f]
      exact past.trans (forward' a d').pos
    | error e d' =>
      rw [run'] at past
      rw [Outcome.bind_of_error run' f]
      exact past

theorem fixedWidth {n : Nat} {what : Bytes} {r : Reader α} {value : Bytes -> α}
    (fixed : FixedWidth n what r value) (c : Cursor) : Extends low r c := by
  by_cases fits : c.pos + n ≤ c.buffer.size
  · refine .ok _ (c.advance n) (fixed.fits c fits) ?_
    intro s
    have fits' : (c.extend s).pos + n ≤ (c.extend s).buffer.size := by
      rw [Cursor.extend_size, Cursor.extend_pos]
      omega
    rw [fixed.fits _ fits', Cursor.take_ahead_extend fits]
    rfl
  · have short : c.buffer.size < c.pos + n := Nat.lt_of_not_le fits
    refine .truncated what n c (fixed.short c short) short ?_ ?_
    · intro s few
      rw [← Cursor.extend_size] at few ⊢
      exact fixed.short _ few
    · intro s many
      rw [← Cursor.extend_size] at many
      rw [fixed.fits _ many]
      exact Nat.le_refl (c.pos + n)

end Extends

/-- A reader that moves forward, whose runs extend, and that reports unknown tags only from `gap` bytes
behind its start on. -/
structure Steady {α : Type} (gap : Nat) (r : Reader α) : Prop where
  forward : Forward r
  longer : ∀ c : Cursor, Extends (c.pos + gap) r c

namespace Steady

variable {α β : Type} {gap : Nat}

theorem pure (a : α) : Steady gap (pure a) := ⟨.pure a, fun _ => .pure a⟩

theorem fixedWidth {n : Nat} {what : Bytes} {r : Reader α} {value : Bytes -> α}
    (fixed : FixedWidth n what r value) : Steady gap r :=
  ⟨.fixedWidth fixed, fun c => .fixedWidth fixed c⟩

theorem u16 (what : Bytes) : Steady gap (Cursor.u16 what) := .fixedWidth (.u16 what)

theorem bind {r : Reader α} {f : α -> Reader β} (first : Steady gap r)
    (second : ∀ a, Steady gap (f a)) : Steady gap (r >>= f) := by
  have forward : ∀ a, Forward (f a) := fun a => (second a).forward
  refine ⟨first.forward.bind forward, ?_⟩
  intro c
  refine (first.longer c).bind first.forward forward ?_
  intro a d run
  have moved := first.forward c
  rw [run] at moved
  exact ((second a).longer d).mono (Nat.add_le_add_right moved.pos gap)

theorem behind {n : Nat} {what : Bytes} {r : Reader α} {value : Bytes -> α} {f : α -> Reader β}
    (fixed : FixedWidth n what r value) (second : ∀ a, Steady gap (f a)) :
    Steady (n + gap) (r >>= f) := by
  have forward : ∀ a, Forward (f a) := fun a => (second a).forward
  refine ⟨(Forward.fixedWidth fixed).bind forward, ?_⟩
  intro c
  refine (Extends.fixedWidth fixed c).bind (.fixedWidth fixed) forward ?_
  intro a d run
  have passed : d.pos = c.pos + n := fixed.pos_of_ok run
  refine ((second a).longer d).mono ?_
  omega

theorem times {r : Reader α} (each : Steady gap r) (n : Nat) : Steady gap (Cursor.times n r) := by
  induction n with
  | zero => exact Steady.pure []
  | succ n ih => exact each.bind fun a => ih.bind fun rest => Steady.pure (a :: rest)

end Steady

/-! ## Class files -/

namespace ClassFile

theorem readOperands_steady_or_throw (start : Nat) (code : UInt8) :
    (∀ gap, Steady gap (readOperands start code)) ∨
      code ∉ [1, 7, 8, 9, 10, 12] ∧ readOperands start code = throw (.unknownTag start code) := by
  have word {wrap : UInt16 -> Entry} (what : Bytes) (gap : Nat) :
      Steady gap (do return wrap (<- Cursor.u16 what)) :=
    (Steady.u16 what).bind fun _ => Steady.pure _
  have words {wrap : UInt16 -> UInt16 -> Entry} (what what' : Bytes) (gap : Nat) :
      Steady gap (do return wrap (<- Cursor.u16 what) (<- Cursor.u16 what')) :=
    (Steady.u16 what).bind fun _ => (Steady.u16 what').bind fun _ => Steady.pure _
  unfold readOperands
  split
  · left
    intro gap
    exact (Steady.u16 _).bind fun length => (Steady.fixedWidth (.take length.toNat _)).bind fun _ =>
      Steady.pure _
  · exact .inl (word _)
  · exact .inl (word _)
  · exact .inl (words _ _)
  · exact .inl (words _ _)
  · exact .inl (words _ _)
  · rename_i known
    rw [Tag.ofCode?_eq_some_iff] at known
    subst known
    exact .inr ⟨by decide, rfl⟩
  · rename_i unknown
    refine .inr ⟨?_, rfl⟩
    intro listed
    simp only [List.mem_cons, List.not_mem_nil, or_false] at listed
    rcases listed with rfl | rfl | rfl | rfl | rfl | rfl <;> cases unknown

theorem readEntry_steady : Steady 0 readEntry := by
  have operands (start : Nat) (code : UInt8) : Forward (readOperands start code) := by
    rcases readOperands_steady_or_throw start code with steady | ⟨_, thrown⟩
    · exact (steady 0).forward
    · rw [thrown]
      exact Forward.throw _
  refine ⟨Forward.get_bind fun start => (Forward.fixedWidth (.u8 _)).bind (operands start.pos), ?_⟩
  intro c
  -- The entry remembers where it started, which is the same place in a longer buffer.
  have extended : Extends c.pos (Cursor.u8 (utf8 "constant pool tag") >>= readOperands c.pos) c := by
    refine (Extends.fixedWidth (.u8 _) c).bind (.fixedWidth (.u8 _)) (operands c.pos) ?_
    intro code d run
    obtain ⟨rfl, byte⟩ := Cursor.u8_eq_ok run
    rcases readOperands_steady_or_throw c.pos code with steady | ⟨unknown, thrown⟩
    · refine ((steady 0).longer (c.advance 1)).mono ?_
      exact Nat.le_add_right c.pos 1
    · rw [thrown]
      exact .unknownTag c.pos code _ rfl (Nat.le_refl c.pos) byte unknown fun _ => rfl
  exact extended.through rfl rfl fun _ => rfl

theorem readPool_steady : Steady 2 readPool :=
  Steady.behind (.u16 _) fun count => (readEntry_steady.times (count.toNat - 1)).bind fun _ =>
    Steady.pure _

theorem readMembers_steady (gap : Nat) : Steady gap readMembers := by
  have attributes : Steady gap readAttribute :=
    (Steady.u16 _).bind fun _ => (Steady.fixedWidth (.u32 _)).bind fun length =>
      (Steady.fixedWidth (.take length.toNat _)).bind fun _ => Steady.pure _
  have members : Steady gap readMember :=
    (Steady.u16 _).bind fun _ => (Steady.u16 _).bind fun _ => (Steady.u16 _).bind fun _ =>
      (Steady.u16 _).bind fun count => (attributes.times count.toNat).bind fun _ => Steady.pure _
  exact (Steady.fixedWidth (.skip 10 _)).bind fun _ => (Steady.u16 _).bind fun count =>
    members.times count.toNat

/-- Tags only stand behind the versions and the pool count, six bytes on. -/
theorem read_steady : Steady 6 read :=
  Steady.behind (.u16 _) fun _ => Steady.behind (.u16 _) fun _ => readPool_steady.bind fun _ =>
    (readMembers_steady 2).bind fun _ => Steady.pure _

private theorem versions_append (b s : Bytes) : versions (b ++ s) = (versions b).extend s := by
  simp [versions, Cursor.extend]

private theorem lt_of_truncated {b what : Bytes} {n : Nat} {d : Cursor}
    (run : read (versions b) = .error (.truncated d.pos what n (b.length - d.pos)) d)
    (short : b.length < d.pos + n) : b.length - d.pos < n := by
  by_cases room : 4 ≤ b.length
  · have inside := (read_steady.forward (versions b)).inside
    rw [run, versions_size] at inside
    have stopped : d.pos ≤ b.length := inside room
    omega
  · rw [read_of_short (no_room room)] at run
    injection run with reported
    injection reported with _ _ _ need
    omega

private theorem parse_append_of_ok {b : Bytes} {m : ClassFile} (parsed : parse b = .ok m)
    (s : Bytes) : parse (b ++ s) = .ok m := by
  obtain ⟨c, run⟩ := parse_eq_ok_iff.mp parsed
  rw [parse_eq_ok_iff, versions_append]
  cases read_steady.longer (versions b) with
  | ok m' d run' longer =>
    cases run.symm.trans run'
    exact ⟨_, longer s⟩
  | unknownTag offset tag d run' => cases run.symm.trans run'
  | truncated what n d run' => cases run.symm.trans run'

private theorem parse_append_of_error {b : Bytes} {e : ParseError} (failed : parse b = .error e) :
    (∃ (offset : Nat) (tag : UInt8), e = .unknownTag offset tag ∧ 10 ≤ offset ∧
      offset < b.length ∧ b[offset]? = some tag ∧ tag ∉ [1, 7, 8, 9, 10, 12] ∧
      ∀ s, parse (b ++ s) = .error e) ∨
    (∃ (offset : Nat) (what : Bytes) (need : Nat),
      e = .truncated offset what need (b.length - offset) ∧ b.length - offset < need ∧
      (∀ s : Bytes, b.length + s.length < offset + need →
        parse (b ++ s) = .error (.truncated offset what need (b.length + s.length - offset))) ∧
      (∀ (s : Bytes) (e' : ParseError), offset + need ≤ b.length + s.length →
        parse (b ++ s) = .error e' → e'.cause = .truncated →
        (offset + need : Int) ≤ e'.offset)) := by
  obtain ⟨c, run⟩ := parse_eq_error_iff.mp failed
  cases read_steady.longer (versions b) with
  | ok m' d run' => cases run.symm.trans run'
  | unknownTag offset tag d run' above byte unknown longer =>
    cases run.symm.trans run'
    have byte' : b[offset]? = some tag := by
      rw [← byte]
      simp [versions]
    obtain ⟨inside, _⟩ := List.getElem?_eq_some_iff.mp byte'
    refine .inl ⟨offset, tag, rfl, above, inside, byte', unknown, ?_⟩
    intro s
    rw [parse_eq_error_iff, versions_append]
    exact ⟨_, longer s⟩
  | truncated what n d run' short longer enough =>
    rw [versions_size] at run' short longer enough
    cases run.symm.trans run'
    refine .inr ⟨c.pos, what, n, rfl, lt_of_truncated run' short, ?_, ?_⟩
    · intro s few
      rw [parse_eq_error_iff, versions_append]
      exact ⟨_, longer s few⟩
    · intro s e' many failed' shortage
      have past := enough s many
      rw [← versions_append] at past
      obtain ⟨c', run''⟩ := parse_eq_error_iff.mp failed'
      rw [run''] at past
      cases read_steady.longer (versions (b ++ s)) with
      | ok m' d' ok' => cases run''.symm.trans ok'
      | unknownTag offset' tag' d' other =>
        cases run''.symm.trans other
        cases shortage
      | truncated what' n' d' other =>
        cases run''.symm.trans other
        exact Int.ofNat_le.mpr past

private theorem pos_le_of_read {b : Bytes} {m : ClassFile} {c : Cursor}
    (run : read (versions b) = .ok m c) : c.pos ≤ b.length := by
  obtain ⟨_, s, _, rfl, ends⟩ := encoding_of_read run
  simp only [ends, encoding, List.length_append, s.magic_length]
  omega

private theorem parse_take {b : Bytes} {m : ClassFile} {c : Cursor}
    (run : read (versions b) = .ok m c) (n : Nat) :
    (n < c.pos → ∃ e, parse (b.take n) = .error e ∧ e.cause = .truncated) ∧
      (c.pos ≤ n → parse (b.take n) = .ok m) := by
  have whole : versions b = (versions (b.take n)).extend (b.drop n) := by
    rw [← versions_append, List.take_append_drop]
  have total : (b.take n).length + (b.drop n).length = b.length := by
    rw [← List.length_append, List.take_append_drop]
  cases read_steady.longer (versions (b.take n)) with
  | ok m' d run' longer =>
    have same := longer (b.drop n)
    rw [← whole, run] at same
    cases same
    have reached : d.pos ≤ n := (pos_le_of_read run').trans (List.length_take_le n b)
    refine ⟨fun early => absurd reached (Nat.not_le.mpr early), fun _ => ?_⟩
    exact parse_eq_ok_iff.mpr ⟨d, run'⟩
  | unknownTag offset tag d run' above byte unknown longer =>
    have same := longer (b.drop n)
    rw [← whole, run] at same
    cases same
  | truncated what k d run' short longer enough =>
    rw [versions_size] at run' short longer enough
    -- The value that is too long for the prefix fits into the file, and so ends before the table does.
    have fits : d.pos + k ≤ (b.take n).length + (b.drop n).length := by
      by_contra few
      have same := longer (b.drop n) (Nat.lt_of_not_le few)
      rw [← whole, run] at same
      cases same
    have past := enough (b.drop n) fits
    rw [← whole, run] at past
    change d.pos + k ≤ c.pos at past
    constructor
    · intro _
      exact ⟨_, parse_eq_error_iff.mpr ⟨d, run'⟩, rfl⟩
    · intro reached
      have inside := pos_le_of_read run
      rw [List.length_take] at short
      omega

/-- Decoding a buffer and decoding it with bytes appended. A class stays. An unknown tag stays, and
stands in the buffer behind the pool count. A shortage stays until the value that is too long fits;
a shortage reported from then on lies behind this value. There are no other failures. So the prefixes
of a file that decode are those that reach to the end of its member table, where the body of its
encoding ends and decoding stops. -/
theorem parse_under_append_and_take (b : Bytes) :
    (∀ m, parse b = .ok m → ∀ s, parse (b ++ s) = .ok m) ∧
    (∀ e, parse b = .error e →
      (∃ (offset : Nat) (tag : UInt8), e = .unknownTag offset tag ∧ 10 ≤ offset ∧
        offset < b.length ∧ b[offset]? = some tag ∧ tag ∉ [1, 7, 8, 9, 10, 12] ∧
        ∀ s, parse (b ++ s) = .error e) ∨
      (∃ (offset : Nat) (what : Bytes) (need : Nat),
        e = .truncated offset what need (b.length - offset) ∧ b.length - offset < need ∧
        (∀ s : Bytes, b.length + s.length < offset + need →
          parse (b ++ s) = .error (.truncated offset what need (b.length + s.length - offset))) ∧
        (∀ (s : Bytes) (e' : ParseError), offset + need ≤ b.length + s.length →
          parse (b ++ s) = .error e' → e'.cause = .truncated →
          (offset + need : Int) ≤ e'.offset))) ∧
    (∀ m, parse b = .ok m → ∃ c, read (versions b) = .ok m c ∧ c.pos ≤ b.length ∧
      (∃ s : Surroundings, m.pool.length = entriesOf s.count + 1 ∧ b = m.encoding s ∧
        c.pos = 4 + (m.body s.count s.header).length) ∧
      (∀ n < c.pos, ∃ e, parse (b.take n) = .error e ∧ e.cause = .truncated) ∧
      (∀ n, c.pos ≤ n → parse (b.take n) = .ok m)) := by
  refine ⟨fun m parsed s => parse_append_of_ok parsed s, fun e => parse_append_of_error, ?_⟩
  intro m parsed
  obtain ⟨c, run⟩ := parse_eq_ok_iff.mp parsed
  refine ⟨c, run, pos_le_of_read run, (encoding_of_read run).2, ?_, ?_⟩
  · intro n early
    exact (parse_take run n).1 early
  · intro n reached
    exact (parse_take run n).2 reached

end ClassFile

end Jvm
