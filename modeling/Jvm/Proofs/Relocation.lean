import Jvm.Proofs.Extension
import Mathlib.Tactic.Common

/-!
The two sections of a class file, the constant pool and the member table, read from any place of a
buffer. Bytes that are put in front of the buffer only move the place where reading stops and the place
that an error names. Wherever a section is read, reading stops right behind it, in front of the value
that was too long, or right behind a tag that is unknown.
-/

set_option autoImplicit false
set_option relaxedAutoImplicit false

namespace Jvm

namespace Cursor

/-- The same place of the buffer with bytes put in front. -/
def behind (p : Bytes) (c : Cursor) : Cursor :=
  { buffer := p.toArray ++ c.buffer, pos := p.length + c.pos }

@[simp] theorem behind_pos (p : Bytes) (c : Cursor) : (c.behind p).pos = p.length + c.pos := rfl

@[simp] theorem behind_size (p : Bytes) (c : Cursor) :
    (c.behind p).buffer.size = p.length + c.buffer.size := by
  simp [behind]

theorem ahead_behind (p : Bytes) (c : Cursor) : (c.behind p).ahead = c.ahead := by
  simp [ahead, behind]

theorem advance_behind (p : Bytes) (c : Cursor) (n : Nat) :
    (c.behind p).advance n = (c.advance n).behind p := by
  simp [advance, behind, Nat.add_assoc]

end Cursor

def ParseError.behind (p : Bytes) (e : ParseError) : ParseError :=
  { e with offset := e.offset + p.length }

def relocate {α : Type} (p : Bytes) :
    EStateM.Result ParseError Cursor α -> EStateM.Result ParseError Cursor α
  | .ok a c => .ok a (c.behind p)
  | .error e c => .error (e.behind p) (c.behind p)

/-! ## Readers with bytes put in front -/

/-- Behind some bytes the second reader does what the first one does without them. -/
def Relocates {α : Type} (p : Bytes) (r r' : Reader α) : Prop :=
  ∀ c : Cursor, r' (c.behind p) = relocate p (r c)

namespace Relocates

variable {α β : Type} {p : Bytes}

theorem pure (a : α) : Relocates p (pure a) (pure a) := fun _ => rfl

theorem throw (e : ParseError) :
    Relocates p (throw e : Reader α) (throw (e.behind p)) := fun _ => rfl

theorem get_bind {f f' : Cursor -> Reader α}
    (each : ∀ start, Relocates p (f start) (f' (start.behind p))) :
    Relocates p (get >>= f) (get >>= f') := fun c => each c c

theorem bind {r r' : Reader α} {f f' : α -> Reader β} (first : Relocates p r r')
    (second : ∀ a, Relocates p (f a) (f' a)) : Relocates p (r >>= f) (r' >>= f') := by
  intro c
  have moved := first c
  cases run : r c with
  | ok a d =>
    rw [run] at moved
    rw [Outcome.bind_of_ok run, Outcome.bind_of_ok moved]
    exact second a d
  | error e d =>
    rw [run] at moved
    rw [Outcome.bind_of_error run, Outcome.bind_of_error moved]
    rfl

theorem fixedWidth {n : Nat} {what : Bytes} {r : Reader α} {value : Bytes -> α}
    (fixed : FixedWidth n what r value) : Relocates p r r := by
  intro c
  by_cases fits : c.pos + n ≤ c.buffer.size
  · have fits' : (c.behind p).pos + n ≤ (c.behind p).buffer.size := by
      rw [Cursor.behind_pos, Cursor.behind_size]
      omega
    rw [fixed.fits c fits, fixed.fits _ fits', Cursor.ahead_behind, Cursor.advance_behind]
    rfl
  · have short : c.buffer.size < c.pos + n := Nat.lt_of_not_le fits
    have short' : (c.behind p).buffer.size < (c.behind p).pos + n := by
      rw [Cursor.behind_pos, Cursor.behind_size]
      omega
    have left : p.length + c.buffer.size - (p.length + c.pos) = c.buffer.size - c.pos := by omega
    rw [fixed.short c short, fixed.short _ short', Cursor.behind_pos, Cursor.behind_size, left]
    simp only [relocate, ParseError.behind, ParseError.truncated, Nat.cast_add, Int.add_comm]

theorem u16 (what : Bytes) : Relocates p (Cursor.u16 what) (Cursor.u16 what) :=
  .fixedWidth (.u16 what)

theorem times {r r' : Reader α} (each : Relocates p r r') (n : Nat) :
    Relocates p (Cursor.times n r) (Cursor.times n r') := by
  induction n with
  | zero => exact Relocates.pure []
  | succ n ih => exact each.bind fun a => ih.bind fun rest => Relocates.pure (a :: rest)

end Relocates

/-! ## Places that errors name -/

/-- A failure names the place where the cursor stopped: that place itself if a value was too long, and
the one before it if a tag was unknown. -/
def NamesStop {α : Type} (r : Reader α) : Prop :=
  ∀ (c d : Cursor) (e : ParseError), r c = .error e d →
    e.cause = .truncated ∧ e.offset = d.pos ∨ e.cause = .unknownTag ∧ e.offset + 1 = d.pos

namespace NamesStop

variable {α β : Type}

theorem pure (a : α) : NamesStop (pure a) := by
  intro c d e run
  cases run

theorem bind {r : Reader α} {f : α -> Reader β} (first : NamesStop r)
    (second : ∀ a, NamesStop (f a)) : NamesStop (r >>= f) := by
  intro c d e run
  cases run' : r c with
  | ok a c' =>
    rw [Outcome.bind_of_ok run'] at run
    exact second a c' d e run
  | error e' c' =>
    rw [Outcome.bind_of_error run'] at run
    cases run
    exact first c d e run'

theorem times {r : Reader α} (each : NamesStop r) (n : Nat) : NamesStop (Cursor.times n r) := by
  induction n with
  | zero => exact NamesStop.pure []
  | succ n ih => exact each.bind fun a => ih.bind fun rest => NamesStop.pure (a :: rest)

/-- A reader that reports unknown tags, if any, beyond every gap reports none. -/
theorem of_steady {r : Reader α} (steady : ∀ gap, Steady gap r) : NamesStop r := by
  intro c d e run
  cases (steady 0).longer c with
  | ok a d' run' => cases run.symm.trans run'
  | truncated what n d' run' =>
    cases run.symm.trans run'
    exact .inl ⟨rfl, rfl⟩
  | unknownTag offset tag d' run' =>
    cases (steady (offset + 1)).longer c with
    | ok a _ other => cases run'.symm.trans other
    | truncated what n _ other =>
      injection run'.symm.trans other with same
      cases congrArg ParseError.cause same
    | unknownTag offset' _ _ other above =>
      injection run'.symm.trans other with same
      have equal : offset = offset' := Int.ofNat_inj.mp (congrArg ParseError.offset same)
      omega

end NamesStop

/-! ## Sections -/

def Entry.size : Entry -> Nat
  | .unused => 0
  | .utf8 text => 3 + text.length
  | .classInfo _ | .string _ => 3
  | .fieldref _ _ | .methodref _ _ | .nameAndType _ _ => 5

def Attribute.size (a : Attribute) : Nat := 6 + a.bytes.length

def Member.size (f : Member) : Nat := 8 + (f.attributeList.map Attribute.size).sum

theorem Entry.length_encoding (e : Entry) : e.encoding.length = e.size := by
  cases e with
  | unused => rfl
  | utf8 text =>
    simp only [encoding, size, List.length_cons, List.length_append, Bytes.length_ofNat]
  | _ => simp [encoding, size]

theorem Attribute.length_encoding (a : Attribute) : a.encoding.length = a.size := by
  simp only [encoding, size, List.length_append, Bytes.length_ofUInt16, Bytes.length_ofNat]

theorem Member.length_encoding (f : Member) : f.encoding.length = f.size := by
  simp only [encoding, size, List.length_append, Bytes.length_ofUInt16, Bytes.length_ofNat,
    List.length_flatMap, Attribute.length_encoding]

/-- A section that can be read from any place of a buffer, with the number of bytes of what is read. -/
structure ReadsAnywhere {α : Type} (r : Reader α) (size : α -> Nat) : Prop where
  relocated : ∀ p b : Bytes,
    r ⟨(p ++ b).toArray, p.length⟩ = relocate p (r ⟨b.toArray, 0⟩)
  bounds : ∀ (buffer : Array UInt8) (start : Nat),
    start ≤ (stop (r ⟨buffer, start⟩)).pos ∧ (stop (r ⟨buffer, start⟩)).pos ≤ max start buffer.size
  passed : ∀ (buffer : Array UInt8) (start : Nat) (a : α) (d : Cursor),
    r ⟨buffer, start⟩ = .ok a d → d.pos = start + size a
  failed : ∀ (buffer : Array UInt8) (start : Nat) (e : ParseError) (d : Cursor),
    r ⟨buffer, start⟩ = .error e d →
      e.cause = .truncated ∧ d.pos = e.offset ∨ e.cause = .unknownTag ∧ d.pos = e.offset + 1

namespace ReadsAnywhere

variable {α β : Type}

theorem of_reads {n : Nat} {what : Bytes} {first : Reader β} {value : Bytes -> β}
    {f : β -> Reader α} {G : Grammar α} {size : α -> Nat} (fixed : FixedWidth n what first value)
    (moves : ∀ p, Relocates p (first >>= f) (first >>= f))
    (forward : Forward (first >>= f)) (reads : Reads (first >>= f) G)
    (sized : ∀ a w, G a w → w.length = size a) (names : NamesStop (first >>= f)) :
    ReadsAnywhere (first >>= f) size := by
  have beyond {buffer : Array UInt8} {start : Nat} (out : buffer.size < start) :
      ∃ e, (first >>= f) ⟨buffer, start⟩ = .error e ⟨buffer, start⟩ :=
    ⟨_, Outcome.bind_of_error (fixed.short ⟨buffer, start⟩ (Nat.lt_add_right n out)) f⟩
  refine ⟨?_, ?_, ?_, ?_⟩
  · intro p b
    have place : Cursor.behind p ⟨b.toArray, 0⟩ = ⟨(p ++ b).toArray, p.length⟩ := by
      simp [Cursor.behind]
    rw [← place]
    exact moves p ⟨b.toArray, 0⟩
  · intro buffer start
    have moved := forward ⟨buffer, start⟩
    refine ⟨moved.pos, ?_⟩
    by_cases inside : start ≤ buffer.size
    · exact (moved.inside inside).trans (Nat.le_max_right _ _)
    · obtain ⟨e, run⟩ := beyond (Nat.lt_of_not_le inside)
      rw [run]
      exact Nat.le_max_left start buffer.size
  · intro buffer start a d run
    by_cases inside : start ≤ buffer.size
    · obtain ⟨w, word, _, rfl⟩ := (reads ⟨buffer, start⟩ d a inside).mp run
      rw [Cursor.advance_pos, sized a w word]
    · obtain ⟨e, run'⟩ := beyond (Nat.lt_of_not_le inside)
      cases run.symm.trans run'
  · intro buffer start e d run
    rcases names _ _ _ run with ⟨shortage, place⟩ | ⟨unknown, place⟩
    · exact .inl ⟨shortage, place.symm⟩
    · exact .inr ⟨unknown, place.symm⟩

end ReadsAnywhere

namespace ClassFile

variable {p : Bytes}

private theorem readOperands_relocates (start : Nat) (code : UInt8) :
    Relocates p (readOperands start code) (readOperands (p.length + start) code) := by
  have word {wrap : UInt16 -> Entry} (what : Bytes) :
      Relocates p (do return wrap (<- Cursor.u16 what)) (do return wrap (<- Cursor.u16 what)) :=
    (Relocates.u16 what).bind fun _ => .pure _
  have words {wrap : UInt16 -> UInt16 -> Entry} (what what' : Bytes) :
      Relocates p (do return wrap (<- Cursor.u16 what) (<- Cursor.u16 what'))
        (do return wrap (<- Cursor.u16 what) (<- Cursor.u16 what')) :=
    (Relocates.u16 what).bind fun _ => (Relocates.u16 what').bind fun _ => .pure _
  have unknown : Relocates p (throw (.unknownTag start code) : Reader Entry)
      (throw (.unknownTag (p.length + start) code)) := by
    have same : ParseError.unknownTag (p.length + start) code =
        (ParseError.unknownTag start code).behind p := by
      simp only [ParseError.unknownTag, ParseError.behind, Nat.cast_add, Int.add_comm]
    rw [same]
    exact .throw _
  unfold readOperands
  cases Tag.ofCode? code with
  | none => exact unknown
  | some t =>
    cases t with
    | unused => exact unknown
    | utf8 =>
      exact (Relocates.u16 _).bind fun length => (Relocates.fixedWidth (.take length.toNat _)).bind
        fun _ => .pure _
    | classInfo => exact word _
    | string => exact word _
    | fieldref => exact words _ _
    | methodref => exact words _ _
    | nameAndType => exact words _ _

private theorem readPool_relocates (p : Bytes) : Relocates p readPool readPool := by
  have entry : Relocates p readEntry readEntry :=
    Relocates.get_bind fun start => (Relocates.fixedWidth (.u8 _)).bind fun code =>
      readOperands_relocates start.pos code
  exact (Relocates.u16 _).bind fun count => (entry.times (count.toNat - 1)).bind fun _ => .pure _

private theorem readMembers_relocates (p : Bytes) : Relocates p readMembers readMembers := by
  have attributes : Relocates p readAttribute readAttribute :=
    (Relocates.u16 _).bind fun _ => (Relocates.fixedWidth (.u32 _)).bind fun length =>
      (Relocates.fixedWidth (.take length.toNat _)).bind fun _ => .pure _
  have member : Relocates p readMember readMember :=
    (Relocates.u16 _).bind fun _ => (Relocates.u16 _).bind fun _ => (Relocates.u16 _).bind fun _ =>
      (Relocates.u16 _).bind fun count => (attributes.times count.toNat).bind fun _ => .pure _
  exact (Relocates.fixedWidth (.skip 10 _)).bind fun _ => (Relocates.u16 _).bind fun count =>
    member.times count.toNat

private theorem readEntry_namesStop : NamesStop readEntry := by
  intro c d e run
  rw [readEntry, Outcome.get_bind] at run
  cases read : Cursor.u8 (utf8 "constant pool tag") c with
  | error e' d' =>
    rw [Outcome.bind_of_error read] at run
    cases run
    exact NamesStop.of_steady (fun _ => .fixedWidth (.u8 _)) c d e read
  | ok code d' =>
    rw [Outcome.bind_of_ok read] at run
    rcases readOperands_steady_or_throw c.pos code with steady | ⟨_, thrown⟩
    · exact NamesStop.of_steady steady d' d e run
    · have passed : d'.pos = c.pos + 1 := (FixedWidth.u8 _).pos_of_ok read
      rw [thrown] at run
      cases run
      refine .inr ⟨rfl, ?_⟩
      rw [passed]
      rfl

private theorem readPool_namesStop : NamesStop readPool :=
  NamesStop.bind (.of_steady fun _ => Steady.u16 _) fun count =>
    (readEntry_namesStop.times (count.toNat - 1)).bind fun _ => .pure _

/-- Both sections can be read from any place: the pool has two bytes and those of its entries, the member
table twelve and those of its members. -/
theorem sections_read_anywhere :
    ReadsAnywhere readPool (fun pool => 2 + (pool.map Entry.size).sum) ∧
    ReadsAnywhere readMembers (fun members => 12 + (members.map Member.size).sum) := by
  constructor
  · refine ReadsAnywhere.of_reads (.u16 _) readPool_relocates readPool_steady.forward
      readPool_reads ?_ readPool_namesStop
    rintro pool w ⟨count, unused, _, _, rfl⟩
    obtain ⟨entries, rfl⟩ := List.head?_eq_some_iff.mp unused
    have unseen : Entry.unused.size = 0 := rfl
    simp only [List.tail_cons, List.length_append, Bytes.length_ofUInt16, List.length_flatMap,
      Entry.length_encoding, List.map_cons, List.sum_cons, unseen, Nat.zero_add]
  · refine ReadsAnywhere.of_reads (.skip 10 _) readMembers_relocates
      (readMembers_steady 0).forward readMembers_reads ?_ (.of_steady readMembers_steady)
    rintro members w ⟨header, ten, _, _, rfl⟩
    simp only [List.length_append, ten, Bytes.length_ofNat, List.length_flatMap,
      Member.length_encoding]

/-- Ten bytes and a member table with one member, which has no attributes, and a byte behind it. -/
private def oneMember : Bytes :=
  [0, 0x21, 0, 2, 0, 4, 0, 0, 0, 0] ++ [0, 1] ++ [0, 9, 0, 5, 0, 6, 0, 0] ++ [77]

/-- A pool with a Class and an unknown tag, and the same pool behind two bytes; a member table of twenty
bytes, and the same table behind three. -/
theorem sections_read_anywhere_stray :
    readPool ⟨#[0, 3, 7, 0, 1, 99], 0⟩ =
      .error (.unknownTag 5 99) ⟨#[0, 3, 7, 0, 1, 99], 6⟩ ∧
    readPool ⟨#[8, 8, 0, 3, 7, 0, 1, 99], 2⟩ =
      .error (.unknownTag 7 99) ⟨#[8, 8, 0, 3, 7, 0, 1, 99], 8⟩ ∧
    readMembers ⟨oneMember.toArray, 0⟩ = .ok [⟨9, 5, 6, some []⟩] ⟨oneMember.toArray, 20⟩ ∧
    readMembers ⟨([8, 8, 8] ++ oneMember).toArray, 3⟩ =
      .ok [⟨9, 5, 6, some []⟩] ⟨([8, 8, 8] ++ oneMember).toArray, 23⟩ := by
  have pool : readPool ⟨#[0, 3, 7, 0, 1, 99], 0⟩ =
      .error (.unknownTag 5 99) ⟨#[0, 3, 7, 0, 1, 99], 6⟩ := rfl
  have table : readMembers ⟨oneMember.toArray, 0⟩ =
      .ok [⟨9, 5, 6, some []⟩] ⟨oneMember.toArray, 20⟩ := rfl
  refine ⟨pool, (sections_read_anywhere.1.relocated [8, 8] [0, 3, 7, 0, 1, 99]).trans ?_,
    table, (sections_read_anywhere.2.relocated [8, 8, 8] oneMember).trans ?_⟩
  · rw [pool]
    rfl
  · rw [table]
    rfl

end ClassFile

end Jvm
