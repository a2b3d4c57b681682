import Jvm.ClassFile.Parser
import Jvm.Proofs.Reading
import Mathlib.Tactic.Common

/-!
The format of class files, and that decoding accepts exactly this format. The format is given by
encodings of entries, attributes, members and whole files. Each of them has one form, up to the
bytes of a file that are not looked at and to a pool count of zero, which means the same as one.
-/

set_option autoImplicit false
set_option relaxedAutoImplicit false

namespace Jvm

/-! ## Entries -/

namespace Tag

theorem ofCode?_eq_some_iff {code : UInt8} {t : Tag} : ofCode? code = some t ↔ code = t.code := by
  constructor
  · intro known
    unfold ofCode? at known
    split_ifs at known <;> cases known <;> assumption
  · rintro rfl
    exact ofCode?_code t

end Tag

namespace Entry

/-- The bytes of an entry: its tag, then a text behind its length, or one or two pool indices. The
unused slot has none. -/
def encoding : Entry -> Bytes
  | .unused => []
  | .utf8 text => 1 :: Bytes.ofNat 2 text.length ++ text
  | .classInfo name => 7 :: Bytes.ofUInt16 name
  | .string text => 8 :: Bytes.ofUInt16 text
  | .fieldref owner pair => 9 :: Bytes.ofUInt16 owner ++ Bytes.ofUInt16 pair
  | .methodref owner pair => 10 :: Bytes.ofUInt16 owner ++ Bytes.ofUInt16 pair
  | .nameAndType name descriptor => 12 :: Bytes.ofUInt16 name ++ Bytes.ofUInt16 descriptor

/-- Whether a file can hold the entry: the unused slot has no form in a file, and the length of a
text is written in 16 bits. -/
def Fits : Entry -> Prop
  | .unused => False
  | .utf8 text => text.length < 2 ^ 16
  | _ => True

private theorem encoding_eq_cons {e : Entry} (fits : e.Fits) :
    e.encoding = e.tag.code :: e.encoding.tail := by
  cases e with
  | unused => exact fits.elim
  | _ => rfl

end Entry

namespace Reads

private def operandsOf (t : Tag) : Grammar Entry := fun e w => e.Fits ∧ e.tag = t ∧ w = e.encoding.tail

private theorem oneWord {t : Tag} {wrap : UInt16 -> Entry} (what : Bytes)
    (only : ∀ e, e.tag = t ↔ ∃ n, e = wrap n) (fits : ∀ n, (wrap n).Fits)
    (operands : ∀ n, (wrap n).encoding.tail = Bytes.ofUInt16 n) :
    Reads (do return wrap (<- Cursor.u16 what)) (operandsOf t) := by
  refine (Reads.bind (Reads.u16 what) fun n => Reads.pure (wrap n)).congr ?_
  intro e w
  constructor
  · rintro ⟨n, _, _, rfl, ⟨rfl, rfl⟩, rfl⟩
    refine ⟨fits n, (only _).mpr ⟨n, rfl⟩, ?_⟩
    rw [operands, List.append_nil]
  · rintro ⟨_, tagged, rfl⟩
    obtain ⟨n, rfl⟩ := (only e).mp tagged
    refine ⟨n, _, [], rfl, ⟨rfl, rfl⟩, ?_⟩
    rw [operands, List.append_nil]

private theorem twoWords {t : Tag} {wrap : UInt16 -> UInt16 -> Entry} (what what' : Bytes)
    (only : ∀ e, e.tag = t ↔ ∃ m n, e = wrap m n) (fits : ∀ m n, (wrap m n).Fits)
    (operands : ∀ m n, (wrap m n).encoding.tail = Bytes.ofUInt16 m ++ Bytes.ofUInt16 n) :
    Reads (do return wrap (<- Cursor.u16 what) (<- Cursor.u16 what')) (operandsOf t) := by
  refine (Reads.bind (Reads.u16 what) fun m => Reads.bind (Reads.u16 what') fun n =>
    Reads.pure (wrap m n)).congr ?_
  intro e w
  constructor
  · rintro ⟨m, _, _, rfl, ⟨n, _, _, rfl, ⟨rfl, rfl⟩, rfl⟩, rfl⟩
    refine ⟨fits m n, (only _).mpr ⟨m, n, rfl⟩, ?_⟩
    rw [operands, List.append_nil]
  · rintro ⟨_, tagged, rfl⟩
    obtain ⟨m, n, rfl⟩ := (only e).mp tagged
    refine ⟨m, _, _, rfl, ⟨n, _, [], rfl, ⟨rfl, rfl⟩, rfl⟩, ?_⟩
    rw [operands, List.append_nil]

private theorem countedText (what what' : Bytes) :
    Reads (do
      let length <- Cursor.u16 what
      let text <- Cursor.take length.toNat what'
      return Entry.utf8 text) (operandsOf .utf8) := by
  refine (Reads.bind (Reads.u16 what) fun length => Reads.bind (Reads.take length.toNat what')
    fun text => Reads.pure (Entry.utf8 text)).congr ?_
  intro e w
  constructor
  · rintro ⟨length, _, _, rfl, ⟨_, text, _, ⟨count, rfl⟩, ⟨rfl, rfl⟩, rfl⟩, rfl⟩
    have fits : text.length < 2 ^ 16 := by
      rw [count]
      exact length.toNat_lt
    refine ⟨fits, rfl, ?_⟩
    rw [Bytes.ofUInt16_eq_ofNat count.symm, List.append_nil]
    rfl
  · rintro ⟨fits, tagged, rfl⟩
    cases e with
    | utf8 text =>
      have count : text.length.toUInt16.toNat = text.length := UInt16.toNat_ofNat_of_lt' fits
      refine ⟨_, _, _, rfl, ⟨text, _, [], ⟨count.symm, rfl⟩, ⟨rfl, rfl⟩, rfl⟩, ?_⟩
      rw [Bytes.ofUInt16_eq_ofNat count, List.append_nil]
      rfl
    | _ => cases tagged

end Reads

namespace ClassFile

theorem readOperands_reads (start : Nat) (code : UInt8) :
    Reads (readOperands start code) fun e w => e.Fits ∧ e.tag.code = code ∧ w = e.encoding.tail := by
  -- A byte that marks a kind leaves the entries of this kind.
  have ofKind {t : Tag} {r : Reader Entry} (known : Tag.ofCode? code = some t)
      (reads : Reads r (Reads.operandsOf t)) :
      Reads r fun e w => e.Fits ∧ e.tag.code = code ∧ w = e.encoding.tail := by
    refine reads.congr ?_
    intro e w
    have same : e.tag = t ↔ e.tag.code = code := by
      rw [eq_comm (b := code), ← Tag.ofCode?_eq_some_iff, known, Option.some_inj, eq_comm]
    rw [Reads.operandsOf, same]
  -- Any other byte leaves none, and neither does the byte of the unused slot.
  have refused (unknown : ∀ t, Tag.ofCode? code = some t → t = .unused) :
      Reads (throw (.unknownTag start code)) fun e w =>
        Entry.Fits e ∧ e.tag.code = code ∧ w = e.encoding.tail := by
    refine (Reads.throw _).congr ?_
    intro e w
    refine ⟨False.elim, ?_⟩
    rintro ⟨fits, tagged, _⟩
    have unused := unknown e.tag (Tag.ofCode?_eq_some_iff.mpr tagged.symm)
    cases e with
    | unused => exact fits
    | _ => cases unused
  unfold readOperands
  split
  next known => exact ofKind known (Reads.countedText _ _)
  next known =>
    refine ofKind known (Reads.oneWord _ ?_ (fun _ => trivial) fun _ => rfl)
    intro e
    cases e <;> simp [Entry.tag]
  next known =>
    refine ofKind known (Reads.oneWord _ ?_ (fun _ => trivial) fun _ => rfl)
    intro e
    cases e <;> simp [Entry.tag]
  next known =>
    refine ofKind known (Reads.twoWords _ _ ?_ (fun _ _ => trivial) fun _ _ => rfl)
    intro e
    cases e <;> simp [Entry.tag]
  next known =>
    refine ofKind known (Reads.twoWords _ _ ?_ (fun _ _ => trivial) fun _ _ => rfl)
    intro e
    cases e <;> simp [Entry.tag]
  next known =>
    refine ofKind known (Reads.twoWords _ _ ?_ (fun _ _ => trivial) fun _ _ => rfl)
    intro e
    cases e <;> simp [Entry.tag]
  next known =>
    apply refused
    intro t marked
    exact (Option.some_inj.mp (known.symm.trans marked)).symm
  next unknown =>
    apply refused
    intro t marked
    cases unknown.symm.trans marked

theorem readEntry_reads : Reads readEntry (Reads.spelling Entry.Fits Entry.encoding) := by
  refine (Reads.get_bind fun start => Reads.bind (Reads.u8 (utf8 "constant pool tag")) fun code =>
    readOperands_reads start.pos code).congr ?_
  intro e w
  constructor
  · rintro ⟨code, _, _, rfl, ⟨fits, rfl, rfl⟩, rfl⟩
    exact ⟨fits, (Entry.encoding_eq_cons fits).symm⟩
  · rintro ⟨fits, rfl⟩
    exact ⟨e.tag.code, _, _, rfl, ⟨fits, rfl, rfl⟩, Entry.encoding_eq_cons fits⟩

end ClassFile

/-! ## Members -/

namespace Attribute

def encoding (a : Attribute) : Bytes :=
  Bytes.ofUInt16 a.name ++ Bytes.ofNat 4 a.bytes.length ++ a.bytes

/-- Whether a file can hold the attribute: its data is there, and has a length of 32 bits. -/
def Fits (a : Attribute) : Prop := a.data.isSome ∧ a.bytes.length < 2 ^ 32

end Attribute

namespace Member

def encoding (f : Member) : Bytes :=
  Bytes.ofUInt16 f.access ++ Bytes.ofUInt16 f.name ++ Bytes.ofUInt16 f.descriptor
    ++ Bytes.ofNat 2 f.attributeList.length ++ f.attributeList.flatMap Attribute.encoding

/-- Whether a file can hold the member: its attribute list is there, has a length of 16 bits, and
every attribute of it fits. -/
def Fits (f : Member) : Prop :=
  f.attributes.isSome ∧ f.attributeList.length < 2 ^ 16 ∧ ∀ a ∈ f.attributeList, a.Fits

end Member

namespace ClassFile

theorem readAttribute_reads :
    Reads readAttribute (Reads.spelling Attribute.Fits Attribute.encoding) := by
  refine (Reads.bind (Reads.u16 _) fun name => Reads.bind (Reads.u32 _) fun length =>
    Reads.bind (Reads.take length.toNat _) fun data =>
      Reads.pure (Attribute.mk name (some data))).congr ?_
  intro a w
  constructor
  · rintro ⟨name, _, _, rfl, ⟨length, _, _, rfl, ⟨_, data, _, ⟨count, rfl⟩, ⟨rfl, rfl⟩, rfl⟩, rfl⟩, rfl⟩
    have fits : data.length < 2 ^ 32 := by
      rw [count]
      exact length.toNat_lt
    refine ⟨⟨rfl, fits⟩, ?_⟩
    rw [Bytes.ofUInt32_eq_ofNat count.symm, List.append_nil, ← List.append_assoc]
    rfl
  · rintro ⟨⟨present, fits⟩, rfl⟩
    obtain ⟨name, _ | data⟩ := a
    · cases present
    · have count : data.length.toUInt32.toNat = data.length := UInt32.toNat_ofNat_of_lt' fits
      refine ⟨name, _, _, rfl, ⟨_, _, _, rfl, ⟨data, _, [], ⟨count.symm, rfl⟩, ⟨rfl, rfl⟩, rfl⟩, rfl⟩, ?_⟩
      rw [Bytes.ofUInt32_eq_ofNat count, List.append_nil, ← List.append_assoc]
      rfl

theorem readMember_reads : Reads readMember (Reads.spelling Member.Fits Member.encoding) := by
  refine (Reads.bind (Reads.u16 _) fun access => Reads.bind (Reads.u16 _) fun name =>
    Reads.bind (Reads.u16 _) fun descriptor => Reads.bind (Reads.u16 _) fun count =>
      Reads.bind (readAttribute_reads.times count.toNat) fun attributes =>
        Reads.pure (Member.mk access name descriptor (some attributes))).congr ?_
  intro f w
  constructor
  · rintro ⟨access, _, _, rfl, ⟨name, _, _, rfl, ⟨descriptor, _, _, rfl, ⟨count, _, _, rfl,
      ⟨attributes, _, _, ⟨length, each, rfl⟩, ⟨rfl, rfl⟩, rfl⟩, rfl⟩, rfl⟩, rfl⟩, rfl⟩
    have fits : attributes.length < 2 ^ 16 := by
      rw [length]
      exact count.toNat_lt
    refine ⟨⟨rfl, fits, each⟩, ?_⟩
    rw [Bytes.ofUInt16_eq_ofNat length.symm, List.append_nil]
    simp only [Member.encoding, Member.attributeList, Option.getD_some, List.append_assoc]
  · rintro ⟨⟨present, fits, each⟩, rfl⟩
    obtain ⟨access, name, descriptor, _ | attributes⟩ := f
    · cases present
    · have length : attributes.length.toUInt16.toNat = attributes.length :=
        UInt16.toNat_ofNat_of_lt' fits
      refine ⟨access, _, _, rfl, ⟨name, _, _, rfl, ⟨descriptor, _, _, rfl, ⟨_, _, _, rfl,
        ⟨attributes, _, [], ⟨length.symm, each, rfl⟩, ⟨rfl, rfl⟩, rfl⟩, rfl⟩, rfl⟩, rfl⟩, ?_⟩
      rw [Bytes.ofUInt16_eq_ofNat length, List.append_nil]
      simp only [Member.encoding, Member.attributeList, Option.getD_some, List.append_assoc]

end ClassFile

/-! ## Files -/

/-- What a file holds besides its class: the four bytes in front, the pool count as it is written,
the ten bytes of class header and the bytes behind the member table. -/
structure Surroundings where
  magic : Bytes
  count : UInt16
  header : Bytes
  tail : Bytes
  magic_length : magic.length = 4
  header_length : header.length = 10

namespace ClassFile

/-- The number of entries that a pool count announces; a count of zero announces none. -/
def entriesOf (count : UInt16) : Nat := count.toNat - 1

/-- Whether a file can hold the class: the pool starts with the unused slot, everything else in it
and in the member table fits, and both have lengths of 16 bits. -/
structure Representable (m : ClassFile) : Prop where
  unused : m.pool.head? = some .unused
  pool : m.pool.length < 2 ^ 16
  entries : ∀ e ∈ m.pool.tail, e.Fits
  table : m.members.length < 2 ^ 16
  members : ∀ f ∈ m.members, f.Fits

def body (m : ClassFile) (count : UInt16) (header : Bytes) : Bytes :=
  Bytes.ofUInt16 m.minor ++ Bytes.ofUInt16 m.major ++ Bytes.ofUInt16 count
    ++ m.pool.tail.flatMap Entry.encoding ++ header ++ Bytes.ofNat 2 m.members.length
    ++ m.members.flatMap Member.encoding

def encoding (m : ClassFile) (s : Surroundings) : Bytes :=
  s.magic ++ m.body s.count s.header ++ s.tail

theorem readPool_reads :
    Reads readPool fun pool w => ∃ count, pool.head? = some .unused ∧
      pool.length = entriesOf count + 1 ∧ (∀ e ∈ pool.tail, e.Fits) ∧
      w = Bytes.ofUInt16 count ++ pool.tail.flatMap Entry.encoding := by
  refine (Reads.bind (Reads.u16 _) fun count => Reads.bind (readEntry_reads.times (entriesOf count))
    fun entries => Reads.pure (Entry.unused :: entries)).congr ?_
  intro pool w
  constructor
  · rintro ⟨count, _, _, rfl, ⟨entries, _, _, ⟨length, each, rfl⟩, ⟨rfl, rfl⟩, rfl⟩, rfl⟩
    refine ⟨count, rfl, congrArg (· + 1) length, each, ?_⟩
    rw [List.append_nil]
    rfl
  · rintro ⟨count, unused, length, each, rfl⟩
    obtain ⟨entries, rfl⟩ := List.head?_eq_some_iff.mp unused
    have shorter : entries.length = entriesOf count := by simpa using length
    refine ⟨count, _, _, rfl, ⟨entries, _, [], ⟨shorter, each, rfl⟩, ⟨rfl, rfl⟩, rfl⟩, ?_⟩
    rw [List.append_nil]
    rfl

theorem readMembers_reads :
    Reads readMembers fun members w => ∃ header : Bytes, header.length = 10 ∧
      members.length < 2 ^ 16 ∧ (∀ f ∈ members, f.Fits) ∧
      w = header ++ Bytes.ofNat 2 members.length ++ members.flatMap Member.encoding := by
  refine (Reads.bind (Reads.skip 10 _) fun _ => Reads.bind (Reads.u16 _) fun count =>
    readMember_reads.times count.toNat).congr ?_
  intro members w
  constructor
  · rintro ⟨_, header, _, ten, ⟨count, _, _, rfl, ⟨length, each, rfl⟩, rfl⟩, rfl⟩
    refine ⟨header, ten, ?_, each, ?_⟩
    · rw [length]
      exact count.toNat_lt
    · rw [Bytes.ofUInt16_eq_ofNat length.symm, List.append_assoc]
  · rintro ⟨header, ten, fits, each, rfl⟩
    have length : members.length.toUInt16.toNat = members.length := UInt16.toNat_ofNat_of_lt' fits
    refine ⟨(), header, _, ten, ⟨_, _, _, rfl, ⟨length.symm, each, rfl⟩, rfl⟩, ?_⟩
    rw [Bytes.ofUInt16_eq_ofNat length, List.append_assoc]

theorem read_reads :
    Reads read fun m w => m.Representable ∧ ∃ (count : UInt16) (header : Bytes),
      header.length = 10 ∧ m.pool.length = entriesOf count + 1 ∧ w = m.body count header := by
  refine (Reads.bind (Reads.u16 _) fun minor => Reads.bind (Reads.u16 _) fun major =>
    Reads.bind readPool_reads fun pool => Reads.bind readMembers_reads fun members =>
      Reads.pure (ClassFile.mk minor major pool members)).congr ?_
  intro m w
  constructor
  · rintro ⟨minor, _, _, rfl, ⟨major, _, _, rfl, ⟨pool, _, _, ⟨count, unused, length, entries, rfl⟩,
      ⟨members, _, _, ⟨header, ten, table, each, rfl⟩, ⟨rfl, rfl⟩, rfl⟩, rfl⟩, rfl⟩, rfl⟩
    have short : pool.length < 2 ^ 16 := by
      have bound := count.toNat_lt
      rw [length, entriesOf]
      omega
    refine ⟨⟨unused, short, entries, table, each⟩, count, header, ten, length, ?_⟩
    simp only [body, List.append_assoc, List.append_nil]
  · rintro ⟨⟨unused, _, entries, table, each⟩, count, header, ten, length, rfl⟩
    refine ⟨m.minor, _, _, rfl, ⟨m.major, _, _, rfl, ⟨m.pool, _, _,
      ⟨count, unused, length, entries, rfl⟩, ⟨m.members, _, [], ⟨header, ten, table, each, rfl⟩,
        ⟨rfl, rfl⟩, rfl⟩, rfl⟩, rfl⟩, ?_⟩
    simp only [body, List.append_assoc, List.append_nil]

def versions (b : Bytes) : Cursor := { buffer := b.toArray, pos := 4 }

@[simp] theorem versions_size (b : Bytes) : (versions b).buffer.size = b.length := by
  simp [versions]

theorem parse_eq_ok_iff {b : Bytes} {m : ClassFile} :
    parse b = .ok m ↔ ∃ c, read (versions b) = .ok m c := by
  unfold parse versions
  cases read { buffer := b.toArray, pos := 4 } with
  | ok m' c => simp
  | error e c => simp

theorem parse_encoding {m : ClassFile} {s : Surroundings} (fits : m.Representable)
    (length : m.pool.length = entriesOf s.count + 1) : parse (m.encoding s) = .ok m := by
  have inside : (versions (m.encoding s)).pos ≤ (versions (m.encoding s)).buffer.size := by
    rw [versions_size, encoding, List.append_assoc, List.length_append, s.magic_length]
    exact Nat.le_add_right 4 _
  have ahead : m.body s.count s.header <+: (versions (m.encoding s)).ahead := by
    refine ⟨s.tail, ?_⟩
    rw [Cursor.ahead, encoding, List.append_assoc]
    exact (List.drop_left' s.magic_length).symm
  exact parse_eq_ok_iff.mpr ⟨_, (read_reads _ _ m inside).mpr
    ⟨_, ⟨fits, s.count, s.header, s.header_length, length, rfl⟩, ahead, rfl⟩⟩

theorem parse_eq_error_iff {b : Bytes} {e : ParseError} :
    parse b = .error e ↔ ∃ c, read (versions b) = .error e c := by
  unfold parse versions
  cases read { buffer := b.toArray, pos := 4 } with
  | ok m' c => simp
  | error e' c => simp

theorem read_of_short {c : Cursor} (short : c.buffer.size < c.pos + 2) :
    read c = .error (.truncated c.pos (utf8 "minor version") 2 (c.buffer.size - c.pos)) c := by
  have first : Cursor.u16 (utf8 "minor version") c =
      .error (.truncated c.pos (utf8 "minor version") 2 (c.buffer.size - c.pos)) c :=
    Outcome.bind_of_error (Cursor.take_of_short _ short) _
  exact Outcome.bind_of_error first _

theorem no_room {b : Bytes} (room : ¬ 4 ≤ b.length) :
    (versions b).buffer.size < (versions b).pos + 2 := by
  rw [versions_size]
  exact Nat.lt_of_lt_of_le (Nat.lt_of_not_le room) (Nat.le_add_right 4 2)

/-- What is decoded from a file is encoded there, and decoding stops behind the member table. -/
theorem encoding_of_read {b : Bytes} {m : ClassFile} {c : Cursor}
    (run : read (versions b) = .ok m c) :
    m.Representable ∧ ∃ s : Surroundings, m.pool.length = entriesOf s.count + 1 ∧ b = m.encoding s ∧
      c.pos = 4 + (m.body s.count s.header).length := by
  by_cases room : 4 ≤ b.length
  · have inside : (versions b).pos ≤ (versions b).buffer.size := by
      rw [versions_size]
      exact room
    obtain ⟨_, ⟨fits, count, header, ten, length, rfl⟩, ⟨tail, ahead⟩, rfl⟩ :=
      (read_reads (versions b) c m inside).mp run
    have four : (b.take 4).length = 4 := by simpa using room
    refine ⟨fits, ⟨b.take 4, count, header, tail, four, ten⟩, length, ?_, rfl⟩
    rw [encoding, List.append_assoc, ahead]
    exact (List.take_append_drop 4 b).symm
  · rw [read_of_short (no_room room)] at run
    cases run

theorem representable_of_parse {b : Bytes} {m : ClassFile} (parsed : parse b = .ok m) :
    m.Representable := by
  obtain ⟨c, run⟩ := parse_eq_ok_iff.mp parsed
  exact (encoding_of_read run).1

/-- Decoding succeeds with a class exactly on the encodings of the class: the format is accepted
whole, nothing beside it is, and every class that a file can hold has an encoding. -/
theorem parse_accepts_exactly_encodings (m : ClassFile) :
    (∀ b : Bytes, parse b = .ok m ↔ m.Representable ∧
      ∃ s : Surroundings, m.pool.length = entriesOf s.count + 1 ∧ b = m.encoding s) ∧
    (m.Representable → ∃ s : Surroundings, m.pool.length = entriesOf s.count + 1) := by
  constructor
  · intro b
    constructor
    · intro parsed
      obtain ⟨c, run⟩ := parse_eq_ok_iff.mp parsed
      obtain ⟨fits, s, length, encoded, _⟩ := encoding_of_read run
      exact ⟨fits, s, length, encoded⟩
    · rintro ⟨fits, s, length, rfl⟩
      exact parse_encoding fits length
  · intro fits
    have nonempty : 0 < m.pool.length := by
      obtain ⟨rest, pool⟩ := List.head?_eq_some_iff.mp fits.unused
      rw [pool]
      exact Nat.succ_pos _
    have same : m.pool.length.toUInt16.toNat = m.pool.length := UInt16.toNat_ofNat_of_lt' fits.pool
    refine ⟨⟨List.replicate 4 0, m.pool.length.toUInt16, List.replicate 10 0, [], rfl, rfl⟩, ?_⟩
    rw [entriesOf, same]
    omega

end ClassFile

end Jvm
