import Jvm.Proofs.Listing
import Jvm.Proofs.Numerals
import Jvm.Proofs.Words
import Mathlib.Data.List.Basic
import Mathlib.Tactic.Common

/-!
A listing covers the code once and loses nothing. Its lines stand one behind the other from the start
of the code to its end, so that every position belongs to one line, and the text of a line gives back
the line: the position ends at the first colon, the name of the instruction at the first space behind
it, and in front of a comment an operand is a numeral. Listings that look alike are therefore listings
of the same code, whatever the class files are that their comments come from.
-/

set_option autoImplicit false
set_option relaxedAutoImplicit false

namespace Jvm

/-! ## The names of instructions -/

namespace Opcode

theorem name_injective {op op' : Opcode} (same : op.name = op'.name) : op = op' := by
  have found (op : Opcode) : all.find? (·.name = op.name) = some op := by
    cases op <;> decide
  apply Option.some.inj
  rw [← found op, same, found]

theorem space_notMem_name (op : Opcode) : (32 : UInt8) ∉ op.name := by
  cases op <;> decide

theorem name_ne_byte (op : Opcode) : op.name ≠ utf8 ".byte" := by
  cases op <;> decide

end Opcode

namespace Disassembly

/-! ## The bytes of lines -/

def Line.bytes (l : Line) : Bytes :=
  match l.content with
  | .byte b => [b]
  | .instruction op operands => op.byte :: operands

def coveredBytes (payload : Bytes) : Bytes := (payload.take (codeEnd payload)).drop codeStart

def Line.Covers (l : Line) (i : Nat) : Prop := l.pc ≤ i ∧ i < l.pc + l.width

theorem Line.width_pos (l : Line) : 0 < l.width := by
  unfold width
  split
  · decide
  · exact Opcode.width_pos _

theorem Line.Reads.bytes_eq {payload : Bytes} {stop : Nat} {l : Line}
    (reads : l.Reads payload stop) (fits : l.pc + l.width ≤ stop) :
    l.bytes = ((payload.take stop).drop l.pc).take l.width := by
  rw [List.drop_take, List.take_take, Nat.min_eq_left (by omega)]
  have split {pc : Nat} {b : UInt8} (here : payload[pc]? = some b) (n : Nat) :
      (payload.drop pc).take (n + 1) = b :: (payload.drop (pc + 1)).take n := by
    obtain ⟨inside, rfl⟩ := List.getElem?_eq_some_iff.mp here
    rw [List.drop_eq_getElem_cons inside, List.take_succ_cons]
  cases reads with
  | byte here misfits => exact (split here 0).symm
  | @instruction pc op here fits =>
    obtain ⟨n, width⟩ := Nat.exists_eq_succ_of_ne_zero op.width_pos.ne'
    have behind : op.width - 1 = n := by omega
    simp only [bytes, Line.width, behind]
    rw [width]
    exact (split here n).symm

namespace Sweep

variable {payload : Bytes} {stop pc : Nat} {ls : List Line} {l : Line}

theorem pc_le (sweep : Sweep payload stop pc ls) : pc ≤ stop := by
  induction sweep with
  | done => exact Nat.le_refl _
  | line reads later ih => omega

theorem end_le (sweep : Sweep payload stop pc ls) (listed : l ∈ ls) : l.pc + l.width ≤ stop := by
  induction sweep with
  | done => cases listed
  | line reads later ih =>
    rcases List.mem_cons.mp listed with rfl | listed
    · exact later.pc_le
    · exact ih listed

theorem last_end (sweep : Sweep payload stop pc ls) (last : ls.getLast? = some l) :
    l.pc + l.width = stop := by
  induction sweep with
  | done => cases last
  | @line l' rest reads later ih =>
    cases rest with
    | nil =>
      obtain rfl : l' = l := Option.some.inj last
      exact later.first_pc.symm
    | cons next rest =>
      rw [List.getLast?_cons_cons] at last
      exact ih last

theorem length_le (sweep : Sweep payload stop pc ls) : ls.length + pc ≤ stop := by
  induction sweep with
  | done => simp
  | @line l rest reads later ih =>
    have positive := l.width_pos
    rw [List.length_cons]
    omega

theorem flatMap_bytes (sweep : Sweep payload stop pc ls) :
    ls.flatMap Line.bytes = (payload.take stop).drop pc := by
  induction sweep with
  | done => exact (List.drop_eq_nil_of_le (List.length_take_le _ _)).symm
  | @line l rest reads later ih =>
    rw [List.flatMap_cons, reads.bytes_eq later.pc_le, ih, ← List.drop_drop]
    exact List.take_append_drop _ _

theorem covers_once {i : Nat} (sweep : Sweep payload stop pc ls) (low : pc ≤ i) (high : i < stop) :
    ∃! k : Nat, ∃ l, ls[k]? = some l ∧ l.Covers i := by
  induction sweep with
  | done => omega
  | @line l rest reads later ih =>
    rcases Nat.lt_or_ge i (l.pc + l.width) with inside | behind
    · refine ⟨0, ⟨l, rfl, low, inside⟩, ?_⟩
      rintro (_ | k) ⟨l', present, covers⟩
      · rfl
      · have after := (later.reads (List.mem_of_getElem? present)).2
        have before := covers.1
        omega
    · obtain ⟨k, covered, unique⟩ := ih behind
      refine ⟨k + 1, covered, ?_⟩
      rintro (_ | j) ⟨l', present, covers⟩
      · obtain rfl := Option.some.inj present
        have before := covers.2
        omega
      · exact congrArg (· + 1) (unique j ⟨l', present, covers⟩)

end Sweep

/-! ## Reading a line back from its text -/

theorem position_append_inj {pc pc' : Nat} {rest rest' : Bytes}
    (same : position pc ++ rest = position pc' ++ rest') : pc = pc' ∧ rest = rest' := by
  have colon (pc : Nat) : (58 : UInt8) ∉ Bytes.padLeft 4 32 (Bytes.nat pc) := by
    intro member
    rcases List.mem_append.mp member with space | digit
    · exact absurd (List.eq_of_mem_replicate space) (by decide)
    · exact Bytes.notMem_nat (by decide) digit
  have split (pc : Nat) (rest : Bytes) :
      position pc ++ rest = Bytes.padLeft 4 32 (Bytes.nat pc) ++ 58 :: 32 :: rest :=
    List.append_assoc _ _ _
  rw [split, split] at same
  obtain ⟨numerals, rests⟩ := Bytes.split_unique (colon pc) (colon pc') same
  exact ⟨Bytes.padLeft_nat_injective numerals, (List.cons.inj rests).2⟩

/-- The index of a reference can be read without knowing whether there is a comment. -/
theorem reference_injective {index index' : UInt16} {comment comment' : Option Bytes}
    (same : reference index comment = reference index' comment') : index = index' := by
  have space (index : UInt16) : (32 : UInt8) ∉ Bytes.nat index.toNat := Bytes.notMem_nat (by decide)
  have word (index : UInt16) (comment : Option Bytes) :
      ∃ rest, reference index comment = utf8 "#" ++ (Bytes.nat index.toNat ++ rest) ∧
        (rest = [] ∨ rest.head? = some 32) := by
    cases comment with
    | none => exact ⟨[], List.append_assoc _ _ _, .inl rfl⟩
    | some text => exact ⟨utf8 " // " ++ text, List.append_assoc _ _ _, .inr rfl⟩
  obtain ⟨rest, text, ends⟩ := word index comment
  obtain ⟨rest', text', ends'⟩ := word index' comment'
  rw [text, text'] at same
  have numerals := Bytes.word_unique (space index) (space index') ends ends'
    (List.append_cancel_left same)
  exact UInt16.toNat_inj.mp (Bytes.nat_injective numerals.1)

theorem signed_injective {n n' : UInt8} (same : n.toInt8.toInt = n'.toInt8.toInt) : n = n' := by
  rw [← UInt8.toUInt8_toInt8 n, Int8.toInt_inj.mp same, UInt8.toUInt8_toInt8]

theorem bigEndian_pair_injective {x y x' y' : UInt8}
    (same : (Bytes.bigEndian [x, y]).toUInt16 = (Bytes.bigEndian [x', y']).toUInt16) :
    [x, y] = [x', y'] := by
  rw [← Bytes.ofUInt16_toUInt16_bigEndian (b := [x, y]) rfl, same]
  exact Bytes.ofUInt16_toUInt16_bigEndian rfl

theorem operandText_injective {c c' : ClassFile} {pc : Nat} {op : Opcode} {operands operands' : Bytes}
    (whole : operands.length = op.width - 1) (whole' : operands'.length = op.width - 1)
    (same : operandText c pc op.layout operands = operandText c' pc op.layout operands') :
    operands = operands' := by
  unfold Opcode.width at whole whole'
  cases layout : op.layout <;> rw [layout] at whole whole' same
  case plain =>
    rw [List.length_eq_zero_iff.mp whole, List.length_eq_zero_iff.mp whole']
  case immediate =>
    obtain ⟨n, rfl⟩ := List.length_eq_one_iff.mp whole
    obtain ⟨n', rfl⟩ := List.length_eq_one_iff.mp whole'
    rw [signed_injective (Bytes.int_injective same)]
  case poolIndex8 =>
    obtain ⟨n, rfl⟩ := List.length_eq_one_iff.mp whole
    obtain ⟨n', rfl⟩ := List.length_eq_one_iff.mp whole'
    rw [UInt8.toUInt16_inj.mp (reference_injective same)]
  case poolIndex16 =>
    obtain ⟨high, low, rfl⟩ := List.length_eq_two.mp whole
    obtain ⟨high', low', rfl⟩ := List.length_eq_two.mp whole'
    exact bigEndian_pair_injective (reference_injective same)
  case slotAndDelta =>
    obtain ⟨slot, delta, rfl⟩ := List.length_eq_two.mp whole
    obtain ⟨slot', delta', rfl⟩ := List.length_eq_two.mp whole'
    obtain ⟨slots, deltas⟩ := Bytes.nat_comma_int_injective same
    rw [UInt8.toNat_inj.mp slots, signed_injective deltas]
  case branch =>
    obtain ⟨high, low, rfl⟩ := List.length_eq_two.mp whole
    obtain ⟨high', low', rfl⟩ := List.length_eq_two.mp whole'
    have distances := Int16.toInt_inj.mp (Int.add_left_cancel (Bytes.int_injective same))
    apply bigEndian_pair_injective
    rw [← UInt16.toUInt16_toInt16 (Bytes.bigEndian [high, low]).toUInt16, distances,
      UInt16.toUInt16_toInt16]

def Content.word : Content -> Bytes
  | .byte _ => utf8 ".byte"
  | .instruction op _ => op.name

theorem Content.space_notMem_word (content : Content) : (32 : UInt8) ∉ content.word := by
  cases content with
  | byte b =>
    have clean : (32 : UInt8) ∉ utf8 ".byte" := by decide
    exact clean
  | instruction op operands => exact op.space_notMem_name

theorem text_word (c : ClassFile) (l : Line) :
    ∃ rest, l.text c = position l.pc ++ (l.content.word ++ rest) ∧
      (rest = [] ∨ rest.head? = some 32) := by
  obtain ⟨pc, content⟩ := l
  cases content with
  | byte b => exact ⟨utf8 " 0x" ++ Bytes.hex 2 b.toNat, text_byte c pc b, .inr rfl⟩
  | instruction op operands =>
    obtain ⟨rest, text, ends⟩ := text_named c pc op operands
    rw [mnemonic, Opcode.ofByte?_byte, List.append_assoc] at text
    exact ⟨rest, text, ends⟩

theorem pc_and_word_of_text {c c' : ClassFile} {l l' : Line} (same : l.text c = l'.text c') :
    l.pc = l'.pc ∧ l.content.word = l'.content.word := by
  obtain ⟨rest, text, ends⟩ := text_word c l
  obtain ⟨rest', text', ends'⟩ := text_word c' l'
  rw [text, text'] at same
  obtain ⟨pcs, words⟩ := position_append_inj same
  exact ⟨pcs, (Bytes.word_unique l.content.space_notMem_word l'.content.space_notMem_word ends ends'
    words).1⟩

def Line.Whole (l : Line) : Prop := l.bytes.length = l.width

theorem Line.Reads.whole {payload : Bytes} {stop : Nat} {l : Line} (high : stop ≤ payload.length)
    (reads : l.Reads payload stop) (fits : l.pc + l.width ≤ stop) : l.Whole := by
  rw [Whole, reads.bytes_eq fits, List.length_take, List.length_drop, List.length_take]
  omega

theorem text_injective {c c' : ClassFile} {l l' : Line} (whole : l.Whole) (whole' : l'.Whole)
    (same : l.text c = l'.text c') : l = l' := by
  obtain ⟨pcs, words⟩ := pc_and_word_of_text same
  obtain ⟨pc, content⟩ := l
  obtain ⟨pc', content'⟩ := l'
  obtain rfl : pc = pc' := pcs
  cases content with
  | byte b =>
    cases content' with
    | byte b' =>
      rw [text_byte, text_byte] at same
      have numerals := List.append_cancel_left (List.append_cancel_left same)
      rw [UInt8.toNat_inj.mp (Bytes.hex_injective numerals)]
    | instruction op operands => exact (op.name_ne_byte words.symm).elim
  | instruction op operands =>
    cases content' with
    | byte b => exact (op.name_ne_byte words).elim
    | instruction op' operands' =>
      obtain rfl := Opcode.name_injective words
      have counted : operands.length = op.width - 1 := Nat.eq_sub_of_add_eq whole
      have counted' : operands'.length = op.width - 1 := Nat.eq_sub_of_add_eq whole'
      have shown : operandText c pc op.layout operands = operandText c' pc op.layout operands' := by
        by_cases plain : op.layout = .plain
        · rw [plain]
          rfl
        · rw [text_instruction plain, text_instruction plain] at same
          exact List.append_cancel_left same
      rw [operandText_injective counted counted' shown]

/-! ## Listings -/

section Listings

variable {c c' : ClassFile} {payload payload' : Bytes} {l : Line}

theorem whole_of_mem (listed : l ∈ lines payload) : l.Whole := by
  have sweep := sweep_lines (header_of_mem listed)
  exact (sweep.reads listed).1.whole (codeEnd_le payload) (sweep.end_le listed)

theorem lines_eq_of_listing_eq (same : listing c payload = listing c' payload') :
    lines payload = lines payload' := by
  -- Line by line, for lists of lines that are whole.
  have texts (ls ls' : List Line) (whole : ∀ l ∈ ls, l.Whole) (whole' : ∀ l ∈ ls', l.Whole)
      (same : ls.map (Line.text c) = ls'.map (Line.text c')) : ls = ls' := by
    induction ls generalizing ls' with
    | nil => exact (List.map_eq_nil_iff.mp same.symm).symm
    | cons l ls ih =>
      cases ls' with
      | nil => cases same
      | cons l' ls' =>
        obtain ⟨first, later⟩ := List.cons.inj same
        obtain ⟨here, there⟩ := List.forall_mem_cons.mp whole
        obtain ⟨here', there'⟩ := List.forall_mem_cons.mp whole'
        rw [text_injective here here' first, ih ls' there there' later]
  exact texts _ _ (fun _ => whole_of_mem) (fun _ => whole_of_mem) same

/-- The listing covers the code of the payload. -/
structure Covered (c : ClassFile) (payload : Bytes) : Prop where
  /-- the first line stands at the start of the code, and without a line the code is empty -/
  first : ((lines payload).head?.map Line.pc).getD (codeEnd payload) = codeStart
  next : ∀ (k : Nat) (l l' : Line), (lines payload)[k]? = some l →
    (lines payload)[k + 1]? = some l' → l'.pc = l.pc + l.width
  last : ∀ l, (lines payload).getLast? = some l → l.pc + l.width = codeEnd payload
  inside : ∀ l ∈ lines payload, l.pc + l.width ≤ codeEnd payload ∧ l.Reads payload (codeEnd payload)
  once : ∀ i, codeStart ≤ i → i < codeEnd payload →
    ∃! k : Nat, ∃ l, (lines payload)[k]? = some l ∧ l.Covers i
  bytes : (lines payload).flatMap Line.bytes = coveredBytes payload
  shown : ∀ k : Nat, (listing c payload)[k]? = (lines payload)[k]?.map (Line.text c)
  placed : ∀ l ∈ lines payload,
    Tells (l.text c) (fun a : Nat × Bytes => position a.1 ++ a.2) fun a => a.1 = l.pc
  few : (listing c payload).length ≤ codeEnd payload - codeStart

theorem covered (header : codeStart ≤ payload.length) : Covered c payload := by
  have sweep := sweep_lines header
  refine
    { first := sweep.first_pc
      next := ?_
      last := fun _ => sweep.last_end
      inside := fun _ listed => ⟨sweep.end_le listed, (sweep.reads listed).1⟩
      once := fun _ => sweep.covers_once
      bytes := sweep.flatMap_bytes
      shown := fun _ => List.getElem?_map
      placed := ?_
      few := ?_ }
  · intro k l l' present present'
    have next := sweep.next_pc present
    rw [present'] at next
    exact next
  · intro l _
    obtain ⟨rest, text, _⟩ := text_word c l
    refine ⟨⟨(l.pc, _), text⟩, ?_⟩
    rintro ⟨pc, rest'⟩ text'
    exact (position_append_inj (text'.symm.trans text)).1
  · have counted := sweep.length_le
    rw [listing, List.length_map]
    omega

/-- A listing covers the code of its payload, each byte once, and determines it: a listing of another
payload, with the comments of any class file, is the same only if it is of the same code. -/
theorem listing_covers_and_determines (c : ClassFile) (payload : Bytes)
    (header : codeStart ≤ payload.length) :
    Covered c payload ∧
      ∀ (c' : ClassFile) (payload' : Bytes), codeStart ≤ payload'.length →
        listing c payload = listing c' payload' → coveredBytes payload = coveredBytes payload' := by
  refine ⟨covered header, ?_⟩
  intro c' payload' header' same
  calc
    coveredBytes payload = (lines payload).flatMap Line.bytes := (covered (c := c) header).bytes.symm
    _ = (lines payload').flatMap Line.bytes := by rw [lines_eq_of_listing_eq same]
    _ = coveredBytes payload' := (covered (c := c') header').bytes

/-- The declared end of the code cuts an instruction off. -/
private def cutByLength : Bytes := [0, 0, 0, 0, 0, 0, 0, 3, 0x10, 0xFF, 0x12, 0x01]

/-- More code is declared than there is, so that the end of the payload cuts the instruction off. -/
private def cutByPayload : Bytes := [0, 1, 0, 1, 0, 0, 0, 9, 0x10, 0xFF, 0x12]

theorem listing_covers_and_determines_cut :
    listing .empty cutByLength = [utf8 "   8: bipush        -1", utf8 "  10: .byte 0x12"] ∧
    Covered .empty cutByLength ∧ coveredBytes cutByLength = coveredBytes cutByPayload := by
  have told : listing .empty cutByLength =
      [utf8 "   8: bipush        -1", utf8 "  10: .byte 0x12"] := by
    decide +kernel
  have told' : listing { ClassFile.empty with major := 52 } cutByPayload =
      [utf8 "   8: bipush        -1", utf8 "  10: .byte 0x12"] := by
    decide +kernel
  obtain ⟨covered, determines⟩ :=
    listing_covers_and_determines .empty cutByLength (by decide)
  exact ⟨told, covered, determines _ cutByPayload (by decide) (told.trans told'.symm)⟩

end Listings

end Disassembly

end Jvm
