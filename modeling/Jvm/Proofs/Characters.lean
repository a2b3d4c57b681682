import Jvm.Text.Utf8
import Mathlib.Tactic.Common

/-!
Texts and their characters. Reading a scalar value from the head of a text and writing it are inverse
to each other, so the texts that are UTF-8 throughout are exactly those of character strings.
-/

set_option autoImplicit false
set_option relaxedAutoImplicit false

namespace Jvm.Utf8

variable {b r : Bytes} {n : Nat}

/-! ## Scalar values -/

theorem payload_lt (b : UInt8) : payload b < 64 := Nat.mod_lt _ (by decide)

theorem isTail_iff {b : UInt8} : isTail b = true ↔ b.toNat = 0x80 + payload b := by
  simp only [isTail, payload, Bool.and_eq_true, decide_eq_true_eq, UInt8.le_iff_toNat_le,
    UInt8.reduceToNat]
  omega

theorem isSecond_iff {lead b : UInt8} :
    isSecond lead b = true ↔ b.toNat = 0x80 + payload b ∧
      (lead.toNat = 0xE0 → 0x20 ≤ payload b) ∧ (lead.toNat = 0xED → payload b < 0x20) ∧
      (lead.toNat = 0xF0 → 0x10 ≤ payload b) ∧ (lead.toNat = 0xF4 → payload b < 0x10) := by
  unfold isSecond secondRange payload
  split_ifs <;> simp_all [UInt8.le_iff_toNat_le, ← UInt8.toNat_inj] <;> omega

private theorem toUInt8_eq {a : UInt8} {k : Nat} (same : a.toNat = k) : k.toUInt8 = a := by
  subst same
  simp

private theorem toNat_ofNat {k k' : Nat} (small : k < 256) (same : k = k') :
    (UInt8.ofNat k).toNat = k' := by
  subst same
  simpa using Nat.mod_eq_of_lt small

private theorem exists_byte {k : Nat} (small : k < 256) : ∃ a : UInt8, a.toNat = k :=
  ⟨UInt8.ofNat k, toNat_ofNat small rfl⟩

private theorem exists_tail (k : Nat) :
    ∃ a : UInt8, a.toNat = 0x80 + k % 64 ∧ payload a = k % 64 ∧ isTail a = true := by
  obtain ⟨a, same⟩ := exists_byte (k := 0x80 + k % 64) (by omega)
  have low : payload a = k % 64 := by rw [payload]; omega
  exact ⟨a, same, low, isTail_iff.mpr (by omega)⟩

theorem encode_one {a : UInt8} (lead : a.toNat = n) (range : n < 0x80) : encode n = [a] := by
  rw [encode, if_pos range, toUInt8_eq lead]

theorem encode_two {a b : UInt8} (lead : a.toNat = 0xC0 + n / 64) (tail : b.toNat = 0x80 + n % 64)
    (range : 0x80 ≤ n ∧ n < 0x800) : encode n = [a, b] := by
  rw [encode, if_neg (by omega), if_pos range.2, toUInt8_eq lead, toUInt8_eq tail]

theorem encode_three {a b c : UInt8} (lead : a.toNat = 0xE0 + n / 4096)
    (second : b.toNat = 0x80 + n / 64 % 64) (tail : c.toNat = 0x80 + n % 64)
    (range : 0x800 ≤ n ∧ n < 0x10000) : encode n = [a, b, c] := by
  rw [encode, if_neg (by omega), if_neg (by omega), if_pos range.2, toUInt8_eq lead,
    toUInt8_eq second, toUInt8_eq tail]

theorem encode_four {a b c d : UInt8} (lead : a.toNat = 0xF0 + n / 262144)
    (second : b.toNat = 0x80 + n / 4096 % 64) (tail : c.toNat = 0x80 + n / 64 % 64)
    (tail' : d.toNat = 0x80 + n % 64) (range : 0x10000 ≤ n) : encode n = [a, b, c, d] := by
  rw [encode, if_neg (by omega), if_neg (by omega), if_neg (by omega), toUInt8_eq lead,
    toUInt8_eq second, toUInt8_eq tail, toUInt8_eq tail']

theorem encode_of_head? (first : head? b = some (n, r)) : n.isValidChar ∧ b = encode n ++ r := by
  unfold head? at first
  unfold Nat.isValidChar
  split at first
  · cases first
  rename_i a rest
  split_ifs at first with one two three four
  · cases first
    have lead : a.toNat < 0x80 := UInt8.lt_iff_toNat_lt.mp one
    rw [encode_one rfl lead]
    exact ⟨by omega, rfl⟩
  · split at first
    · rename_i b r
      split_ifs at first with tail
      cases first
      have lead : 0xC2 ≤ a.toNat ∧ a.toNat ≤ 0xDF := by simpa [UInt8.le_iff_toNat_le] using two
      have low := payload_lt b
      rw [isTail_iff] at tail
      rw [encode_two (a := a) (b := b) (by omega) (by omega) (by omega)]
      exact ⟨by omega, rfl⟩
    · cases first
  · split at first
    · rename_i b c r
      split_ifs at first with tails
      cases first
      have lead : 0xE0 ≤ a.toNat ∧ a.toNat ≤ 0xEF := by simpa [UInt8.le_iff_toNat_le] using three
      have middle := payload_lt b
      have low := payload_lt c
      rw [Bool.and_eq_true, isSecond_iff, isTail_iff] at tails
      rw [encode_three (a := a) (b := b) (c := c) (by omega) (by omega) (by omega) (by omega)]
      exact ⟨by omega, rfl⟩
    · cases first
  · split at first
    · rename_i b c d r
      split_ifs at first with tails
      cases first
      have lead : 0xF0 ≤ a.toNat ∧ a.toNat ≤ 0xF4 := by simpa [UInt8.le_iff_toNat_le] using four
      have upper := payload_lt b
      have middle := payload_lt c
      have low := payload_lt d
      rw [Bool.and_eq_true, Bool.and_eq_true, isSecond_iff, isTail_iff, isTail_iff] at tails
      rw [encode_four (a := a) (b := b) (c := c) (d := d) (by omega) (by omega) (by omega)
        (by omega) (by omega)]
      exact ⟨by omega, rfl⟩
    · cases first

theorem head?_encode (valid : n.isValidChar) (r : Bytes) : head? (encode n ++ r) = some (n, r) := by
  unfold Nat.isValidChar at valid
  rcases Nat.lt_or_ge n 0x80 with one | beyond
  · obtain ⟨a, lead⟩ := exists_byte (k := n) (by omega)
    rw [encode_one lead one]
    simp [head?, UInt8.lt_iff_toNat_lt, lead, one]
  rcases Nat.lt_or_ge n 0x800 with two | beyond
  · obtain ⟨a, lead⟩ := exists_byte (k := 0xC0 + n / 64) (by omega)
    obtain ⟨b, tail, low, tails⟩ := exists_tail n
    have range : ¬ a.toNat < 0x80 ∧ 0xC2 ≤ a.toNat ∧ a.toNat ≤ 0xDF := by omega
    have value : a.toNat % 32 * 64 + payload b = n := by omega
    rw [encode_two lead tail (by omega)]
    simp [head?, UInt8.lt_iff_toNat_lt, UInt8.le_iff_toNat_le, range, tails, value]
  rcases Nat.lt_or_ge n 0x10000 with three | beyond
  · obtain ⟨a, lead⟩ := exists_byte (k := 0xE0 + n / 4096) (by omega)
    obtain ⟨b, second, middle, _⟩ := exists_tail (n / 64)
    obtain ⟨c, tail, low, tails⟩ := exists_tail n
    have seconds : isSecond a b = true := isSecond_iff.mpr (by omega)
    have range : ¬ a.toNat < 0x80 ∧ ¬ a.toNat ≤ 0xDF ∧ 0xE0 ≤ a.toNat ∧ a.toNat ≤ 0xEF := by omega
    have value : (a.toNat % 16 * 64 + payload b) * 64 + payload c = n := by omega
    rw [encode_three lead second tail (by omega)]
    simp [head?, UInt8.lt_iff_toNat_lt, UInt8.le_iff_toNat_le, range, seconds, tails, value]
  · obtain ⟨a, lead⟩ := exists_byte (k := 0xF0 + n / 262144) (by omega)
    obtain ⟨b, second, upper, _⟩ := exists_tail (n / 4096)
    obtain ⟨c, tail, middle, tails⟩ := exists_tail (n / 64)
    obtain ⟨d, tail', low, tails'⟩ := exists_tail n
    have seconds : isSecond a b = true := isSecond_iff.mpr (by omega)
    have range : ¬ a.toNat < 0x80 ∧ ¬ a.toNat ≤ 0xDF ∧ ¬ a.toNat ≤ 0xEF ∧
        0xF0 ≤ a.toNat ∧ a.toNat ≤ 0xF4 := by omega
    have value : ((a.toNat % 8 * 64 + payload b) * 64 + payload c) * 64 + payload d = n := by omega
    rw [encode_four lead second tail tail' beyond]
    simp [head?, UInt8.lt_iff_toNat_lt, UInt8.le_iff_toNat_le, range, seconds, tails, tails', value]

theorem encode_toNat (c : Char) : encode c.toNat = String.utf8EncodeChar c := by
  have valid : c.val.toNat < 0xD800 ∨ 0xDFFF < c.val.toNat ∧ c.val.toNat < 0x110000 := c.valid
  unfold String.utf8EncodeChar
  change encode c.val.toNat = _
  generalize c.val.toNat = v at valid
  dsimp only
  have byte {k k' : Nat} (small : k < 256) (same : k = k') := toNat_ofNat small same
  split_ifs with one two three
  · exact encode_one (byte (by omega) rfl) (by omega)
  · exact encode_two (byte (by omega) (by omega)) (byte (by omega) (by omega)) (by omega)
  · exact encode_three (byte (by omega) (by omega)) (byte (by omega) (by omega))
      (byte (by omega) (by omega)) (by omega)
  · exact encode_four (byte (by omega) (by omega)) (byte (by omega) (by omega))
      (byte (by omega) (by omega)) (byte (by omega) (by omega)) (by omega)

/-! ## Texts -/

theorem utf8_ofList (l : List Char) : utf8 (String.ofList l) = l.flatMap fun c => encode c.toNat := by
  have same : (fun c : Char => encode c.toNat) = String.utf8EncodeChar := funext encode_toNat
  rw [utf8, String.toUTF8_eq_toByteArray, String.toByteArray_ofList, same, List.utf8Encode,
    List.data_toByteArray]

theorem isValid_nil : isValid [] = true := by
  rw [isValid, pieces]
  split
  · rename_i first
    cases first
  · rfl

theorem isValid_of_head? (first : head? b = some (n, r)) : isValid b = isValid r := by
  rw [isValid, pieces]
  split
  · rename_i n' r' first'
    rw [first] at first'
    cases first'
    simp [isValid]
  · rename_i stray
    rw [first] at stray
    cases stray

theorem isValid_of_stray {a : UInt8} (stray : head? (a :: r) = none) : isValid (a :: r) = false := by
  rw [isValid, pieces]
  split
  · rename_i n r' first
    rw [stray] at first
    cases first
  · simp

theorem isValid_utf8_append (s : String) (r : Bytes) : isValid (utf8 s ++ r) = isValid r := by
  rw [← String.ofList_toList (s := s), utf8_ofList]
  induction s.toList with
  | nil => rfl
  | cons c l ih =>
    rw [List.flatMap_cons, List.append_assoc, isValid_of_head? (head?_encode (n := c.toNat) c.valid _)]
    exact ih

/-- A text is UTF-8 throughout exactly when it is the text of a character string. -/
theorem isValid_iff : isValid b = true ↔ ∃ s : String, b = utf8 s := by
  constructor
  · intro valid
    suffices ∃ l : List Char, b = l.flatMap fun c => encode c.toNat by
      obtain ⟨l, same⟩ := this
      exact ⟨String.ofList l, same.trans (utf8_ofList l).symm⟩
    -- The induction follows the reading of the text, value by value.
    induction length : b.length using Nat.strongRecOn generalizing b with
    | ind k ih =>
      cases first : head? b with
      | none =>
        cases b with
        | nil => exact ⟨[], rfl⟩
        | cons a r =>
          rw [isValid_of_stray first] at valid
          cases valid
      | some read =>
        obtain ⟨n, r⟩ := read
        rw [isValid_of_head? first] at valid
        obtain ⟨scalar, rfl⟩ := encode_of_head? first
        obtain ⟨l, rfl⟩ := ih r.length (length ▸ head?_length first) valid rfl
        exact ⟨Char.ofNatAux n scalar :: l, rfl⟩
  · rintro ⟨s, rfl⟩
    rw [← List.append_nil (utf8 s), isValid_utf8_append, isValid_nil]

theorem isValid_utf8 (s : String) : isValid (utf8 s) = true := isValid_iff.mpr ⟨s, rfl⟩

theorem isValid_flatten {chunks : List Bytes} (valid : chunks.all isValid = true) :
    isValid chunks.flatten = true := by
  induction chunks with
  | nil => exact isValid_nil
  | cons chunk rest ih =>
    rw [List.all_cons, Bool.and_eq_true] at valid
    obtain ⟨s, rfl⟩ := isValid_iff.mp valid.1
    rw [List.flatten_cons, isValid_utf8_append]
    exact ih valid.2

end Jvm.Utf8
