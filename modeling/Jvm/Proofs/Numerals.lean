import Jvm.Bytes
import Mathlib.Algebra.Group.Nat.Defs
import Mathlib.Data.List.Basic
import Mathlib.Tactic.Common

/-!
Numerals can be read back: a numeral belongs to one number, in decimal and in hexadecimal, also when it
is filled up to a width. What is joined to a text by a separator can be told apart from it again, if
the separator does not occur in the text.
-/

set_option autoImplicit false
set_option relaxedAutoImplicit false

namespace Jvm.Bytes

/-! ## Separators -/

/-- A word ends where its text ends or where the separator comes first. -/
theorem word_unique {separator : UInt8} {word word' rest rest' : Bytes} (clean : separator ∉ word)
    (clean' : separator ∉ word') (ends : rest = [] ∨ rest.head? = some separator)
    (ends' : rest' = [] ∨ rest'.head? = some separator) (same : word ++ rest = word' ++ rest') :
    word = word' ∧ rest = rest' := by
  have cut {word rest : Bytes} (clean : separator ∉ word)
      (ends : rest = [] ∨ rest.head? = some separator) :
      (word ++ rest).takeWhile (· ≠ separator) = word := by
    have whole : ∀ x ∈ word, decide (x ≠ separator) = true := by
      intro x member
      refine decide_eq_true ?_
      rintro rfl
      exact clean member
    have stops : rest.takeWhile (· ≠ separator) = [] := by
      cases rest with
      | nil => rfl
      | cons x rest =>
        obtain rfl : x = separator := by simpa using ends
        simp
    rw [List.takeWhile_append_of_pos whole, stops, List.append_nil]
  have words : word = word' := by rw [← cut clean ends, same, cut clean' ends']
  subst words
  exact ⟨rfl, List.append_cancel_left same⟩

theorem split_unique {separator : UInt8} {left left' right right' : Bytes}
    (clean : separator ∉ left) (clean' : separator ∉ left')
    (same : left ++ separator :: right = left' ++ separator :: right') :
    left = left' ∧ right = right' := by
  obtain ⟨lefts, rights⟩ := word_unique clean clean' (.inr rfl) (.inr rfl) same
  exact ⟨lefts, (List.cons.inj rights).2⟩

/-! ## Decimal numerals -/

theorem byte_of_digit {n : Nat} {c : Char} (digit : c ∈ Nat.toDigits 10 n) :
    c.toNat.toUInt8.toNat = c.toNat ∧ 48 ≤ c.toNat ∧ c.toNat ≤ 57 := by
  have isDigit := Nat.isDigit_of_mem_toDigits (by decide) (by decide) digit
  have range : 48 ≤ c.toNat ∧ c.toNat ≤ 57 := by
    simpa [Char.isDigit, UInt32.le_iff_toNat_le] using isDigit
  refine ⟨?_, range⟩
  rw [Nat.toUInt8_eq, UInt8.toNat_ofNat']
  omega

theorem mem_nat {n : Nat} {x : UInt8} (member : x ∈ nat n) : 48 ≤ x.toNat ∧ x.toNat ≤ 57 := by
  obtain ⟨c, digit, rfl⟩ := List.mem_map.mp member
  obtain ⟨same, range⟩ := byte_of_digit digit
  rw [same]
  exact range

theorem notMem_nat {n : Nat} {x : UInt8} (other : x.toNat < 48 ∨ 57 < x.toNat) : x ∉ nat n := by
  intro member
  have digit := mem_nat member
  omega

theorem foldl_nat (n : Nat) : (nat n).foldl (fun k x => 10 * k + (x.toNat - 48)) 0 = n := by
  rw [nat, digits, List.foldl_map]
  rw [List.foldl_ext _ (fun k c => 10 * k + (c.toNat - '0'.toNat)) 0
    fun k c digit => by rw [(byte_of_digit digit).1]; rfl]
  exact Nat.ofDigitChars_ten_toDigits

theorem nat_injective {m n : Nat} (same : nat m = nat n) : m = n := by
  rw [← foldl_nat m, same, foldl_nat]

theorem int_injective {m n : Int} (same : int m = int n) : m = n := by
  -- A minus sign is not a digit.
  have unsigned {m n : Nat} : nat m ≠ 45 :: nat n := by
    intro same
    have minus : (45 : UInt8) ∈ nat m := by simp [same]
    exact absurd (mem_nat minus).1 (by decide)
  cases m with
  | ofNat m =>
    cases n with
    | ofNat n => rw [nat_injective same]
    | negSucc n => exact (unsigned same).elim
  | negSucc m =>
    cases n with
    | ofNat n => exact (unsigned same.symm).elim
    | negSucc n => rw [Nat.succ.inj (nat_injective (List.cons.inj same).2)]

theorem nat_comma_int_injective {m m' : Nat} {n n' : Int}
    (same : nat m ++ utf8 ", " ++ int n = nat m' ++ utf8 ", " ++ int n') : m = m' ∧ n = n' := by
  have comma (k : Nat) : (44 : UInt8) ∉ nat k := notMem_nat (by decide)
  have split (m : Nat) (n : Int) : nat m ++ utf8 ", " ++ int n = nat m ++ 44 :: 32 :: int n :=
    List.append_assoc _ _ _
  rw [split, split] at same
  obtain ⟨slots, deltas⟩ := split_unique (comma m) (comma m') same
  exact ⟨nat_injective slots, int_injective (List.cons.inj deltas).2⟩

theorem padLeft_nat_injective {width m n : Nat}
    (same : padLeft width 32 (nat m) = padLeft width 32 (nat n)) : m = n := by
  -- Without its spaces a padded numeral is the numeral.
  have unpadded (k : Nat) : (padLeft width 32 (nat k)).filter (· ≠ 32) = nat k := by
    have kept : ∀ x ∈ nat k, decide (x ≠ 32) = true := by
      intro x member
      refine decide_eq_true ?_
      rintro rfl
      exact notMem_nat (by decide) member
    rw [padLeft, List.filter_append, List.filter_eq_self.mpr kept]
    simp
  apply nat_injective
  rw [← unpadded m, same, unpadded]

/-! ## Hexadecimal numerals -/

def nibble (x : UInt8) : Nat := if x.toNat ≤ 57 then x.toNat - 48 else x.toNat - 55

theorem nibble_digitChar {d : Nat} (small : d < 16) :
    nibble (upperByte d.digitChar.toNat.toUInt8) = d := by
  revert d
  decide

theorem foldl_hex (width n : Nat) : (hex width n).foldl (fun k x => 16 * k + nibble x) 0 = n := by
  have zeros (count : Nat) :
      (List.replicate count (48 : UInt8)).foldl (fun k x => 16 * k + nibble x) 0 = 0 := by
    induction count with
    | zero => rfl
    | succ count ih => exact ih
  rw [hex, padLeft, List.foldl_append, zeros, digits, List.map_map, List.foldl_map]
  induction n using Nat.strongRecOn with
  | ind n ih =>
    rcases Nat.lt_or_ge n 16 with small | large
    · rw [Nat.toDigits_of_lt_base small]
      simpa using nibble_digitChar small
    · have last := nibble_digitChar (Nat.mod_lt n (by decide : 0 < 16))
      rw [Nat.toDigits_of_base_le (by decide) large, List.foldl_append, ih (n / 16) (by omega)]
      simp only [List.foldl_cons, List.foldl_nil, Function.comp_apply, last]
      omega

theorem hex_injective {width m n : Nat} (same : hex width m = hex width n) : m = n := by
  rw [← foldl_hex width m, same, foldl_hex]

theorem exists_digit_of_mem_toDigits {n : Nat} {c : Char} (digit : c ∈ Nat.toDigits 16 n) :
    ∃ d < 16, c = d.digitChar := by
  induction n using Nat.strongRecOn with
  | ind n ih =>
    rw [Nat.toDigits_eq_if (by decide)] at digit
    split_ifs at digit with small
    · exact ⟨n, small, List.mem_singleton.mp digit⟩
    · rcases List.mem_append.mp digit with before | last
      · exact ih (n / 16) (by omega) before
      · exact ⟨n % 16, Nat.mod_lt n (by decide), List.mem_singleton.mp last⟩

theorem mem_hex {width n : Nat} {x : UInt8} (member : x ∈ hex width n) :
    x ∈ utf8 "0123456789ABCDEF" := by
  have table {d : Nat} (small : d < 16) :
      upperByte d.digitChar.toNat.toUInt8 ∈ utf8 "0123456789ABCDEF" := by
    revert d
    decide
  rcases List.mem_append.mp member with zero | digit
  · rw [List.eq_of_mem_replicate zero]
    decide
  · rw [digits, List.map_map] at digit
    obtain ⟨c, inDigits, rfl⟩ := List.mem_map.mp digit
    obtain ⟨d, small, rfl⟩ := exists_digit_of_mem_toDigits inDigits
    exact table small

theorem length_hex (width n : Nat) :
    (hex width n).length = max width (Nat.toDigits 16 n).length := by
  simp only [hex, padLeft, digits, List.length_append, List.length_replicate, List.length_map]
  omega

/-- The upper-case hexadecimal numeral of a number, at least `width` digits wide and wider only for a
number that does not fit. -/
structure IsHex (width n : Nat) (w : Bytes) : Prop where
  digits : ∀ x ∈ w, x ∈ utf8 "0123456789ABCDEF"
  value : w.foldl (fun k x => 16 * k + nibble x) 0 = n
  wide : width ≤ w.length
  minimal : w.length = width ∨ 16 ^ (w.length - 1) ≤ n

theorem isHex_hex {width : Nat} (positive : 0 < width) (n : Nat) : IsHex width n (hex width n) where
  digits _ := mem_hex
  value := foldl_hex width n
  wide := by
    rw [length_hex]
    exact Nat.le_max_left _ _
  minimal := by
    rw [length_hex]
    rcases Nat.lt_or_ge width (Nat.toDigits 16 n).length with wider | fits
    · right
      rw [Nat.max_eq_right (Nat.le_of_lt wider)]
      have fewer : 0 < (Nat.toDigits 16 n).length - 1 := by omega
      -- One digit less would not do.
      have exceeds := (Nat.length_toDigits_le_iff (n := n) (by decide : 1 < 16) fewer).not
      exact Nat.not_lt.mp (exceeds.mp (by omega))
    · exact .inl (Nat.max_eq_left fits)

theorem length_hex_byte (x : UInt8) : (hex 2 x.toNat).length = 2 := by
  have fits := (Nat.length_toDigits_le_iff (by decide : 1 < 16) (by decide : 0 < 2)).mpr x.toNat_lt
  rw [length_hex]
  exact Nat.max_eq_left fits

end Jvm.Bytes
