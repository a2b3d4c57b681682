import Jvm.Bytes
import Mathlib.Data.List.Induction
import Mathlib.Tactic.Common
import Mathlib.Tactic.Ring

/-!
Big-endian numbers as files store them: writing a number in a fixed width and reading it back, in
both orders.
-/

set_option autoImplicit false
set_option relaxedAutoImplicit false

namespace Jvm.Bytes

@[simp] theorem length_ofNat (width n : Nat) : (ofNat width n).length = width := by
  induction width generalizing n with
  | zero => rfl
  | succ width ih => simp [ofNat, ih]

@[simp] theorem length_ofUInt16 (n : UInt16) : (ofUInt16 n).length = 2 := length_ofNat 2 _

@[simp] theorem length_ofUInt32 (n : UInt32) : (ofUInt32 n).length = 4 := length_ofNat 4 _

private theorem bigEndian_concat (b : Bytes) (x : UInt8) :
    bigEndian (b ++ [x]) = bigEndian b * 256 + x.toNat := by
  simp [bigEndian, List.foldl_append]

theorem bigEndian_ofNat (width n : Nat) : bigEndian (ofNat width n) = n % 256 ^ width := by
  induction width generalizing n with
  | zero => simp [ofNat, bigEndian, Nat.mod_one]
  | succ width ih =>
    rw [ofNat, bigEndian_concat, ih, Nat.pow_succ, Nat.mul_comm (256 ^ width), Nat.mod_mul]
    have low : n.toUInt8.toNat = n % 256 := by simp
    rw [low]
    ring

theorem bigEndian_lt (b : Bytes) : bigEndian b < 256 ^ b.length := by
  induction b using List.reverseRecOn with
  | nil => simp [bigEndian]
  | append_singleton b x ih =>
    have digit : x.toNat < 256 := x.toNat_lt
    rw [bigEndian_concat, List.length_append, List.length_singleton, Nat.pow_succ]
    omega

theorem ofNat_bigEndian (b : Bytes) : ofNat b.length (bigEndian b) = b := by
  induction b using List.reverseRecOn with
  | nil => rfl
  | append_singleton b x ih =>
    have digit : x.toNat < 256 := x.toNat_lt
    have high : (bigEndian b * 256 + x.toNat) / 256 = bigEndian b := by omega
    have low : (bigEndian b * 256 + x.toNat).toUInt8 = x := by
      apply UInt8.toNat_inj.mp
      rw [UInt8.toNat_ofNat', Nat.mul_add_mod_self_right]
      exact Nat.mod_eq_of_lt digit
    rw [bigEndian_concat, List.length_append, List.length_singleton, ofNat, high, low, ih]

theorem toUInt8_bigEndian_singleton (x : UInt8) : (bigEndian [x]).toUInt8 = x := by
  simp [bigEndian]

theorem toUInt16_bigEndian_ofUInt16 (n : UInt16) : (bigEndian (ofUInt16 n)).toUInt16 = n := by
  apply UInt16.toNat_inj.mp
  rw [ofUInt16, bigEndian_ofNat, UInt16.toNat_ofNat']
  have bound : n.toNat < 2 ^ 16 := n.toNat_lt
  omega

theorem toUInt32_bigEndian_ofUInt32 (n : UInt32) : (bigEndian (ofUInt32 n)).toUInt32 = n := by
  apply UInt32.toNat_inj.mp
  rw [ofUInt32, bigEndian_ofNat, UInt32.toNat_ofNat']
  have bound : n.toNat < 2 ^ 32 := n.toNat_lt
  omega

theorem toNat_toUInt16_bigEndian {b : Bytes} (two : b.length = 2) :
    (bigEndian b).toUInt16.toNat = bigEndian b := by
  have bound := bigEndian_lt b
  rw [two] at bound
  rw [UInt16.toNat_ofNat']
  omega

theorem ofUInt16_toUInt16_bigEndian {b : Bytes} (two : b.length = 2) :
    ofUInt16 (bigEndian b).toUInt16 = b := by
  rw [ofUInt16, toNat_toUInt16_bigEndian two, ← two, ofNat_bigEndian]

theorem ofUInt32_toUInt32_bigEndian {b : Bytes} (four : b.length = 4) :
    ofUInt32 (bigEndian b).toUInt32 = b := by
  have bound := bigEndian_lt b
  have same : (bigEndian b).toUInt32.toNat = bigEndian b := by
    rw [UInt32.toNat_ofNat']
    rw [four] at bound
    omega
  rw [ofUInt32, same, ← four, ofNat_bigEndian]

theorem ofUInt16_eq_ofNat {n : UInt16} {k : Nat} (same : n.toNat = k) : ofUInt16 n = ofNat 2 k := by
  rw [ofUInt16, same]

theorem ofUInt32_eq_ofNat {n : UInt32} {k : Nat} (same : n.toNat = k) : ofUInt32 n = ofNat 4 k := by
  rw [ofUInt32, same]

end Jvm.Bytes
