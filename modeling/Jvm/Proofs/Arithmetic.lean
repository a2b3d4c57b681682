import Jvm.Machine.Instruction
import Mathlib.Tactic.Common

/-!
The 32-bit arithmetic of instructions as arithmetic of integers.
-/

set_option autoImplicit false
set_option relaxedAutoImplicit false

namespace Jvm.Machine

/-- The remainder is that of a division that rounds toward zero. Its quotient may wrap around, its
value does not. -/
theorem toInt_remainder (v1 v2 : Int32) :
    (remainder v1 v2).toInt = v1.toInt.tmod v2.toInt := by
  have low := v1.le_toInt
  have high := v1.toInt_lt
  -- A remainder lies between zero and the dividend.
  have near : (v1.toInt.tmod v2.toInt).natAbs ≤ v1.toInt.natAbs := by
    rw [Int.natAbs_tmod]
    exact Nat.mod_le _ _
  have below : v1.toInt ≤ 0 → v1.toInt.tmod v2.toInt ≤ 0 := by
    intro nonpos
    have mirrored := Int.tmod_nonneg v2.toInt (Int.neg_nonneg_of_nonpos nonpos)
    rw [Int.neg_tmod] at mirrored
    omega
  have exact_eq : v1.toInt - v1.toInt.tdiv v2.toInt * v2.toInt = v1.toInt.tmod v2.toInt := by
    rw [Int.tmod_def, Int.mul_comm]
  rw [remainder, Int32.toInt_sub, Int32.toInt_mul, Int32.toInt_div, Int.bmod_mul_bmod,
    Int.sub_bmod_bmod, exact_eq]
  exact Int.bmod_eq_of_le (by omega) (by omega)

theorem remainder_eq_zero_iff {v1 v2 : Int32} :
    remainder v1 v2 = 0 ↔ v1.toInt % v2.toInt = 0 := by
  rw [← Int32.toInt_inj, toInt_remainder, ← Int.dvd_iff_emod_eq_zero, Int.dvd_iff_tmod_eq_zero]
  rfl

end Jvm.Machine
