import Mathlib.Algebra.Order.Field.Rat
import Mathlib.Tactic.FieldSimp
import Neutron.Dex.PrecDec

namespace Neutron.Dex

open Library

def PrecDec.value (amount : PrecDec) : ℚ := amount.i / precisionReuse

namespace PrecDec

theorem precisionReuse_cast_pos : (0 : ℚ) < precisionReuse := by
  exact_mod_cast precisionReuse_pos

theorem precisionReuse_cast : (precisionReuse : ℚ) = 10 ^ 27 := by
  unfold precisionReuse
  norm_num

theorem fivePrecision_cast : (fivePrecision : ℚ) = precisionReuse / 2 := by
  have double : (precisionReuse : ℚ) = 2 * fivePrecision := by
    exact_mod_cast precisionReuse_eq
  rw [double]
  ring

variable {left right result : PrecDec}

@[simp] theorem value_add : (left + right).value = left.value + right.value := by
  unfold value
  rw [add_i]
  push_cast
  ring

@[simp] theorem value_sub : (left - right).value = left.value - right.value := by
  unfold value
  rw [sub_i]
  push_cast
  ring

@[simp] theorem value_zeroPrecDec : zeroPrecDec.value = 0 := by
  unfold value
  simp

@[simp] theorem value_onePrecDec : onePrecDec.value = 1 := by
  unfold value
  rw [onePrecDec_i, Int.cast_natCast]
  exact div_self precisionReuse_cast_pos.ne'

@[simp] theorem value_newPrecDecFromInt (amount : Int) :
    (newPrecDecFromInt amount).value = amount := by
  unfold value
  rw [newPrecDecFromInt_i]
  push_cast
  exact mul_div_cancel_right₀ _ precisionReuse_cast_pos.ne'

@[simp] theorem value_mulInt (amount : Int) :
    (left.mulInt amount).value = left.value * amount := by
  unfold value
  rw [mulInt_i]
  push_cast
  ring

theorem value_le_value_iff : left.value ≤ right.value ↔ left.i ≤ right.i := by
  unfold value
  rw [div_le_div_iff_of_pos_right precisionReuse_cast_pos, Int.cast_le]

theorem value_lt_value_iff : left.value < right.value ↔ left.i < right.i := by
  unfold value
  rw [div_lt_div_iff_of_pos_right precisionReuse_cast_pos, Int.cast_lt]

theorem value_nonneg_iff : 0 ≤ left.value ↔ 0 ≤ left.i := by
  rw [← value_zeroPrecDec, value_le_value_iff, zeroPrecDec_i]

theorem value_pos_iff : 0 < left.value ↔ 0 < left.i := by
  rw [← value_zeroPrecDec, value_lt_value_iff, zeroPrecDec_i]

def smallest : ℚ := 1 / 10 ^ 27

theorem smallest_pos : 0 < smallest := by
  unfold smallest
  norm_num

theorem smallest_eq : smallest = 1 / precisionReuse := by
  rw [smallest, precisionReuse_cast]

theorem value_eq : left.value = left.i * smallest := by
  rw [value, smallest_eq]
  ring

theorem mul_value_le (leftNonneg : 0 ≤ left.i) (rightNonneg : 0 ≤ right.i) :
    (left.mul right).value ≤ left.value * right.value + smallest / 2 := by
  have bound : ((precisionReuse * (left.mul right).i : Int) : ℚ) ≤
      ((left.i * right.i + fivePrecision : Int) : ℚ) := by
    exact_mod_cast Rounding.unit_mul_halfEven_le precisionReuse_eq
      (Int.mul_nonneg leftNonneg rightNonneg)
  have unitPos := precisionReuse_cast_pos
  push_cast at bound
  rw [fivePrecision_cast] at bound
  rw [smallest_eq]
  unfold value
  rw [← sub_nonneg] at bound ⊢
  have scaled := div_nonneg bound (mul_pos unitPos unitPos).le
  calc (0 : ℚ) ≤ _ := scaled
    _ = _ := by field_simp

theorem le_mul_value (leftNonneg : 0 ≤ left.i) (rightNonneg : 0 ≤ right.i) :
    left.value * right.value ≤ (left.mul right).value + smallest / 2 := by
  have bound : ((left.i * right.i : Int) : ℚ) ≤
      ((precisionReuse * (left.mul right).i + fivePrecision : Int) : ℚ) := by
    exact_mod_cast le_mul leftNonneg rightNonneg
  have unitPos := precisionReuse_cast_pos
  push_cast at bound
  rw [fivePrecision_cast] at bound
  rw [smallest_eq]
  unfold value
  rw [← sub_nonneg] at bound ⊢
  have scaled := div_nonneg bound (mul_pos unitPos unitPos).le
  calc (0 : ℚ) ≤ _ := scaled
    _ = _ := by field_simp

theorem quo_value_le (computed : left.quo right = .ok result) (leftNonneg : 0 ≤ left.i)
    (rightPositive : 0 < right.i) :
    result.value ≤ left.value / right.value + smallest / 2 := by
  have bound : ((right.i * (precisionReuse * result.i) : Int) : ℚ) ≤
      ((left.i * (precisionReuse * precisionReuse : Nat) + right.i * fivePrecision : Int) : ℚ) := by
    exact_mod_cast mul_quo_le computed leftNonneg rightPositive
  have rightPos : (0 : ℚ) < right.i := by exact_mod_cast rightPositive
  have unitPos := precisionReuse_cast_pos
  push_cast at bound
  rw [fivePrecision_cast] at bound
  rw [smallest_eq]
  unfold value
  rw [← sub_nonneg] at bound ⊢
  have scaled := div_nonneg bound (mul_pos rightPos (mul_pos unitPos unitPos)).le
  calc (0 : ℚ) ≤ _ := scaled
    _ = _ := by field_simp

theorem lt_quo_value (computed : left.quo right = .ok result) (leftNonneg : 0 ≤ left.i)
    (rightPositive : 0 < right.i) :
    left.value / right.value < result.value + smallest / 2 + smallest ^ 2 := by
  have bound : ((left.i * (precisionReuse * precisionReuse : Nat) : Int) : ℚ) <
      ((right.i * (precisionReuse * result.i + fivePrecision) + right.i : Int) : ℚ) := by
    exact_mod_cast lt_mul_quo computed leftNonneg rightPositive
  have rightPos : (0 : ℚ) < right.i := by exact_mod_cast rightPositive
  have unitPos := precisionReuse_cast_pos
  push_cast at bound
  rw [fivePrecision_cast] at bound
  rw [smallest_eq]
  unfold value
  rw [← sub_pos] at bound ⊢
  have scaled := div_pos bound (mul_pos rightPos (mul_pos unitPos unitPos))
  calc (0 : ℚ) < _ := scaled
    _ = _ := by field_simp

theorem quoInt_value_le {divisor : Int} (computed : left.quoInt divisor = .ok result)
    (leftNonneg : 0 ≤ left.i) (positive : 0 < divisor) :
    result.value ≤ left.value / divisor := by
  have divisorPos : (0 : ℚ) < divisor := by exact_mod_cast positive
  have truncated : result.i * divisor ≤ left.i := by
    rw [(quoInt_eq_ok_iff.mp computed).2, Int.tdiv_eq_ediv_of_nonneg leftNonneg]
    exact Int.ediv_mul_le _ (ne_of_gt positive)
  have cast : (result.i * divisor : ℚ) ≤ left.i := by exact_mod_cast truncated
  rw [le_div_iff₀ divisorPos, value_eq, value_eq, mul_right_comm]
  exact mul_le_mul_of_nonneg_right cast smallest_pos.le

theorem truncateInt_le_value {amount : PrecDec} (nonneg : 0 ≤ amount.i) :
    (amount.truncateInt : ℚ) ≤ amount.value := by
  have truncated : amount.truncateInt * precisionReuse ≤ amount.i := by
    rw [truncateInt, Int.tdiv_eq_ediv_of_nonneg nonneg]
    exact Int.ediv_mul_le _ (by decide)
  have cast : (amount.truncateInt * precisionReuse : ℚ) ≤ amount.i := by
    exact_mod_cast truncated
  unfold value
  rwa [le_div_iff₀ precisionReuse_cast_pos]

theorem truncateInt_nonpos {amount : PrecDec} (nonpos : amount.i ≤ 0) :
    amount.truncateInt ≤ 0 :=
  tdiv_nonpos nonpos (Int.natCast_nonneg _)

end PrecDec

end Neutron.Dex
