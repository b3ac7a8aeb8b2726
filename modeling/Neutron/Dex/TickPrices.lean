import Neutron.Dex.Decimal
import Neutron.Dex.PriceSearch

namespace Neutron.Dex

open Library PrecDec

variable {index : Nat}

theorem precomputedPrices_value_le (inside : index ≤ maxTickExp) :
    (precomputedPrices index).value ≤ 103 * 10 ^ 21 := by
  have bound : (precomputedPrices index).i ≤ 103 * 10 ^ 21 * precisionReuse :=
    le_trans (precomputedPrices_le inside) (by decide)
  unfold value
  rw [div_le_iff₀ precisionReuse_cast_pos]
  exact_mod_cast bound

theorem one_le_precomputedPrices_value (index : Nat) :
    1 ≤ (precomputedPrices index).value := by
  rw [← value_onePrecDec, value_le_value_iff]
  exact one_le_precomputedPrices index

theorem basePrice_value : basePrice.value = 10001 / 10000 := by
  rw [value, precisionReuse_cast]
  norm_num [basePrice]

theorem precomputedPrices_succ_value (index : Nat) :
    (precomputedPrices index).value * (10001 / 10000) ≤
      (precomputedPrices (index + 1)).value + smallest / 2 := by
  have bound := le_mul_value (le_of_lt (precomputedPrices_pos index))
    (show 0 ≤ basePrice.i by decide)
  rw [basePrice_value] at bound
  exact bound

theorem quo_precomputedPrices (positive : 0 < index) :
    onePrecDec.quo (precomputedPrices index) = .ok (tickPrice (-index)) := by
  have negative : -(index : Int) < 0 := by omega
  have magnitude : (-(index : Int)).natAbs = index := by omega
  rw [quo, if_neg (ne_of_gt (precomputedPrices_pos _)), tickPrice, if_pos negative, magnitude]
  rfl

theorem tickPrice_natCast (index : Nat) : tickPrice index = precomputedPrices index := by
  rw [tickPrice, if_neg (by omega)]
  rfl

theorem neg_inside (inside : index ≤ maxTickExp) : ¬ IsTickOutOfRange (-index) := by
  unfold IsTickOutOfRange
  omega

def growth : ℚ := 10001 / 10000

theorem growth_pos : 0 < growth := by
  unfold growth
  norm_num

theorem precomputedPrices_le_growth (index : Nat) :
    (precomputedPrices index).value + 5000 * smallest ≤
      (1 + 5000 * smallest) * growth ^ index := by
  induction index with
  | zero => simp [precomputedPrices]
  | succ index ih =>
      have rounded := mul_value_le (le_of_lt (precomputedPrices_pos index))
        (show 0 ≤ basePrice.i by decide)
      rw [basePrice_value] at rounded
      have scaled := mul_le_mul_of_nonneg_right ih growth_pos.le
      rw [pow_succ, ← mul_assoc]
      unfold growth at *
      change (precomputedPrices (index + 1)).value ≤ _ at rounded
      linarith

theorem growth_le_precomputedPrices (index : Nat) :
    (1 - 5000 * smallest) * growth ^ index + 5000 * smallest ≤
      (precomputedPrices index).value := by
  induction index with
  | zero => simp [precomputedPrices]
  | succ index ih =>
      have rounded := precomputedPrices_succ_value index
      have scaled := mul_le_mul_of_nonneg_right ih growth_pos.le
      rw [pow_succ, ← mul_assoc]
      unfold growth at *
      linarith

/-! ### Every tick has a price of its own

Towards the end of the range the prices of neighbouring ticks are less than the smallest
decimal apart before they are rounded.  There the prices are computed: they go down by
one unit with every tick. -/

theorem lastPrices : ∀ offset < 101,
    (10006 - offset) * evaluate nextEntry offset lateEntry ≤ 10 ^ 54 ∧
      10000 * 10 ^ 54 ≤
        (10000 * (10006 - offset) + 4953) * evaluate nextEntry offset lateEntry ∧
      chopPrecisionAndRound
          ((precisionReuse ^ 3 : Int) / evaluate nextEntry offset lateEntry) =
        10006 - offset := by
  decide +kernel

theorem lastPrices_value (last : 529615 ≤ index) (inside : index ≤ maxTickExp) :
    (539621 - index) * smallest * (precomputedPrices index).value ≤ 1 ∧
      1 ≤ (539621 - index + 4953 / 10000) * smallest * (precomputedPrices index).value := by
  obtain ⟨offset, rfl⟩ := Nat.exists_eq_add_of_le last
  have within : offset < 101 := by
    unfold maxTickExp at inside
    omega
  obtain ⟨upper, lower, _⟩ := lastPrices offset within
  rw [precomputedPrices_late, value_eq]
  generalize evaluate nextEntry offset lateEntry = entry at *
  have price : ((10006 - offset : Nat) : ℚ) = 539621 - (529615 + offset : Nat) := by
    rw [Nat.cast_sub (by omega)]
    push_cast
    ring
  have square : smallest * smallest = 1 / 10 ^ 54 := by norm_num [smallest]
  have upperCast : ((10006 - offset : Nat) : ℚ) * entry ≤ 10 ^ 54 := by
    exact_mod_cast upper
  have lowerCast : (10000 * 10 ^ 54 : ℚ) ≤
      (10000 * (10006 - offset : Nat) + 4953) * entry := by
    exact_mod_cast lower
  rw [← price]
  constructor
  · calc ((10006 - offset : Nat) : ℚ) * smallest * ((entry : Int) * smallest)
        = (10006 - offset : Nat) * entry * (smallest * smallest) := by
          push_cast
          ring
      _ ≤ 1 := by
          rw [square]
          linarith
  · calc (1 : ℚ) ≤ ((10006 - offset : Nat) + 4953 / 10000) * entry *
            (smallest * smallest) := by
          rw [square]
          linarith
      _ = _ := by
          push_cast
          ring

theorem tickPrice_last (last : 529615 ≤ index) (inside : index ≤ maxTickExp) :
    (tickPrice (-index)).i = 539621 - index := by
  obtain ⟨offset, rfl⟩ := Nat.exists_eq_add_of_le last
  have within : offset < 101 := by
    unfold maxTickExp at inside
    omega
  have rounded := (lastPrices offset within).2.2
  have magnitude : (-((529615 + offset : Nat) : Int)).natAbs = 529615 + offset := by omega
  rw [tickPrice_of_neg (by omega), magnitude, precomputedPrices_late, rounded]
  omega

theorem tickPrice_neg_maxTickExp :
    (tickPrice (-(maxTickExp : Nat))).value = 9906 * smallest := by
  rw [value_eq, tickPrice_last (by decide) (le_refl _)]
  norm_num [maxTickExp]

theorem precomputedPrices_lastTicks_le :
    (precomputedPrices 529615).value ≤ 9994 * 10 ^ 19 := by
  rw [precomputedPrices_late 0, value_eq]
  norm_num [evaluate, lateEntry, smallest]

theorem tickPrice_neg_succ_lt_of_le (positive : 0 < index)
    (inside : index + 1 ≤ 529615) :
    (tickPrice (-(index + 1 : Nat))).i < (tickPrice (-index)).i := by
  have low := quo_value_le (quo_precomputedPrices (show 0 < index + 1 by omega)) (by decide)
    (precomputedPrices_pos (index + 1))
  have high := lt_quo_value (quo_precomputedPrices positive) (by decide)
    (precomputedPrices_pos index)
  rw [value_onePrecDec] at low high
  rw [← value_lt_value_iff]
  have grows := precomputedPrices_succ_value index
  have bound : (precomputedPrices (index + 1)).value ≤ 9994 * 10 ^ 19 :=
    (value_le_value_iff.mpr (precomputedPrices_mono inside)).trans
      precomputedPrices_lastTicks_le
  have nearOne := one_le_precomputedPrices_value index
  have farOne := one_le_precomputedPrices_value (index + 1)
  generalize (precomputedPrices index).value = near at *
  generalize (precomputedPrices (index + 1)).value = far at *
  have gap : 1 / far + (smallest + smallest ^ 2) ≤ 1 / near := by
    have products : near * far * (smallest + smallest ^ 2) ≤
        near * (9994 * 10 ^ 19) * (smallest + smallest ^ 2) := by
      have smallestNonneg := smallest_pos.le
      gcongr
    have rounding : near * (9994 * 10 ^ 19) * (smallest + smallest ^ 2) ≤
        near * (9995 / 10 ^ 8) := by
      rw [mul_assoc]
      apply mul_le_mul_of_nonneg_left _ (by linarith)
      norm_num [smallest]
    have tiny : smallest / 2 ≤ 5 / 10 ^ 8 := by norm_num [smallest]
    rw [div_add' _ _ _ (by linarith), div_le_div_iff₀ (by linarith) (by linarith)]
    linarith
  linarith

theorem tickPrice_neg_succ_lt (inside : index + 1 ≤ maxTickExp) :
    (tickPrice (-(index + 1 : Nat))).i < (tickPrice (-index)).i := by
  rcases Nat.eq_zero_or_pos index with rfl | positive
  · decide
  · by_cases early : index + 1 ≤ 529615
    · exact tickPrice_neg_succ_lt_of_le positive early
    · rw [tickPrice_last (show 529615 ≤ index + 1 by omega) inside,
        tickPrice_last (show 529615 ≤ index by omega) (by omega)]
      omega

theorem tickPrice_lt {low high : Int} (inside : ¬ IsTickOutOfRange low)
    (ordered : low < high) : (tickPrice low).i < (tickPrice high).i := by
  have next : (tickPrice low).i < (tickPrice (low + 1)).i := by
    rcases lt_or_ge low 0 with negative | nonneg
    · obtain ⟨index, rfl⟩ : ∃ index : Nat, low = -(index + 1 : Nat) :=
        ⟨(-low - 1).toNat, by omega⟩
      have inRange : index + 1 ≤ maxTickExp := by
        have inRange := not_lt.mp inside
        omega
      rw [show -((index + 1 : Nat) : Int) + 1 = -index by omega]
      exact tickPrice_neg_succ_lt inRange
    · obtain ⟨index, rfl⟩ := Int.eq_ofNat_of_zero_le nonneg
      rw [show (index : Int) + 1 = (index + 1 : Nat) by omega, tickPrice_natCast,
        tickPrice_natCast]
      exact precomputedPrices_strictMono (Nat.lt_succ_self index)
  exact lt_of_lt_of_le next (tickPrice_mono ordered)

/-! ### Prices of opposite ticks

The price of a negative tick is the rounded reciprocal of a table entry, so that the
prices of opposite ticks need not multiply to one. -/

theorem precomputedPrices_mul_reciprocal (positive : 0 < index)
    (inside : index ≤ maxTickExp) :
    1 - 52 / 10 ^ 6 ≤ (precomputedPrices index).value * (tickPrice (-index)).value := by
  have entryPos : 0 < (precomputedPrices index).value :=
    value_pos_iff.mpr (precomputedPrices_pos index)
  have rounded := lt_quo_value (quo_precomputedPrices positive) (by decide)
    (precomputedPrices_pos index)
  rw [value_onePrecDec, div_lt_iff₀ entryPos] at rounded
  have bound : (precomputedPrices index).value * (smallest / 2 + smallest ^ 2) ≤
      103 * 10 ^ 21 * (smallest / 2 + smallest ^ 2) := by
    apply mul_le_mul_of_nonneg_right (precomputedPrices_value_le inside)
    exact add_nonneg (div_pos smallest_pos two_pos).le (sq_nonneg _)
  have total : (103 * 10 ^ 21 * (smallest / 2 + smallest ^ 2) : ℚ) ≤ 52 / 10 ^ 6 := by
    norm_num [smallest]
  linarith

section Opposite

variable {low high : Int}

/-- Only ticks of different signs can have prices that multiply to less than one. -/
theorem le_tickPrice_mul_of {bound : ℚ} {gap : Nat} (boundLe : bound ≤ 1)
    (reciprocal : ∀ {index}, 0 < index → index ≤ maxTickExp →
      bound ≤ (precomputedPrices (index + gap)).value * (tickPrice (-index)).value)
    (lowInside : ¬ IsTickOutOfRange low) (highInside : ¬ IsTickOutOfRange high)
    (apart : gap ≤ low + high) :
    bound ≤ (tickPrice low).value * (tickPrice high).value := by
  wlog ordered : low ≤ high generalizing low high with symmetric
  · rw [mul_comm]
    exact symmetric highInside lowInside (by omega) (by omega)
  have highValue : (tickPrice high).value = (precomputedPrices high.toNat).value := by
    rw [← tickPrice_natCast, Int.toNat_of_nonneg (by omega)]
  by_cases negative : low < 0
  · have magnitude : (low.natAbs : Int) = -low := by omega
    have product := reciprocal (show 0 < low.natAbs by omega) (not_lt.mp lowInside)
    rw [magnitude, neg_neg] at product
    have grows : (precomputedPrices (low.natAbs + gap)).value ≤
        (precomputedPrices high.toNat).value :=
      value_le_value_iff.mpr (precomputedPrices_mono (by omega))
    rw [highValue, mul_comm]
    exact product.trans (mul_le_mul_of_nonneg_right grows
      (value_pos_iff.mpr (tickPrice_pos lowInside)).le)
  · have lowValue : (tickPrice low).value = (precomputedPrices low.toNat).value := by
      rw [← tickPrice_natCast, Int.toNat_of_nonneg (by omega)]
    rw [lowValue, highValue]
    exact boundLe.trans (one_le_mul_of_one_le_of_one_le (one_le_precomputedPrices_value _)
      (one_le_precomputedPrices_value _))

theorem le_tickPrice_mul (lowInside : ¬ IsTickOutOfRange low)
    (highInside : ¬ IsTickOutOfRange high) (opposite : 0 ≤ low + high) :
    1 - 6 / 10 ^ 5 ≤ (tickPrice low).value * (tickPrice high).value := by
  refine le_tickPrice_mul_of (by norm_num) ?_ lowInside highInside opposite
  intro index positive inside
  have product := precomputedPrices_mul_reciprocal positive inside
  rw [Nat.add_zero]
  linarith

theorem one_le_tickPrice_mul (lowInside : ¬ IsTickOutOfRange low)
    (highInside : ¬ IsTickOutOfRange high) (apart : 2 ≤ low + high) :
    1 ≤ (tickPrice low).value * (tickPrice high).value := by
  refine le_tickPrice_mul_of (le_refl 1) ?_ lowInside highInside apart
  intro index positive inside
  have product := precomputedPrices_mul_reciprocal positive inside
  have first := precomputedPrices_succ_value index
  have second := precomputedPrices_succ_value (index + 1)
  have negative : -(index : Int) < 0 := by omega
  have priceNonneg : 0 ≤ (tickPrice (-index)).value :=
    value_nonneg_iff.mpr (tickPrice_pos (neg_inside inside)).le
  have priceLeOne : (tickPrice (-index)).value ≤ 1 := by
    rw [← value_onePrecDec, value_le_value_iff]
    exact tickPrice_le_one negative
  have twoTicks : (precomputedPrices index).value * (10002 / 10000) - 2 * smallest ≤
      (precomputedPrices (index + 2)).value := by
    have entryOne := one_le_precomputedPrices_value index
    have pos := smallest_pos
    linarith
  have scaled := mul_le_mul_of_nonneg_right twoTicks priceNonneg
  have small : smallest * (tickPrice (-index)).value ≤ smallest :=
    mul_le_of_le_one_right smallest_pos.le priceLeOne
  have tiny : (2 * smallest : ℚ) ≤ 1 / 10 ^ 5 := by norm_num [smallest]
  linarith

end Opposite

theorem tickPrice_near_growth {tick : Int} (inside : ¬ IsTickOutOfRange tick) :
    999 / 1000 * growth ^ tick ≤ (tickPrice tick).value ∧
      (tickPrice tick).value ≤ 1001 / 1000 * growth ^ tick := by
  have magnitude := not_lt.mp inside
  have tableUpper := precomputedPrices_le_growth tick.natAbs
  have tableLower := growth_le_precomputedPrices tick.natAbs
  have powerPos : 0 < growth ^ tick.natAbs := pow_pos growth_pos _
  have unit := smallest_pos
  have error : 5000 * smallest * growth ^ tick.natAbs ≤ 1 / 10 ^ 4 * growth ^ tick.natAbs :=
    mul_le_mul_of_nonneg_right (by norm_num [smallest]) powerPos.le
  rcases lt_or_ge tick 0 with negative | nonneg
  · have isNegative : tick = -(tick.natAbs : Int) := by omega
    have positive : 0 < tick.natAbs := by omega
    have entryPos : 0 < (precomputedPrices tick.natAbs).value :=
      value_pos_iff.mpr (precomputedPrices_pos _)
    have productLower := precomputedPrices_mul_reciprocal positive magnitude
    have rounded := quo_value_le (quo_precomputedPrices positive) (by decide)
      (precomputedPrices_pos _)
    rw [value_onePrecDec] at rounded
    have entryLe := precomputedPrices_value_le magnitude
    have productUpper : (precomputedPrices tick.natAbs).value *
        (tickPrice (-tick.natAbs)).value ≤ 1 + 52 / 10 ^ 6 := by
      have scaled := mul_le_mul_of_nonneg_left rounded entryPos.le
      rw [mul_add, mul_div_cancel₀ _ entryPos.ne'] at scaled
      have rounding : (precomputedPrices tick.natAbs).value * (smallest / 2) ≤
          103 * 10 ^ 21 * (smallest / 2) :=
        mul_le_mul_of_nonneg_right entryLe (by linarith)
      have small : (103 * 10 ^ 21 * (smallest / 2) : ℚ) ≤ 52 / 10 ^ 6 := by
        norm_num [smallest]
      linarith
    have priceNonneg : 0 ≤ (tickPrice (-tick.natAbs)).value :=
      value_nonneg_iff.mpr (tickPrice_pos (isNegative ▸ inside)).le
    have inverse : growth ^ tick = (growth ^ tick.natAbs)⁻¹ := by
      conv_lhs => rw [isNegative]
      rw [zpow_neg, zpow_natCast]
    rw [inverse, ← div_eq_mul_inv, ← div_eq_mul_inv, div_le_iff₀ powerPos, le_div_iff₀ powerPos]
    rw [← isNegative] at productLower productUpper priceNonneg
    generalize (tickPrice tick).value = price at *
    generalize growth ^ tick.natAbs = power at *
    generalize (precomputedPrices tick.natAbs).value = entry at *
    have near : 9998 / 10000 * (price * power) ≤ entry * price := by
      rw [mul_comm entry, mul_left_comm]
      exact mul_le_mul_of_nonneg_left (by linarith) priceNonneg
    have far : entry * price ≤ 10002 / 10000 * (price * power) := by
      rw [mul_comm entry, mul_left_comm]
      exact mul_le_mul_of_nonneg_left (by linarith) priceNonneg
    constructor <;> linarith
  · have isNatural : tick = (tick.natAbs : Int) := by omega
    have power : growth ^ tick = growth ^ tick.natAbs := by
      conv_lhs => rw [isNatural]
      rw [zpow_natCast]
    have price : tickPrice tick = precomputedPrices tick.natAbs := by
      conv_lhs => rw [isNatural]
      rw [tickPrice_natCast]
    rw [power, price]
    constructor <;> linarith

section Products

variable {first second sum : Int} (firstInside : ¬ IsTickOutOfRange first)
  (secondInside : ¬ IsTickOutOfRange second) (sumInside : ¬ IsTickOutOfRange sum)
include firstInside secondInside sumInside

theorem tickPrice_mul_le (ordered : first + second ≤ sum) :
    (tickPrice first).value * (tickPrice second).value ≤
      1004 / 1000 * (tickPrice sum).value := by
  have firstLe := (tickPrice_near_growth firstInside).2
  have secondLe := (tickPrice_near_growth secondInside).2
  have leSum := (tickPrice_near_growth sumInside).1
  have grows : growth ^ (first + second) ≤ growth ^ sum :=
    zpow_le_zpow_right₀ (by norm_num [growth]) ordered
  rw [zpow_add₀ growth_pos.ne'] at grows
  have firstPos : 0 < growth ^ first := zpow_pos growth_pos _
  have sumPos : 0 < growth ^ sum := zpow_pos growth_pos _
  calc (tickPrice first).value * (tickPrice second).value
      ≤ (1001 / 1000 * growth ^ first) * (1001 / 1000 * growth ^ second) :=
        mul_le_mul firstLe secondLe (value_pos_iff.mpr (tickPrice_pos secondInside)).le
          (by linarith)
    _ = (1001 / 1000) ^ 2 * (growth ^ first * growth ^ second) := by ring
    _ ≤ (1001 / 1000) ^ 2 * growth ^ sum := mul_le_mul_of_nonneg_left grows (by norm_num)
    _ ≤ 1004 / 1000 * (tickPrice sum).value := by linarith

theorem tickPrice_le_mul (ordered : sum ≤ first + second) :
    (tickPrice sum).value ≤
      1004 / 1000 * ((tickPrice first).value * (tickPrice second).value) := by
  have leFirst := (tickPrice_near_growth firstInside).1
  have leSecond := (tickPrice_near_growth secondInside).1
  have sumLe := (tickPrice_near_growth sumInside).2
  have grows : growth ^ sum ≤ growth ^ (first + second) :=
    zpow_le_zpow_right₀ (by norm_num [growth]) ordered
  rw [zpow_add₀ growth_pos.ne'] at grows
  have firstPos : 0 < growth ^ first := zpow_pos growth_pos _
  have secondPos : 0 < growth ^ second := zpow_pos growth_pos _
  have product : (999 / 1000) ^ 2 * (growth ^ first * growth ^ second) ≤
      (tickPrice first).value * (tickPrice second).value := by
    calc (999 / 1000) ^ 2 * (growth ^ first * growth ^ second)
        = (999 / 1000 * growth ^ first) * (999 / 1000 * growth ^ second) := by ring
      _ ≤ _ := mul_le_mul leFirst leSecond (by linarith)
          (value_pos_iff.mpr (tickPrice_pos firstInside)).le
  have productPos := mul_pos firstPos secondPos
  linarith

end Products

end Neutron.Dex
