import Mathlib.Tactic.Positivity
import Neutron.Dex.DepositSwaps
import Neutron.Dex.ShareValue
import Neutron.Dex.TickInverse

namespace Neutron.Dex

open Library PrecDec

section Residuals

variable {price reserves0 reserves1 amount0 amount1 converted : PrecDec}

/-- Bounds of `CalcAutoswapAmount`, by whole amounts that the deposit does not exceed. -/
structure AutoswapBounded (price reserves0 reserves1 amount0 amount1 converted : PrecDec)
    (whole0 whole1 : Int) (residual0 residual1 : PrecDec) : Prop where
  nonneg0 : 0 ≤ residual0.i
  nonneg1 : 0 ≤ residual1.i
  oneSided : residual0 = zeroPrecDec ∨ residual1 = zeroPrecDec
  le_whole1 : residual1.i ≤ (newPrecDecFromInt whole1).i
  needs0 : 0 < residual1.i → 0 < reserves0.i ∧ 0 < amount1.i
  needs1 : 0 < residual0.i → 0 < reserves1.i ∧ 0 < amount0.i
  le_whole0 : 0 < reserves0.i → residual0.i ≤ (newPrecDecFromInt whole0).i
  value_le : reserves0.i = 0 → 0 < residual0.i →
    residual0.value ≤ reserves1.value * whole0 / (converted.value * price.value) +
      smallest / 2 / price.value + smallest / 2

theorem AutoswapBounded.none {whole0 whole1 : Int} (whole0Nonneg : 0 ≤ whole0)
    (whole1Nonneg : 0 ≤ whole1) :
    AutoswapBounded price reserves0 reserves1 amount0 amount1 converted whole0 whole1 zeroPrecDec
      zeroPrecDec where
  nonneg0 := le_refl _
  nonneg1 := le_refl _
  oneSided := .inl rfl
  le_whole1 := newPrecDecFromInt_nonneg whole1Nonneg
  needs0 := fun positive => absurd positive (lt_irrefl _)
  needs1 := fun positive => absurd positive (lt_irrefl _)
  le_whole0 := fun _ => newPrecDecFromInt_nonneg whole0Nonneg
  value_le := fun _ positive => absurd positive (lt_irrefl _)

theorem reserves1_le (pricePositive : 0 < price.i) (nonneg1 : 0 ≤ reserves1.i)
    (conversion : reserves1.quo price = .ok converted) :
    reserves1.i * precisionReuse ≤ price.i * (converted.i + 1) := by
  have rounded := lt_mul_quo conversion nonneg1 pricePositive
  have unitValue : (precisionReuse : Int) = 10 ^ 27 := by decide
  have halfValue : (fivePrecision : Int) = 5 * 10 ^ 26 := by decide
  rw [Nat.cast_mul, unitValue, halfValue] at rounded
  rw [unitValue]
  have room : price.i * (10 ^ 27 * converted.i + 5 * 10 ^ 26) + price.i ≤
      10 ^ 27 * (price.i * (converted.i + 1)) := by
    have half : price.i * (5 * 10 ^ 26 + 1) ≤ price.i * 10 ^ 27 :=
      Int.mul_le_mul_of_nonneg_left (by norm_num) pricePositive.le
    linarith
  have scaled : 10 ^ 27 * (reserves1.i * 10 ^ 27) ≤
      10 ^ 27 * (price.i * (converted.i + 1)) := by
    linarith
  exact le_of_mul_le_mul_left scaled (by norm_num)

theorem pos_of_mul_pos {left right : PrecDec} (positive : 0 < (left.mul right).i)
    (leftNonneg : 0 ≤ left.i) (rightNonneg : 0 ≤ right.i) : 0 < left.i ∧ 0 < right.i := by
  have nonzero : left.i * right.i ≠ 0 := by
    intro zero
    change 0 < chopPrecisionAndRound (left.i * right.i) at positive
    rw [zero] at positive
    exact absurd positive (by decide)
  rw [Int.mul_ne_zero_iff] at nonzero
  omega

theorem swapAmount_le_whole1 {excess total swapAmount : PrecDec} {whole1 : Int}
    (reserves0Nonneg : 0 ≤ reserves0.i) (amount1Nonneg : 0 ≤ amount1.i)
    (le1 : amount1.i ≤ (newPrecDecFromInt whole1).i) (whole1Nonneg : 0 ≤ whole1)
    (excessLe : excess.i ≤ (reserves0.mul amount1).i) (reserves0Le : reserves0.i ≤ total.i)
    (totalPositive : 0 < total.i) (division : excess.quo total = .ok swapAmount)
    (positive : 0 < swapAmount.i) :
    (0 < reserves0.i ∧ 0 < amount1.i) ∧
      swapAmount.ceil.i ≤ (newPrecDecFromInt whole1).i := by
  have excessPositive : 0 < excess.i := by
    by_contra notPositive
    have nonpos := quo_nonpos division (not_lt.mp notPositive) totalPositive.le
    omega
  have productLe := mul_mono reserves0Nonneg amount1Nonneg le1
  rw [mul_newPrecDecFromInt reserves0Nonneg whole1Nonneg] at productLe
  refine ⟨pos_of_mul_pos (by omega) reserves0Nonneg amount1Nonneg, ceil_le positive.le ?_⟩
  apply quo_le_of_mul_le division excessPositive.le totalPositive
    (newPrecDecFromInt_nonneg whole1Nonneg)
  rw [newPrecDecFromInt_i, ← mul_assoc]
  apply Int.mul_le_mul_of_nonneg_right _ (Int.natCast_nonneg _)
  calc excess.i ≤ reserves0.i * whole1 := by omega
    _ ≤ total.i * whole1 := Int.mul_le_mul_of_nonneg_right reserves0Le whole1Nonneg

theorem swapped0_bounds {excess total swapAmount residual0 : PrecDec} {whole0 : Int}
    (pricePositive : 0 < price.i) (reserves1Nonneg : 0 ≤ reserves1.i)
    (amount0Nonneg : 0 ≤ amount0.i) (le0 : amount0.i ≤ (newPrecDecFromInt whole0).i)
    (whole0Nonneg : 0 ≤ whole0) (conversion : reserves1.quo price = .ok converted)
    (excessLe : excess.i ≤ (reserves1.mul amount0).i) (totalPositive : 0 < total.i)
    (division : excess.quo total = .ok swapAmount) (positive : 0 < swapAmount.i)
    (back : swapAmount.quo price = .ok residual0) :
    (0 < reserves1.i ∧ 0 < amount0.i) ∧
      (converted.i + 1 ≤ total.i → residual0.i ≤ (newPrecDecFromInt whole0).i) ∧
      (total = converted →
        residual0.value ≤ reserves1.value * whole0 / (converted.value * price.value) +
          smallest / 2 / price.value + smallest / 2) := by
  have excessPositive : 0 < excess.i := by
    by_contra notPositive
    have nonpos := quo_nonpos division (not_lt.mp notPositive) totalPositive.le
    omega
  have productLe := mul_mono reserves1Nonneg amount0Nonneg le0
  rw [mul_newPrecDecFromInt reserves1Nonneg whole0Nonneg] at productLe
  have excessBound : excess.i ≤ reserves1.i * whole0 := by omega
  refine ⟨pos_of_mul_pos (by omega) reserves1Nonneg amount0Nonneg, fun roomy => ?_,
    fun isConverted => ?_⟩
  · have swapLe : swapAmount.i ≤ (price.mulInt whole0).i := by
      apply quo_le_of_mul_le division excessPositive.le totalPositive
        (mulInt_nonneg pricePositive.le whole0Nonneg)
      have worth := reserves1_le pricePositive reserves1Nonneg conversion
      rw [mulInt_i]
      calc excess.i * precisionReuse ≤ reserves1.i * whole0 * precisionReuse :=
            Int.mul_le_mul_of_nonneg_right excessBound (Int.natCast_nonneg _)
        _ = reserves1.i * precisionReuse * whole0 := by ring
        _ ≤ price.i * (converted.i + 1) * whole0 :=
            Int.mul_le_mul_of_nonneg_right worth whole0Nonneg
        _ ≤ price.i * total.i * whole0 :=
            Int.mul_le_mul_of_nonneg_right
              (Int.mul_le_mul_of_nonneg_left roomy pricePositive.le) whole0Nonneg
        _ = total.i * (price.i * whole0) := by ring
    apply quo_le_of_mul_le back positive.le pricePositive
      (newPrecDecFromInt_nonneg whole0Nonneg)
    rw [newPrecDecFromInt_i, ← mul_assoc]
    exact Int.mul_le_mul_of_nonneg_right swapLe (Int.natCast_nonneg _)
  · have priceValue := value_pos_iff.mpr pricePositive
    have swapLe := quo_value_le division excessPositive.le totalPositive
    have residualLe := quo_value_le back positive.le pricePositive
    have excessValue : excess.value ≤ reserves1.value * whole0 := by
      rw [← value_mulInt, value_le_value_iff]
      exact excessBound
    rw [isConverted] at swapLe totalPositive
    have convertedValue := value_pos_iff.mpr totalPositive
    calc residual0.value ≤ swapAmount.value / price.value + smallest / 2 := residualLe
      _ ≤ (reserves1.value * whole0 / converted.value + smallest / 2) / price.value +
            smallest / 2 := by
          gcongr
          exact swapLe.trans (by gcongr)
      _ = _ := by rw [add_div, div_div]

theorem calcAutoswapAmount_bounded {whole0 whole1 : Int} (pricePositive : 0 < price.i)
    (reserves0Nonneg : 0 ≤ reserves0.i) (reserves1Nonneg : 0 ≤ reserves1.i)
    (amount0Nonneg : 0 ≤ amount0.i) (amount1Nonneg : 0 ≤ amount1.i)
    (whole0Nonneg : 0 ≤ whole0) (whole1Nonneg : 0 ≤ whole1)
    (le0 : amount0.i ≤ (newPrecDecFromInt whole0).i)
    (le1 : amount1.i ≤ (newPrecDecFromInt whole1).i)
    (conversion : reserves1.quo price = .ok converted)
    (valued : reserves1.i = 0 ∨ 0 < (reserves0 + converted).i) :
    ∃ residual0 residual1,
      calcAutoswapAmount reserves0 reserves1 amount0 amount1 price =
          .ok (residual0, residual1) ∧
        AutoswapBounded price reserves0 reserves1 amount0 amount1 converted whole0 whole1 residual0
          residual1 := by
  unfold calcAutoswapAmount
  split
  · exact ⟨_, _, rfl, .none whole0Nonneg whole1Nonneg⟩
  · rename_i notEmpty
    have convertedNonneg := quo_nonneg conversion reserves1Nonneg pricePositive.le
    have totalPositive : 0 < (reserves0 + converted).i := by
      rcases valued with none1 | positive
      · have some0 : reserves0.i ≠ 0 := fun none0 => notEmpty ⟨none0, none1⟩
        rw [add_i]
        omega
      · exact positive
    obtain ⟨swapAmount, division⟩ : ∃ swapAmount,
        (reserves0.mul amount1 - reserves1.mul amount0).quo (reserves0 + converted) =
          .ok swapAmount :=
      ⟨_, if_neg (ne_of_gt totalPositive)⟩
    rw [conversion, Outcome.ok_bind, division, Outcome.ok_bind]
    have product0 := PrecDec.mul_nonneg reserves0Nonneg amount1Nonneg
    have product1 := PrecDec.mul_nonneg reserves1Nonneg amount0Nonneg
    split
    · exact ⟨_, _, rfl, .none whole0Nonneg whole1Nonneg⟩
    · rename_i nonzero
      split
      · rename_i positive
        obtain ⟨some0, ceilLe⟩ := swapAmount_le_whole1 reserves0Nonneg amount1Nonneg le1
          whole1Nonneg (by rw [sub_i]; omega) (by rw [add_i]; omega) totalPositive division
          positive
        exact ⟨_, _, rfl, {
          nonneg0 := le_refl _
          nonneg1 := ceil_nonneg (le_of_lt positive)
          oneSided := .inl rfl
          le_whole1 := ceilLe
          needs0 := fun _ => some0
          needs1 := fun positive => absurd positive (lt_irrefl _)
          le_whole0 := fun _ => newPrecDecFromInt_nonneg whole0Nonneg
          value_le := fun _ positive => absurd positive (lt_irrefl _) }⟩
      · rename_i notPositive
        have negative : 0 < (-swapAmount).i := by
          have nonpos := not_lt.mp notPositive
          have notZero : swapAmount.i ≠ 0 := nonzero
          rw [neg_i]
          omega
        obtain ⟨residual0, back⟩ : ∃ residual0, (-swapAmount).quo price = .ok residual0 :=
          ⟨_, if_neg (ne_of_gt pricePositive)⟩
        obtain ⟨needs1, roomy, exact0⟩ := swapped0_bounds pricePositive reserves1Nonneg
          amount0Nonneg le0 whole0Nonneg conversion (by rw [neg_i, sub_i]; omega)
          totalPositive (quo_neg division) negative back
        dsimp only
        rw [back, Outcome.ok_bind]
        exact ⟨_, _, rfl, {
          nonneg0 := quo_nonneg back negative.le pricePositive.le
          nonneg1 := le_refl _
          oneSided := .inr rfl
          le_whole1 := newPrecDecFromInt_nonneg whole1Nonneg
          needs0 := fun positive => absurd positive (lt_irrefl _)
          needs1 := fun _ => needs1
          le_whole0 := fun some0 => roomy (by rw [add_i]; omega)
          value_le := fun none0 _ => exact0 (PrecDec.ext (by rw [add_i, none0, zero_add])) }⟩

end Residuals

/-! ### The fee and the worth of the deposit -/

section Fees

variable {feePrice price whole left residual fee full : ℚ}

/-- How much more than the deposit may be charged for, at the price of a fee, without the
fee being more than the deposit. -/
structure Bearable (feePrice ratio : ℚ) : Prop where
  left : (1 - feePrice) * ratio ≤ 1 - feePrice / 8
  swapped : feePrice * ((1 - feePrice) * ratio) ≤ 497 / 1000 - feePrice ^ 2 / 8

theorem exists_swapped (feePos : 0 < feePrice) (leftLe : left ≤ whole) :
    ∃ swapped, swapped = (whole - left) / feePrice ∧ whole = left + swapped * feePrice ∧
      0 ≤ swapped := by
  refine ⟨_, rfl, ?_, div_nonneg (by linarith) feePos.le⟩
  rw [div_mul_cancel₀ _ feePos.ne']
  ring

theorem fee_le_of_token0 {ratio : ℚ} (feePos : 0 < feePrice) (feeLeOne : feePrice ≤ 1)
    (pricePos : 0 < price) (product : 9 / 10 ^ 24 ≤ feePrice * price)
    (least : 9 / 10 ^ 24 ≤ feePrice) (wholeOne : 1 ≤ whole) (leftNonneg : 0 ≤ left)
    (leftLe : left ≤ whole) (bearable : Bearable feePrice ratio)
    (residualLe : residual ≤ whole * ratio + smallest / 2 / price + smallest / 2)
    (feeLe : fee ≤ (1 - feePrice) * residual + smallest / 2)
    (worth : left + 497 / 1000 * ((whole - left) / feePrice) ≤ full + smallest) :
    fee ≤ full := by
  have roundedBack : smallest / 2 / price ≤ feePrice / 10 ^ 3 := by
    rw [div_le_iff₀ pricePos]
    have small : smallest / 2 ≤ 9 / 10 ^ 24 / 10 ^ 3 := by norm_num [smallest]
    linarith
  have unitLe : smallest ≤ feePrice / 10 ^ 3 := by
    have small : smallest ≤ 9 / 10 ^ 24 / 10 ^ 3 := by norm_num [smallest]
    linarith
  obtain ⟨swapped, isSwapped, whole_eq, swappedNonneg⟩ := exists_swapped feePos leftLe
  rw [← isSwapped] at worth
  have charged : (1 - feePrice) * residual ≤
      (1 - feePrice) * (whole * ratio) + 2 * (feePrice / 10 ^ 3) := by
    have bound : (1 - feePrice) * residual ≤ (1 - feePrice) *
        (whole * ratio + 2 * (feePrice / 10 ^ 3)) :=
      mul_le_mul_of_nonneg_left (by linarith) (by linarith)
    have rounding : 0 ≤ feePrice * (2 * (feePrice / 10 ^ 3)) := by positivity
    linarith
  -- What is left pays a part of the fee's price at least, what was swapped pays more.
  have paidByLeft := mul_le_mul_of_nonneg_left bearable.left leftNonneg
  have paidBySwapped := mul_le_mul_of_nonneg_left bearable.swapped swappedNonneg
  have margin : feePrice / 8 ≤ feePrice / 8 * whole := by
    calc feePrice / 8 = feePrice / 8 * 1 := (mul_one _).symm
      _ ≤ feePrice / 8 * whole := mul_le_mul_of_nonneg_left wholeOne (by linarith)
  rw [whole_eq] at charged margin
  linarith

theorem bearable_half (feePos : 0 < feePrice) :
    Bearable feePrice (1 + feePrice / 2) where
  left := by
    have square := sq_nonneg feePrice
    linarith
  swapped := by
    have tangent : 0 ≤ (feePrice - 2 / 3) ^ 2 * (feePrice / 2 + 11 / 12) := by positivity
    have square := sq_nonneg feePrice
    linarith

theorem fee_le_of_token1 (feePos : 0 < feePrice) (feeLeOne : feePrice ≤ 1)
    (pricePos : 0 < price) (ratio : 9 / 10 ^ 24 * price ≤ feePrice)
    (wholeOne : 1 ≤ whole) (leftNonneg : 0 ≤ left) (leftLe : left ≤ whole)
    (residualLe : residual ≤ whole / price + smallest / 2)
    (feeLe : fee ≤ (1 - feePrice) * residual + smallest / 2)
    (worth : (left + 497 / 1000 * ((whole - left) / feePrice)) / price ≤ full + smallest) :
    fee ≤ full := by
  have unitLe : 2 * smallest * price ≤ feePrice / 10 ^ 3 := by
    have small : 2 * smallest * price ≤ 9 / 10 ^ 24 / 10 ^ 3 * price :=
      mul_le_mul_of_nonneg_right (by norm_num [smallest]) pricePos.le
    linarith
  obtain ⟨swapped, isSwapped, whole_eq, swappedNonneg⟩ := exists_swapped feePos leftLe
  rw [← isSwapped, div_le_iff₀ pricePos] at worth
  have unit := smallest_pos
  have charged : fee ≤ (1 - feePrice) * (whole / price) + smallest := by
    have bound : (1 - feePrice) * residual ≤ (1 - feePrice) * (whole / price + smallest / 2) :=
      mul_le_mul_of_nonneg_left residualLe (by linarith)
    have rounding : 0 ≤ feePrice * (smallest / 2) := by positivity
    linarith
  have chargedInToken1 : fee * price ≤ (1 - feePrice) * whole + smallest * price := by
    have scaled := mul_le_mul_of_nonneg_right charged pricePos.le
    rw [add_mul, mul_assoc, div_mul_cancel₀ _ pricePos.ne'] at scaled
    exact scaled
  have paidBySwapped : swapped * (feePrice * (1 - feePrice)) ≤
      swapped * (497 / 1000 - feePrice ^ 2 / 4) := by
    apply mul_le_mul_of_nonneg_left _ swappedNonneg
    have square : 0 ≤ (feePrice - 2 / 3) ^ 2 := sq_nonneg _
    linarith
  have paidByLeft : left * (feePrice / 4) ≤ left * feePrice :=
    mul_le_mul_of_nonneg_left (by linarith) leftNonneg
  have margin : feePrice / 4 ≤ feePrice / 4 * whole := by
    calc feePrice / 4 = feePrice / 4 * 1 := (mul_one _).symm
      _ ≤ feePrice / 4 * whole := mul_le_mul_of_nonneg_left wholeOne (by linarith)
  rw [whole_eq] at chargedInToken1 margin
  have inToken1 : fee * price ≤ full * price := by linarith
  exact le_of_mul_le_mul_right inToken1 pricePos

end Fees

namespace Pool

variable {pool : Pool} {amount0 amount1 : PrecDec}

/-- The fee of a deposit with autoswap is computed, is neither negative nor more than
the deposit counts for, and no negative shares are minted. -/
def AutoswapCovered (pool : Pool) (amount0 amount1 : PrecDec) : Prop :=
  ∃ fullValue autoswapFee,
    calcAmountAsToken0 amount0 amount1 pool.centerPrice = .ok fullValue ∧
    pool.calcDepositAmounts amount0 amount1 true =
      .ok (amount0, amount1, fullValue - autoswapFee, autoswapFee) ∧
    0 ≤ autoswapFee.i ∧ autoswapFee.i ≤ fullValue.i ∧
    ∀ existingShares, 0 ≤ existingShares →
      ∃ minted, pool.calcSharesMinted (fullValue - autoswapFee) existingShares autoswapFee =
        .ok minted ∧ 0 ≤ minted.amount

def feePrice (pool : Pool) : PrecDec := tickPrice (-(pool.fee : Int))

theorem calcAmountAsToken0_total {price : PrecDec} (positive : 0 < price.i)
    (amount0 amount1 : PrecDec) :
    ∃ converted, amount1.quo price = .ok converted ∧
      calcAmountAsToken0 amount0 amount1 price = .ok (amount0 + converted) := by
  obtain ⟨converted, division⟩ : ∃ converted, amount1.quo price = .ok converted :=
    ⟨_, if_neg (ne_of_gt positive)⟩
  refine ⟨converted, division, ?_⟩
  unfold calcAmountAsToken0
  rw [division]
  rfl

theorem truncateInt_nonneg {amount : PrecDec} (nonneg : 0 ≤ amount.i) :
    0 ≤ amount.truncateInt :=
  Int.tdiv_nonneg nonneg (Int.natCast_nonneg _)

theorem Proper.calcSharesMinted_nonneg (proper : pool.Proper) {value fee : PrecDec}
    {existingShares : Int} (valueNonneg : 0 ≤ value.i) (feeNonneg : 0 ≤ fee.i)
    (existing : 0 ≤ existingShares) :
    ∃ minted, pool.calcSharesMinted value existingShares fee = .ok minted ∧
      0 ≤ minted.amount := by
  obtain ⟨converted, division, valued⟩ := calcAmountAsToken0_total proper.centerPrice_pos
    pool.lowerTick0.decReservesMakerDenom pool.upperTick1.decReservesMakerDenom
  unfold calcSharesMinted
  rw [proper.mustCalcPrice1To0Center_eq, Outcome.ok_bind, valued, Outcome.ok_bind]
  unfold calcSharesMintedAmount
  dsimp only
  split
  · rename_i valuable
    have totalPositive : 0 < (pool.lowerTick0.decReservesMakerDenom + converted + fee).i := by
      rw [add_i]
      exact Int.add_pos_of_pos_of_nonneg valuable feeNonneg
    obtain ⟨shares, sharesDivision⟩ : ∃ shares, (value.mulInt existingShares).quo
        (pool.lowerTick0.decReservesMakerDenom + converted + fee) = .ok shares :=
      ⟨_, if_neg (ne_of_gt totalPositive)⟩
    rw [sharesDivision]
    exact ⟨_, rfl, truncateInt_nonneg (quo_nonneg sharesDivision
      (mulInt_nonneg valueNonneg existing) totalPositive.le)⟩
  · exact ⟨_, rfl, truncateInt_nonneg valueNonneg⟩

theorem feePrice_le_one : pool.feePrice.i ≤ precisionReuse :=
  tickPrice_mono (show -(pool.fee : Int) ≤ 0 by omega)

theorem feePrice_value_le_one : pool.feePrice.value ≤ 1 := by
  rw [← value_onePrecDec, value_le_value_iff]
  exact feePrice_le_one

namespace Proper

variable (proper : pool.Proper)
include proper

theorem feeInside : ¬ IsTickOutOfRange (-(pool.fee : Int)) := by
  have bounds := validateTickFee_eq_ok_iff.mp proper.valid
  unfold IsTickOutOfRange
  omega

theorem calcAutoswapFee_eq (value : PrecDec) :
    pool.calcAutoswapFee value = .ok ((onePrecDec - pool.feePrice).mul value) := by
  unfold calcAutoswapFee
  rw [mustCalcPrice_eq_ok_iff.mpr ⟨proper.feeInside, rfl⟩]
  rfl

theorem feePrice_pos : 0 < pool.feePrice.value :=
  value_pos_iff.mpr (tickPrice_pos proper.feeInside)

theorem prices_bounded :
    9 / 10 ^ 24 ≤ pool.feePrice.value ∧
      9 / 10 ^ 24 ≤ pool.feePrice.value * pool.centerPrice.value ∧
      9 / 10 ^ 24 * pool.centerPrice.value ≤ pool.feePrice.value := by
  obtain ⟨_, bounds⟩ := validateTickFee_eq_ok_iff.mp proper.valid
  have lastInside : ¬ IsTickOutOfRange (-(maxTickExp : Nat)) := by decide
  have last := tickPrice_neg_maxTickExp
  have centerPos := value_pos_iff.mpr proper.centerPrice_pos
  have lastValue : (9906 * smallest : ℚ) = 9906 / 10 ^ 27 := by norm_num [smallest]
  rw [lastValue] at last
  refine ⟨?_, ?_, ?_⟩
  · have ordered : (tickPrice (-(maxTickExp : Nat))).i ≤ pool.feePrice.i :=
      tickPrice_mono (by omega)
    have least := value_le_value_iff.mpr ordered
    rw [last] at least
    linarith
  · have product := tickPrice_le_mul proper.feeInside proper.centerInside lastInside
      (by omega)
    rw [last] at product
    change _ ≤ 1004 / 1000 * (pool.feePrice.value * pool.centerPrice.value) at product
    linarith
  · have product := tickPrice_mul_le lastInside proper.centerInside proper.feeInside
      (by omega)
    rw [last] at product
    change _ * pool.centerPrice.value ≤ 1004 / 1000 * pool.feePrice.value at product
    linarith

theorem autoswapCovered_of {residual0 residual1 : PrecDec}
    (residuals : calcAutoswapAmount pool.lowerTick0.decReservesMakerDenom
      pool.upperTick1.decReservesMakerDenom amount0 amount1 pool.centerPrice =
        .ok (residual0, residual1))
    (residual0Nonneg : 0 ≤ residual0.i) (residual1Nonneg : 0 ≤ residual1.i)
    (covers : ∀ residualConverted converted,
      residual1.quo pool.centerPrice = .ok residualConverted →
      amount1.quo pool.centerPrice = .ok converted →
      ((onePrecDec - pool.feePrice).mul (residual0 + residualConverted)).i ≤
        (amount0 + converted).i) :
    pool.AutoswapCovered amount0 amount1 := by
  obtain ⟨residualConverted, residualDivision, residualValued⟩ :=
    calcAmountAsToken0_total proper.centerPrice_pos residual0 residual1
  obtain ⟨converted, division, valued⟩ :=
    calcAmountAsToken0_total proper.centerPrice_pos amount0 amount1
  have covered := covers residualConverted converted residualDivision division
  have residualConvertedNonneg :=
    quo_nonneg residualDivision residual1Nonneg proper.centerPrice_pos.le
  have feeNonneg : 0 ≤
      ((onePrecDec - pool.feePrice).mul (residual0 + residualConverted)).i := by
    apply PrecDec.mul_nonneg
    · have leOne := @feePrice_le_one pool
      rw [sub_i, onePrecDec_i]
      omega
    · rw [add_i]
      omega
  refine ⟨amount0 + converted, _, valued, ?_, feeNonneg, covered, fun existingShares existing =>
    proper.calcSharesMinted_nonneg ?_ feeNonneg existing⟩
  · unfold calcDepositAmounts
    rw [proper.mustCalcPrice1To0Center_eq, Outcome.ok_bind]
    dsimp only
    rw [if_pos rfl, residuals, Outcome.ok_bind]
    dsimp only
    rw [residualValued, Outcome.ok_bind, proper.calcAutoswapFee_eq, Outcome.ok_bind, valued,
      Outcome.ok_bind]
    rfl
  · rw [sub_i]
    omega

end Proper

/-- The reserves of a pool that has no `token0` are worth something. -/
def ConvertsReserves (pool : Pool) : Prop :=
  pool.lowerTick0.decReservesMakerDenom ≠ zeroPrecDec ∨
    pool.upperTick1.decReservesMakerDenom = zeroPrecDec ∨
    ∃ converted, pool.upperTick1.decReservesMakerDenom.quo pool.centerPrice = .ok converted ∧
      0 < converted.i

/-- The reserves of `token1` keep their worth, up to half of the fee's price, when they
are converted to `token0`; this matters in pools that have no `token0`. -/
def ValuesReserves (pool : Pool) (amount0 : PrecDec) : Prop :=
  pool.lowerTick0.decReservesMakerDenom ≠ zeroPrecDec ∨
    pool.upperTick1.decReservesMakerDenom = zeroPrecDec ∨
    ∃ converted, pool.upperTick1.decReservesMakerDenom.quo pool.centerPrice = .ok converted ∧
      0 < converted.i ∧
      (pool.fee = 0 ∨ amount0 = zeroPrecDec ∨
        pool.upperTick1.decReservesMakerDenom.value ≤
          converted.value * pool.centerPrice.value * (1 + pool.feePrice.value / 2))

def WorthWithin (pool : Pool) (ratio : ℚ) (amount0 : PrecDec) : Prop :=
  pool.lowerTick0.decReservesMakerDenom ≠ zeroPrecDec ∨
    pool.upperTick1.decReservesMakerDenom = zeroPrecDec ∨
    ∃ converted, pool.upperTick1.decReservesMakerDenom.quo pool.centerPrice = .ok converted ∧
      0 < converted.i ∧
      (pool.fee = 0 ∨ amount0 = zeroPrecDec ∨
        pool.upperTick1.decReservesMakerDenom.value ≤
          converted.value * pool.centerPrice.value * ratio)

theorem feePrice_eq_one (free : pool.fee = 0) : pool.feePrice = onePrecDec := by
  unfold feePrice
  rw [free]
  rfl

theorem fee_nonneg_part : 0 ≤ (onePrecDec - pool.feePrice).i := by
  have leOne := @feePrice_le_one pool
  rw [sub_i, onePrecDec_i]
  omega

theorem fee_le_residual {residual : PrecDec} (nonneg : 0 ≤ residual.i) (proper : pool.Proper) :
    ((onePrecDec - pool.feePrice).mul residual).i ≤ residual.i := by
  apply mul_le_of_le_one fee_nonneg_part nonneg
  have positive := value_pos_iff.mp proper.feePrice_pos
  rw [sub_i, onePrecDec_i]
  omega

theorem fee_value_le {residual : PrecDec} (nonneg : 0 ≤ residual.i) :
    ((onePrecDec - pool.feePrice).mul residual).value ≤
      (1 - pool.feePrice.value) * residual.value + smallest / 2 := by
  have rounded := mul_value_le (@fee_nonneg_part pool) nonneg
  rwa [value_sub, value_onePrecDec] at rounded

theorem quo_zero {price result : PrecDec} (computed : zeroPrecDec.quo price = .ok result)
    (positive : 0 < price.i) : result = zeroPrecDec :=
  PrecDec.ext (le_antisymm (quo_nonpos computed (le_refl _) positive.le)
    (quo_nonneg computed (le_refl _) positive.le))

theorem quo_mono {left greater price result greaterResult : PrecDec}
    (computed : left.quo price = .ok result)
    (greaterComputed : greater.quo price = .ok greaterResult) (nonneg : 0 ≤ left.i)
    (positive : 0 < price.i) (ordered : left.i ≤ greater.i) : result.i ≤ greaterResult.i := by
  have unitNonneg := Int.natCast_nonneg (precisionReuse * precisionReuse)
  have scaledNonneg := Int.mul_nonneg nonneg unitNonneg
  have scaled := Int.mul_le_mul_of_nonneg_right ordered unitNonneg
  rw [(quo_eq_ok_iff.mp computed).2, (quo_eq_ok_iff.mp greaterComputed).2,
    Int.tdiv_eq_ediv_of_nonneg scaledNonneg,
    Int.tdiv_eq_ediv_of_nonneg (scaledNonneg.trans scaled)]
  exact chopPrecisionAndRound_mono (Int.ediv_nonneg scaledNonneg positive.le)
    (Int.ediv_le_ediv positive scaled)

theorem Proper.residuals_bounded (proper : pool.Proper) {ratio : ℚ} (nonneg0 : 0 ≤ amount0.i)
    (nonneg1 : 0 ≤ amount1.i) (values : pool.WorthWithin ratio amount0) {whole0 whole1 : Int}
    (whole0Nonneg : 0 ≤ whole0) (whole1Nonneg : 0 ≤ whole1)
    (le0 : amount0.i ≤ (newPrecDecFromInt whole0).i)
    (le1 : amount1.i ≤ (newPrecDecFromInt whole1).i) :
    ∃ converted residual0 residual1,
      calcAutoswapAmount pool.lowerTick0.decReservesMakerDenom
          pool.upperTick1.decReservesMakerDenom amount0 amount1 pool.centerPrice =
        .ok (residual0, residual1) ∧
      AutoswapBounded pool.centerPrice pool.lowerTick0.decReservesMakerDenom
        pool.upperTick1.decReservesMakerDenom amount0 amount1 converted whole0 whole1
        residual0 residual1 ∧
      (pool.lowerTick0.decReservesMakerDenom.i = 0 → 0 < residual0.i → pool.fee ≠ 0 →
        residual0.value ≤ whole0 * ratio + smallest / 2 / pool.centerPrice.value +
          smallest / 2) := by
  have pricePositive := proper.centerPrice_pos
  obtain ⟨converted, conversion⟩ : ∃ converted,
      pool.upperTick1.decReservesMakerDenom.quo pool.centerPrice = .ok converted :=
    ⟨_, if_neg (ne_of_gt pricePositive)⟩
  have convertedNonneg := quo_nonneg conversion proper.upperNonneg pricePositive.le
  have lowerNonneg := proper.lowerNonneg
  have valued : pool.upperTick1.decReservesMakerDenom.i = 0 ∨
      0 < (pool.lowerTick0.decReservesMakerDenom + converted).i := by
    rcases values with some0 | none1 | ⟨other, again, positive, _⟩
    · have nonzero : pool.lowerTick0.decReservesMakerDenom.i ≠ 0 :=
        fun zero => some0 (PrecDec.ext zero)
      rw [add_i]
      omega
    · rw [none1]
      exact .inl rfl
    · cases conversion.symm.trans again
      rw [add_i]
      omega
  obtain ⟨residual0, residual1, residuals, bounded⟩ := calcAutoswapAmount_bounded
    pricePositive lowerNonneg proper.upperNonneg nonneg0 nonneg1 whole0Nonneg whole1Nonneg
    le0 le1 conversion valued
  refine ⟨converted, residual0, residual1, residuals, bounded, fun none0 positive charged => ?_⟩
  obtain ⟨some1, deposited⟩ := bounded.needs1 positive
  rcases values with some0 | none1 | ⟨other, again, convertedPositive, free | nothing | kept⟩
  · exact absurd (PrecDec.ext none0) some0
  · rw [none1] at some1
    exact absurd some1 (lt_irrefl _)
  · exact absurd free charged
  · rw [nothing] at deposited
    exact absurd deposited (lt_irrefl _)
  · cases conversion.symm.trans again
    refine (bounded.value_le none0 positive).trans ?_
    have wholeCast : (0 : ℚ) ≤ whole0 := by exact_mod_cast whole0Nonneg
    have product := mul_pos (value_pos_iff.mpr convertedPositive)
      (value_pos_iff.mpr pricePositive)
    have charged : pool.upperTick1.decReservesMakerDenom.value * whole0 /
        (converted.value * pool.centerPrice.value) ≤ whole0 * ratio := by
      rw [div_le_iff₀ product]
      have scaled := mul_le_mul_of_nonneg_right kept wholeCast
      linarith
    linarith

theorem Proper.autoswapCovered_of_bounded (proper : pool.Proper) {whole0 whole1 : Int}
    {converted residual0 residual1 : PrecDec} (nonneg0 : 0 ≤ amount0.i)
    (nonneg1 : 0 ≤ amount1.i)
    (residuals : calcAutoswapAmount pool.lowerTick0.decReservesMakerDenom
      pool.upperTick1.decReservesMakerDenom amount0 amount1 pool.centerPrice =
        .ok (residual0, residual1))
    (bounded : AutoswapBounded pool.centerPrice pool.lowerTick0.decReservesMakerDenom
      pool.upperTick1.decReservesMakerDenom amount0 amount1 converted whole0 whole1
      residual0 residual1)
    (covers0 : ∀ full, amount0.i ≤ full.i →
      ValuedAsToken0 pool.centerPrice amount0 amount1 full → 0 < residual0.i → pool.fee ≠ 0 →
      ((onePrecDec - pool.feePrice).mul residual0).i ≤ full.i)
    (covers1 : ∀ full residualConverted,
      residual1.quo pool.centerPrice = .ok residualConverted →
      (residual1.i ≤ amount1.i → residualConverted.i ≤ full.i) →
      ValuedAsToken0 pool.centerPrice amount0 amount1 full → 0 < residual1.i → pool.fee ≠ 0 →
      ((onePrecDec - pool.feePrice).mul residualConverted).i ≤ full.i) :
    pool.AutoswapCovered amount0 amount1 := by
  have pricePositive := proper.centerPrice_pos
  refine proper.autoswapCovered_of residuals bounded.nonneg0 bounded.nonneg1 ?_
  intro residualConverted amountConverted residualDivision division
  have convertedNonneg := quo_nonneg division nonneg1 pricePositive.le
  have valued := calcAmountAsToken0_valued pricePositive nonneg0 nonneg1
    ((Outcome.bind_eq_ok_iff _ _ _).mpr ⟨amountConverted, division, rfl⟩)
  have nothing : ∀ {amount : PrecDec}, amount = zeroPrecDec ∨ pool.fee = 0 →
      ((onePrecDec - pool.feePrice).mul amount).i ≤ (amount0 + amountConverted).i := by
    rintro amount (rfl | free)
    · exact (@fee_le_residual pool zeroPrecDec (le_refl _) proper).trans valued.nonneg
    · rw [feePrice_eq_one free, sub_self]
      change chopPrecisionAndRound (0 * amount.i) ≤ _
      rw [zero_mul]
      exact valued.nonneg
  by_cases charged : pool.fee = 0
  · exact nothing (.inr charged)
  rcases bounded.oneSided with none0 | none1
  · rw [none0]
    have same : zeroPrecDec + residualConverted = residualConverted := zero_add _
    rw [same]
    rcases bounded.nonneg1.eq_or_lt with none1 | some1
    · have isZero : residual1 = zeroPrecDec := PrecDec.ext none1.symm
      rw [isZero] at residualDivision
      exact nothing (.inl (quo_zero residualDivision pricePositive))
    · refine covers1 _ _ residualDivision (fun within => ?_) valued some1 charged
      have convertedLe := quo_mono residualDivision division bounded.nonneg1 pricePositive
        within
      rw [add_i]
      omega
  · rw [none1] at residualDivision
    have same : residual0 + residualConverted = residual0 := by
      rw [quo_zero residualDivision pricePositive]
      exact add_zero _
    rw [same]
    rcases bounded.nonneg0.eq_or_lt with none0 | some0
    · exact nothing (.inl (PrecDec.ext none0.symm))
    · exact covers0 _ (by rw [add_i]; omega) valued some0 charged

theorem Proper.covered_unswapped (proper : pool.Proper) {ratio : ℚ} {whole0 whole1 : Int}
    (bearable : Bearable pool.feePrice.value ratio) (nonneg0 : 0 ≤ whole0)
    (nonneg1 : 0 ≤ whole1) (values : pool.WorthWithin ratio (newPrecDecFromInt whole0)) :
    pool.AutoswapCovered (newPrecDecFromInt whole0) (newPrecDecFromInt whole1) := by
  have amount0Nonneg := newPrecDecFromInt_nonneg nonneg0
  have amount1Nonneg := newPrecDecFromInt_nonneg nonneg1
  obtain ⟨converted, residual0, residual1, residuals, bounded, valueLe⟩ :=
    proper.residuals_bounded amount0Nonneg amount1Nonneg values nonneg0 nonneg1 (le_refl _)
      (le_refl _)
  refine proper.autoswapCovered_of_bounded amount0Nonneg amount1Nonneg residuals bounded
    (fun full amountLe valued some0 charged => ?_)
    (fun full residualConverted division convertedLe valued some1 _ => ?_)
  · rcases proper.lowerNonneg.eq_or_lt with none0 | positive0
    · obtain ⟨least, product, _⟩ := proper.prices_bounded
      have deposited : 1 ≤ whole0 :=
        newPrecDecFromInt_isPositive_iff.mp (bounded.needs1 some0).2
      have wholeOne : (1 : ℚ) ≤ whole0 := by exact_mod_cast deposited
      have fullGe : (whole0 : ℚ) ≤ full.value := by
        rw [← value_newPrecDecFromInt, value_le_value_iff]
        exact amountLe
      have unit := smallest_pos
      rw [← value_le_value_iff]
      refine fee_le_of_token0 proper.feePrice_pos feePrice_value_le_one
        (value_pos_iff.mpr proper.centerPrice_pos) product least wholeOne
        (show (0 : ℚ) ≤ whole0 by linarith) (le_refl _) bearable
        (valueLe none0.symm some0 charged)
        (fee_value_le bounded.nonneg0) ?_
      rw [sub_self, zero_div, mul_zero]
      linarith
    · have within := bounded.le_whole0 positive0
      have feeLe := @fee_le_residual pool residual0 bounded.nonneg0 proper
      omega
  · have convertedNonneg := quo_nonneg division some1.le proper.centerPrice_pos.le
    exact (@fee_le_residual pool residualConverted convertedNonneg proper).trans
      (convertedLe bounded.le_whole1)

theorem Proper.covered_swapped0 (proper : pool.Proper) {ratio : ℚ} {whole0 : Int}
    {left bought : PrecDec} (bearable : Bearable pool.feePrice.value ratio)
    (leaves : SwapLeaves (pool.centerTickIndexToken1 - pool.fee - 1)
      (newPrecDecFromInt whole0) left bought)
    (nonneg1 : 0 ≤ amount1.i) (none0 : pool.lowerTick0.decReservesMakerDenom.i = 0)
    (whole0Nonneg : 0 ≤ whole0) (values : pool.WorthWithin ratio left) :
    pool.AutoswapCovered left (amount1 + bought) := by
  have boughtNonneg := leaves.bought_nonneg
  have sumNonneg : 0 ≤ (amount1 + bought).i := by
    rw [add_i]
    omega
  have sumLe : (amount1 + bought).i ≤ (newPrecDecFromInt (amount1 + bought).i).i := by
    rw [newPrecDecFromInt_i]
    exact le_mul_of_one_le_right sumNonneg (by decide)
  obtain ⟨converted, residual0, residual1, residuals, bounded, valueLe⟩ :=
    proper.residuals_bounded leaves.left_nonneg sumNonneg values whole0Nonneg sumNonneg
      leaves.left_le sumLe
  refine proper.autoswapCovered_of_bounded leaves.left_nonneg sumNonneg residuals bounded
    (fun full _ valued some0 charged => ?_)
    (fun full residualConverted _ _ _ some1 _ => ?_)
  · obtain ⟨least, product, _⟩ := proper.prices_bounded
    have leftPositive := (bounded.needs1 some0).2
    have wholePositive := newPrecDecFromInt_isPositive_iff.mp
      (lt_of_lt_of_le leftPositive leaves.left_le)
    have wholeOne : (1 : ℚ) ≤ whole0 := by exact_mod_cast wholePositive
    have pricePos := value_pos_iff.mpr proper.centerPrice_pos
    have leftLe : left.value ≤ whole0 := by
      rw [← value_newPrecDecFromInt, value_le_value_iff]
      exact leaves.left_le
    rw [← value_le_value_iff]
    refine fee_le_of_token0 proper.feePrice_pos feePrice_value_le_one pricePos product least
      wholeOne (value_nonneg_iff.mpr leaves.left_nonneg) leftLe bearable
      (valueLe none0 some0 charged)
      (fee_value_le bounded.nonneg0) (le_trans ?_ valued.worth_le)
    have limit := tickPrice_mul_le leaves.inside proper.centerInside proper.feeInside
      (by omega)
    change _ * pool.centerPrice.value ≤ 1004 / 1000 * pool.feePrice.value at limit
    have cost := leaves.cost leftPositive
    rw [value_newPrecDecFromInt] at cost
    have boughtValue := value_nonneg_iff.mpr boughtNonneg
    have exchanged : 497 / 1000 * ((whole0 - left.value) / pool.feePrice.value) ≤
        bought.value / pool.centerPrice.value := by
      rw [← mul_div_assoc, div_le_div_iff₀ proper.feePrice_pos pricePos]
      have scaled := mul_le_mul_of_nonneg_right cost pricePos.le
      have limited := mul_le_mul_of_nonneg_right limit boughtValue
      have slack := mul_nonneg proper.feePrice_pos.le boughtValue
      linarith
    have more : bought.value / pool.centerPrice.value ≤
        (amount1 + bought).value / pool.centerPrice.value := by
      apply div_le_div_of_nonneg_right _ pricePos.le
      rw [value_add]
      linarith [value_nonneg_iff.mpr nonneg1]
    unfold worthAsToken0
    linarith
  · have positive0 := (bounded.needs0 some1).1
    omega

theorem Proper.covered_swapped1 (proper : pool.Proper) {whole1 : Int} {left bought : PrecDec}
    (leaves : SwapLeaves (-pool.centerTickIndexToken1 - pool.fee - 1)
      (newPrecDecFromInt whole1) left bought)
    (nonneg0 : 0 ≤ amount0.i) (none1 : pool.upperTick1.decReservesMakerDenom = zeroPrecDec)
    (whole1Nonneg : 0 ≤ whole1) :
    pool.AutoswapCovered (amount0 + bought) left := by
  have boughtNonneg := leaves.bought_nonneg
  have sumNonneg : 0 ≤ (amount0 + bought).i := by
    rw [add_i]
    omega
  have sumLe : (amount0 + bought).i ≤ (newPrecDecFromInt (amount0 + bought).i).i := by
    rw [newPrecDecFromInt_i]
    exact le_mul_of_one_le_right sumNonneg (by decide)
  obtain ⟨converted, residual0, residual1, residuals, bounded, _⟩ :=
    @Proper.residuals_bounded _ _ _ proper 1 sumNonneg leaves.left_nonneg
      (.inr (.inl none1)) _ _ sumNonneg whole1Nonneg sumLe leaves.left_le
  refine proper.autoswapCovered_of_bounded sumNonneg leaves.left_nonneg residuals bounded
    (fun full _ _ some0 _ => ?_)
    (fun full residualConverted division _ valued some1 _ => ?_)
  · have positive1 := (bounded.needs1 some0).1
    rw [none1] at positive1
    exact absurd positive1 (lt_irrefl _)
  · obtain ⟨_, _, ratio⟩ := proper.prices_bounded
    have leftPositive := (bounded.needs0 some1).2
    have wholePositive := newPrecDecFromInt_isPositive_iff.mp
      (lt_of_lt_of_le leftPositive leaves.left_le)
    have wholeOne : (1 : ℚ) ≤ whole1 := by exact_mod_cast wholePositive
    have pricePos := value_pos_iff.mpr proper.centerPrice_pos
    have leftLe : left.value ≤ whole1 := by
      rw [← value_newPrecDecFromInt, value_le_value_iff]
      exact leaves.left_le
    have convertedNonneg := quo_nonneg division some1.le proper.centerPrice_pos.le
    have residualLe : residualConverted.value ≤
        whole1 / pool.centerPrice.value + smallest / 2 := by
      have within : residual1.value ≤ whole1 := by
        rw [← value_newPrecDecFromInt, value_le_value_iff]
        exact bounded.le_whole1
      have rounded := quo_value_le division some1.le proper.centerPrice_pos
      have scaled := div_le_div_of_nonneg_right within pricePos.le
      linarith
    rw [← value_le_value_iff]
    refine fee_le_of_token1 proper.feePrice_pos feePrice_value_le_one pricePos ratio wholeOne
      (value_nonneg_iff.mpr leaves.left_nonneg) leftLe residualLe
      (fee_value_le convertedNonneg) (le_trans ?_ valued.worth_le)
    have limit := tickPrice_le_mul proper.feeInside proper.centerInside leaves.inside
      (by omega)
    change _ ≤ 1004 / 1000 * (pool.feePrice.value * pool.centerPrice.value) at limit
    have cost := leaves.cost leftPositive
    rw [value_newPrecDecFromInt] at cost
    have boughtValue := value_nonneg_iff.mpr boughtNonneg
    have exchanged : 497 / 1000 * ((whole1 - left.value) / pool.feePrice.value) ≤
        bought.value * pool.centerPrice.value := by
      rw [← mul_div_assoc, div_le_iff₀ proper.feePrice_pos]
      have limited := mul_le_mul_of_nonneg_right limit boughtValue
      have slack := mul_nonneg (mul_nonneg proper.feePrice_pos.le pricePos.le) boughtValue
      linarith
    unfold worthAsToken0
    rw [div_le_iff₀ pricePos, add_mul, div_mul_cancel₀ _ pricePos.ne', value_add]
    have more := mul_nonneg (value_nonneg_iff.mpr nonneg0) pricePos.le
    linarith

theorem Proper.convertsReserves (proper : pool.Proper)
    {amounts : PrecDec × PrecDec × PrecDec × PrecDec}
    (computed : pool.calcDepositAmounts amount0 amount1 true = .ok amounts) :
    pool.ConvertsReserves := by
  obtain ⟨converted, division⟩ : ∃ converted,
      pool.upperTick1.decReservesMakerDenom.quo pool.centerPrice = .ok converted :=
    ⟨_, if_neg (ne_of_gt proper.centerPrice_pos)⟩
  have convertedNonneg := quo_nonneg division proper.upperNonneg proper.centerPrice_pos.le
  by_contra worthless
  unfold ConvertsReserves at worthless
  push Not at worthless
  obtain ⟨none0, some1, notPositive⟩ := worthless
  have isZero := notPositive converted division
  unfold calcDepositAmounts at computed
  rw [proper.mustCalcPrice1To0Center_eq, Outcome.ok_bind] at computed
  dsimp only at computed
  rw [if_pos rfl] at computed
  obtain ⟨residuals, autoswap, _⟩ := of_bind computed
  unfold calcAutoswapAmount at autoswap
  rw [if_neg fun empty => some1 (PrecDec.ext empty.2), division, Outcome.ok_bind] at autoswap
  obtain ⟨swapAmount, byNothing, _⟩ := of_bind autoswap
  apply (quo_eq_ok_iff.mp byNothing).1
  rw [add_i, none0, zeroPrecDec_i]
  omega

end Pool

namespace Pool.ReadAt

variable {book : OrderBook} {key : PoolIDKey} {pool : Pool}

theorem fee_eq (readAt : pool.ReadAt book key) : pool.fee = key.fee := by
  rw [Pool.fee, readAt.upperKey]
  rfl

theorem centerTickIndexToken1_eq (readAt : pool.ReadAt book key) :
    pool.centerTickIndexToken1 = key.centerTickIndexNormalized := by
  rw [centerTickIndexToken1, readAt.fee_eq, readAt.upperKey, upperTickKey]
  exact add_sub_cancel_right _ _

theorem lowerTick (readAt : pool.ReadAt book key) :
    pool.lowerTick0.key.tickIndexTakerToMaker =
      -key.centerTickIndexNormalized + key.fee := by
  rw [readAt.loaded.counterpart, readAt.upperKey, counterpart_upperTickKey_tick]

theorem proper (readAt : pool.ReadAt book key) (wellFormed : book.WellFormed)
    (valid : validateTickFee key.centerTickIndexNormalized key.fee = .ok ()) :
    pool.Proper where
  valid := by rw [readAt.centerTickIndexToken1_eq, readAt.fee_eq, valid]
  lowerPrice := by
    rw [readAt.loaded.lowerPriced.price, readAt.lowerTick, readAt.centerTickIndexToken1_eq,
      readAt.fee_eq]
  upperPrice := by
    rw [readAt.loaded.upperPriced.price, readAt.upperKey, readAt.centerTickIndexToken1_eq,
      readAt.fee_eq]
    rfl
  lowerNonneg := readAt.loaded.lower_nonneg wellFormed
  upperNonneg := readAt.loaded.upper_nonneg wellFormed

theorem lowerPair (readAt : pool.ReadAt book key) :
    pool.lowerTick0.key.tradePairID = key.pairID.takerToken1 := by
  rw [readAt.loaded.counterpart, readAt.upperKey]
  exact key.pairID.takerToken1_eq

theorem upperPair (readAt : pool.ReadAt book key) :
    pool.upperTick1.key.tradePairID = key.pairID.takerToken0 := by
  rw [readAt.upperKey, ← key.pairID.takerToken1_reversed, ← key.pairID.takerToken1_eq,
    TradePairID.reversed_reversed]
  rfl

theorem lower_none {now : Time} (readAt : pool.ReadAt book key)
    (clear : NoneBelow now book key.pairID.takerToken1
      (-(key.centerTickIndexNormalized - key.fee - 1))) :
    ¬ pool.lowerTick0.HasToken := by
  intro token
  obtain ⟨tick, live, pair, isTick⟩ := @PoolReserves.Loaded.offered now _ _
    readAt.loaded.lower token
  rw [readAt.lowerPair] at pair
  have above := clear tick live pair
  rw [isTick, readAt.lowerTick] at above
  omega

theorem upper_none {now : Time} (readAt : pool.ReadAt book key)
    (clear : NoneBelow now book key.pairID.takerToken0
      (-(-key.centerTickIndexNormalized - key.fee - 1))) :
    ¬ pool.upperTick1.HasToken := by
  intro token
  obtain ⟨tick, live, pair, isTick⟩ := @PoolReserves.Loaded.offered now _ _
    readAt.loaded.upper token
  rw [readAt.upperPair] at pair
  have above := clear tick live pair
  rw [isTick, readAt.upperKey, upperTickKey] at above
  dsimp only at above
  omega

end Pool.ReadAt

section Deposits

variable {now : Time} {dex next : DexState} {pairID : PairID} {leg : DepositLeg}
  {swapped : SwapOnDepositResult} {pool : Pool}

theorem depositLegSwap_amounts (wellFormed : dex.WellFormed)
    (uncrossed : Uncrossed now dex.book) (valid0 : ValidDenom pairID.token0)
    (valid1 : ValidDenom pairID.token1)
    (swaps : depositLegSwap dex.book now pairID leg = .ok swapped) :
    (dex.updateBook swapped.writes).WellFormed ∧
      DepositAmounts now pairID leg.tickIndex leg.fee (newPrecDecFromInt leg.amount0)
        (newPrecDecFromInt leg.amount1) (dex.book.writeAll swapped.writes)
        swapped.depositAmount0 swapped.depositAmount1 := by
  unfold depositLegSwap at swaps
  dsimp only at swaps
  split at swaps
  · have inside : ¬ ((0 < leg.amount0 ∧ IsTickOutOfRange (leg.tickIndex - leg.fee - 1)) ∨
        (0 < leg.amount1 ∧ IsTickOutOfRange (-leg.tickIndex - leg.fee - 1))) := by
      intro outside
      rw [swapOnDeposit_eq_abort wellFormed uncrossed valid0 valid1 outside] at swaps
      cases swaps
    obtain ⟨result, ok, spec⟩ := swapOnDeposit_total wellFormed uncrossed valid0 valid1
      (fun positive outside => inside (.inl ⟨positive, outside⟩))
      (fun positive outside => inside (.inr ⟨positive, outside⟩))
    cases swaps.symm.trans ok
    exact ⟨spec.wellFormed, spec.amounts⟩
  · cases swaps
    exact ⟨wellFormed, .unswapped⟩

structure LegPool (pool : Pool) (leg : DepositLeg) (swapped : SwapOnDepositResult) : Prop where
  proper : pool.Proper
  fee : pool.fee = leg.fee
  covered : ∀ {ratio : ℚ}, Bearable pool.feePrice.value ratio →
    pool.WorthWithin ratio swapped.depositAmount0 →
      pool.AutoswapCovered swapped.depositAmount0 swapped.depositAmount1

theorem depositLeg_pool (wellFormed : dex.WellFormed) (uncrossed : Uncrossed now dex.book)
    (valid0 : ValidDenom pairID.token0) (valid1 : ValidDenom pairID.token1)
    (validTick : validateTickFee leg.tickIndex leg.fee = .ok ()) (valid : leg.Valid)
    (swaps : depositLegSwap dex.book now pairID leg = .ok swapped)
    (read : (dex.updateBook swapped.writes).getOrInitPool pairID leg.tickIndex leg.fee =
      .ok (pool, next)) : LegPool pool leg swapped := by
  obtain ⟨nextWellFormed, amounts⟩ := depositLegSwap_amounts wellFormed uncrossed valid0
    valid1 swaps
  obtain ⟨_, sameBook, _, found⟩ := @getOrInitPool_moves _ _ _ _ _ _ (.free now)
    nextWellFormed read
  have readAt := found.readAt
  rw [sameBook] at readAt
  have proper := readAt.proper nextWellFormed.book validTick
  have center : pool.centerTickIndexToken1 = leg.tickIndex := readAt.centerTickIndexToken1_eq
  have fee : pool.fee = leg.fee := readAt.fee_eq
  refine ⟨proper, fee, fun bearable values => ?_⟩
  generalize swapped.depositAmount0 = deposit0 at amounts values ⊢
  generalize swapped.depositAmount1 = deposit1 at amounts ⊢
  cases amounts with
  | unswapped => exact proper.covered_unswapped bearable valid.nonneg0 valid.nonneg1 values
  | swapped0 leaves clear =>
      have none0 : pool.lowerTick0.decReservesMakerDenom.i = 0 :=
        le_antisymm (not_lt.mp (readAt.lower_none clear)) proper.lowerNonneg
      rw [← center, ← fee] at leaves
      exact proper.covered_swapped0 bearable leaves (newPrecDecFromInt_nonneg valid.nonneg1)
        none0 valid.nonneg0 values
  | swapped1 leaves clear =>
      have none1 : pool.upperTick1.decReservesMakerDenom = zeroPrecDec :=
        PrecDec.ext (le_antisymm (not_lt.mp (readAt.upper_none clear)) proper.upperNonneg)
      rw [← center, ← fee] at leaves
      exact proper.covered_swapped1 leaves (newPrecDecFromInt_nonneg valid.nonneg0) none1
        valid.nonneg1

end Deposits

def dustPool : Pool :=
  (emptyPool ⟨atomNeutron.pairID, 4000, 20000⟩ 0).withReserves zeroPrecDec ⟨1⟩

theorem dustPool_proper : dustPool.Proper :=
  emptyPool_withReserves_proper (validateTickFee_eq_ok_iff.mpr (by decide)) (by decide)
    (by decide)

theorem dustPool_prices :
    dustPool.centerPrice = ⟨670333451676914008320071543⟩ ∧
      dustPool.feePrice = ⟨135348816539377548182317537⟩ := by
  have center : tickPrice (-4000) = ⟨670333451676914008320071543⟩ := by
    rw [tickPrice, if_pos (by decide), show (-4000 : Int).natAbs = 0 + 25 * 160 from rfl,
      precomputedPrices_evaluate nextTwentyFiveEntries_eq precomputedPrices_zero]
    decide +kernel
  have fee : tickPrice (-20000) = ⟨135348816539377548182317537⟩ := by
    rw [tickPrice, if_pos (by decide), show (-20000 : Int).natAbs = 0 + 25 * 800 from rfl,
      precomputedPrices_evaluate nextTwentyFiveEntries_eq precomputedPrices_zero]
    decide +kernel
  exact ⟨center, fee⟩

theorem dustPool_amountAsToken0 :
    calcAmountAsToken0 (newPrecDecFromInt 1) (newPrecDecFromInt 0) dustPool.centerPrice =
      .ok (newPrecDecFromInt 1) := by
  rw [dustPool_prices.1]
  exact Outcome.toOption_eq_some_iff.mp (by decide +kernel)

theorem dustPool_calcDepositAmounts :
    dustPool.calcDepositAmounts (newPrecDecFromInt 1) (newPrecDecFromInt 0) true =
      .ok (newPrecDecFromInt 1, newPrecDecFromInt 0,
        newPrecDecFromInt 1 - ⟨1289882194149196838329139115⟩,
        ⟨1289882194149196838329139115⟩) := by
  unfold Pool.calcDepositAmounts
  rw [dustPool_proper.mustCalcPrice1To0Center_eq, Outcome.ok_bind]
  dsimp only
  simp only [dustPool_proper.calcAutoswapFee_eq, dustPool_prices]
  exact Outcome.toOption_eq_some_iff.mp (by decide +kernel)

end Neutron.Dex
