import Neutron.Dex.SwapFairness
import Neutron.Dex.TickPrices

namespace Neutron.Dex

open Library PrecDec

namespace Pool.Proper

variable {pool : Pool} (proper : pool.Proper) (tradePairID : TradePairID)
include proper

theorem le_prices_mul :
    1 - 6 / 10 ^ 5 ≤ (pool.makerSide tradePairID).makerPrice.value *
      (pool.takerSide tradePairID).makerPrice.value := by
  have product := le_tickPrice_mul proper.lowerInside proper.upperInside (by omega)
  unfold makerSide takerSide
  split
  · rw [proper.lowerPrice, proper.upperPrice]
    exact product
  · rw [proper.lowerPrice, proper.upperPrice, mul_comm]
    exact product

theorem one_le_prices_mul (charged : 1 ≤ pool.fee) :
    1 ≤ (pool.makerSide tradePairID).makerPrice.value *
      (pool.takerSide tradePairID).makerPrice.value := by
  have product := one_le_tickPrice_mul proper.lowerInside proper.upperInside (by omega)
  unfold makerSide takerSide
  split
  · rw [proper.lowerPrice, proper.upperPrice]
    exact product
  · rw [proper.lowerPrice, proper.upperPrice, mul_comm]
    exact product

end Pool.Proper

namespace Pool

variable {pool : Pool} {tradePairID : TradePairID} {inAmount outAmount : PrecDec}

theorem makerSide_reversed : pool.makerSide tradePairID.reversed = pool.takerSide tradePairID := by
  unfold makerSide takerSide
  simp only [tradePairID.isMakerDenomToken0_reversed, ite_not]

theorem Proper.traded (proper : pool.Proper) (inNonneg : 0 ≤ inAmount.i)
    (outLe : outAmount.i ≤ (pool.makerSide tradePairID).decReservesMakerDenom.i) :
    (pool.traded tradePairID inAmount outAmount).Proper := by
  have lowerNonneg := proper.lowerNonneg
  have upperNonneg := proper.upperNonneg
  unfold makerSide at outLe
  unfold Pool.traded makerSide takerSide
  by_cases isMaker : tradePairID.IsMakerDenomToken0
  · rw [if_pos isMaker] at outLe
    simp only [if_pos isMaker]
    exact ⟨proper.valid, proper.lowerPrice, proper.upperPrice, by rw [sub_i]; omega,
      by rw [add_i]; omega⟩
  · rw [if_neg isMaker] at outLe
    simp only [if_neg isMaker]
    exact ⟨proper.valid, proper.lowerPrice, proper.upperPrice, by rw [add_i]; omega,
      by rw [sub_i]; omega⟩

end Pool

theorem roundTrip_le {price back half paid received spent returned : ℚ}
    (pricePos : 0 < price) (backPos : 0 < back) (halfPos : 0 < half) (paidNonneg : 0 ≤ paid)
    (first : price * received - paid ≤ half * max 1 price)
    (second : back * returned - spent ≤ half * max 1 back)
    (spentLe : spent ≤ received) (product : 1 / 2 ≤ price * back) :
    returned ≤ paid * max 1 (1 / (price * back)) +
      4 * (2 * half) * max 1 (max price back) := by
  have productPos : 0 < price * back := mul_pos pricePos backPos
  generalize largestEq : max 1 (max price back) = largest
  have oneLe : 1 ≤ largest := largestEq ▸ le_max_left _ _
  have priceLe : price ≤ largest :=
    largestEq ▸ le_trans (le_max_left _ _) (le_max_right _ _)
  have firstLe : max 1 price ≤ largest := max_le oneLe priceLe
  have secondLe : price * max 1 back ≤ 2 * (price * back) * largest := by
    rcases le_total 1 back with large | small
    · rw [max_eq_right large]
      calc price * back = price * back * 1 := (mul_one _).symm
        _ ≤ price * back * (2 * largest) :=
            mul_le_mul_of_nonneg_left (by linarith) productPos.le
        _ = 2 * (price * back) * largest := by ring
    · rw [max_eq_left small]
      calc price * 1 ≤ largest * (2 * (price * back)) :=
            mul_le_mul priceLe (by linarith) zero_le_one (by linarith)
        _ = 2 * (price * back) * largest := by ring
  have exchanged : price * back * returned ≤ paid + half * max 1 price +
      half * (price * max 1 back) := by
    have scaled := mul_le_mul_of_nonneg_left (le_trans second
      (le_refl (half * max 1 back))) pricePos.le
    have bought := mul_le_mul_of_nonneg_left spentLe pricePos.le
    linarith
  have errors : half * max 1 price + half * (price * max 1 back) ≤
      price * back * (4 * (2 * half) * largest) := by
    have firstError := mul_le_mul_of_nonneg_left firstLe halfPos.le
    have secondError := mul_le_mul_of_nonneg_left secondLe halfPos.le
    have atLeast : half * largest ≤ 2 * (price * back) * (half * largest) :=
      le_mul_of_one_le_left (mul_nonneg halfPos.le (by linarith)) (by linarith)
    have nonneg : 0 ≤ price * back * (half * largest) :=
      mul_nonneg productPos.le (mul_nonneg halfPos.le (by linarith))
    linarith
  have payment : paid ≤ price * back * (paid * max 1 (1 / (price * back))) := by
    calc paid = price * back * (paid * (1 / (price * back))) := by field_simp
      _ ≤ _ := mul_le_mul_of_nonneg_left
          (mul_le_mul_of_nonneg_left (le_max_right _ _) paidNonneg) productPos.le
  apply le_of_mul_le_mul_left _ productPos
  linarith

/-- A round trip through a pool returns at most what was paid, up to rounding and to the
prices of the two directions not multiplying to one, which a fee of one tick makes up for. -/
theorem roundTrip_bounded {pool : Pool} (proper : pool.Proper) (tradePairID : TradePairID)
    {amountIn : PrecDec} (amountNonneg : 0 ≤ amountIn.i) :
    ∃ paid received swapped spent returned final,
      pool.swap tradePairID amountIn none = .ok (paid, received, swapped) ∧
      swapped.swap tradePairID.reversed received none = .ok (spent, returned, final) ∧
      returned.value ≤
        paid.value * max 1 (1 / ((pool.makerSide tradePairID).makerPrice.value *
            (pool.makerSide tradePairID.reversed).makerPrice.value)) +
          4 * (1 / 10 ^ 27) * max 1 (max (pool.makerSide tradePairID).makerPrice.value
            (pool.makerSide tradePairID.reversed).makerPrice.value) ∧
      (1 ≤ pool.fee → 1 ≤ (pool.makerSide tradePairID).makerPrice.value *
        (pool.makerSide tradePairID.reversed).makerPrice.value) ∧
      1 - 6 / 10 ^ 5 ≤ (pool.makerSide tradePairID).makerPrice.value *
        (pool.makerSide tradePairID.reversed).makerPrice.value := by
  have noLimit : ∀ limit ∈ (none : Option PrecDec), 0 ≤ limit.i :=
    fun _ isLimit => (nomatch isLimit)
  obtain ⟨paid, received, firstSwap, first⟩ := Pool.swap_fair
    (proper.makerNonneg tradePairID) (proper.takerNonneg tradePairID)
    (proper.makerPositive tradePairID) amountNonneg noLimit
  have swappedProper := proper.traded (value_nonneg_iff.mp first.in_nonneg)
    (value_le_value_iff.mp first.out_le)
  obtain ⟨spent, returned, secondSwap, second⟩ := Pool.swap_fair
    (swappedProper.makerNonneg tradePairID.reversed)
    (swappedProper.takerNonneg tradePairID.reversed)
    (swappedProper.makerPositive tradePairID.reversed)
    (value_nonneg_iff.mp first.out_nonneg) noLimit
  have backPrice : ((pool.traded tradePairID paid received).makerSide
      tradePairID.reversed).makerPrice = (pool.takerSide tradePairID).makerPrice := by
    rw [Pool.makerSide_reversed, Pool.takerSide_traded]
  have secondCost := second.cost_sub_in_le
  rw [backPrice] at secondCost
  have product := proper.le_prices_mul tradePairID
  refine ⟨paid, received, _, spent, returned, _, firstSwap, secondSwap, ?_, ?_, ?_⟩
  · rw [Pool.makerSide_reversed]
    have bound := roundTrip_le (value_pos_iff.mpr (proper.makerPositive tradePairID))
      (value_pos_iff.mpr (proper.takerPositive tradePairID)) (by norm_num) first.in_nonneg
      first.cost_sub_in_le secondCost second.in_le (le_trans (by norm_num) product)
    rw [mul_div_cancel₀ _ two_ne_zero] at bound
    exact bound
  · rw [Pool.makerSide_reversed]
    exact proper.one_le_prices_mul tradePairID
  · rw [Pool.makerSide_reversed]
    exact product

theorem roundTrip_bounded_deepPool :
    ∃ paid received swapped spent returned final,
      deepPool.swap atomNeutron (newPrecDecFromInt (10 ^ 6)) none =
        .ok (paid, received, swapped) ∧
      swapped.swap atomNeutron.reversed received none = .ok (spent, returned, final) ∧
      returned.value ≤
        paid.value * max 1 (1 / ((deepPool.makerSide atomNeutron).makerPrice.value *
            (deepPool.makerSide atomNeutron.reversed).makerPrice.value)) +
          4 * (1 / 10 ^ 27) * max 1 (max (deepPool.makerSide atomNeutron).makerPrice.value
            (deepPool.makerSide atomNeutron.reversed).makerPrice.value) ∧
      (1 ≤ deepPool.fee → 1 ≤ (deepPool.makerSide atomNeutron).makerPrice.value *
        (deepPool.makerSide atomNeutron.reversed).makerPrice.value) ∧
      1 - 6 / 10 ^ 5 ≤ (deepPool.makerSide atomNeutron).makerPrice.value *
        (deepPool.makerSide atomNeutron.reversed).makerPrice.value :=
  roundTrip_bounded deepPool_proper atomNeutron (by decide)

/-- Both prices are rounded down here: a million tokens come back with a profit that is
far above the slack, and grows with the amount. -/
theorem roundTrip_profit :
    deepPool.Proper ∧ deepPool.fee = 0 ∧
      ∃ paid received swapped spent returned final,
        deepPool.swap atomNeutron (newPrecDecFromInt (10 ^ 6)) none =
          .ok (paid, received, swapped) ∧
        swapped.swap atomNeutron.reversed received none = .ok (spent, returned, final) ∧
        paid.value +
            4 * (1 / 10 ^ 27) * max 1 (max (deepPool.makerSide atomNeutron).makerPrice.value
              (deepPool.makerSide atomNeutron.reversed).makerPrice.value) <
          returned.value := by
  refine ⟨deepPool_proper, rfl,
    ⟨10 ^ 33⟩, ⟨999800029996000499940006999200090⟩, _,
    ⟨999800029996000499940006999200090⟩, ⟨10 ^ 33 + 200130⟩, _,
    Outcome.toOption_eq_some_iff.mp
      (show _ = some (_, _, deepPool.traded atomNeutron ⟨10 ^ 33⟩
        ⟨999800029996000499940006999200090⟩) by decide +kernel),
    Outcome.toOption_eq_some_iff.mp
      (show _ = some (_, _, (deepPool.traded atomNeutron ⟨10 ^ 33⟩
        ⟨999800029996000499940006999200090⟩).traded atomNeutron.reversed
          ⟨999800029996000499940006999200090⟩ ⟨10 ^ 33 + 200130⟩) by decide +kernel), ?_⟩
  have price : (deepPool.makerSide atomNeutron).makerPrice =
      ⟨1000200010000000000000000000⟩ := by decide +kernel
  have back : (deepPool.makerSide atomNeutron.reversed).makerPrice =
      ⟨999800029996000499940006999⟩ := by decide +kernel
  rw [price, back]
  norm_num [PrecDec.value, precisionReuse]

end Neutron.Dex
