import Neutron.Dex.Decimal
import Neutron.Dex.Moves

namespace Neutron.Dex

open Library PrecDec

/-- The amounts of one trade: within the limits of both parties, and at the price of
the maker up to rounding. -/
structure FairTrade (reserves price maxIn : PrecDec) (maxOut : Option PrecDec)
    (inAmount outAmount : PrecDec) : Prop where
  in_nonneg : 0 ≤ inAmount.value
  in_le : inAmount.value ≤ maxIn.value
  out_nonneg : 0 ≤ outAmount.value
  out_le : outAmount.value ≤ reserves.value
  out_le_limit : ∀ limit ∈ maxOut, outAmount.value ≤ limit.value
  cost_sub_in_le : price.value * outAmount.value - inAmount.value ≤
    1 / 10 ^ 27 / 2 * max 1 price.value
  in_sub_cost_le : inAmount.value - price.value * outAmount.value ≤ 1 / 10 ^ 27 / 2

section Step

variable {reserves price maxIn : PrecDec} {maxOut : Option PrecDec}

theorem fairTrade_zero (reservesNonneg : 0 ≤ reserves.i) (inNonneg : 0 ≤ maxIn.i)
    (outNonneg : ∀ limit ∈ maxOut, 0 ≤ limit.i) :
    FairTrade reserves price maxIn maxOut zeroPrecDec zeroPrecDec where
  in_nonneg := by simp
  in_le := by simpa using value_nonneg_iff.mpr inNonneg
  out_nonneg := by simp
  out_le := by simpa using value_nonneg_iff.mpr reservesNonneg
  out_le_limit := fun limit isLimit => by
    simpa using value_nonneg_iff.mpr (outNonneg limit isLimit)
  cost_sub_in_le := by
    simp only [value_zeroPrecDec, mul_zero, sub_zero]
    positivity
  in_sub_cost_le := by
    simp only [value_zeroPrecDec, mul_zero, sub_zero]
    positivity

theorem calcSwapAmounts_fair (reservesNonneg : 0 ≤ reserves.i)
    (pricePositive : 0 < price.i) (inNonneg : 0 ≤ maxIn.i)
    (outNonneg : ∀ limit ∈ maxOut, 0 ≤ limit.i) :
    ∃ inAmount outAmount,
      calcSwapAmounts reserves price maxIn maxOut = .ok (inAmount, outAmount) ∧
        FairTrade reserves price maxIn maxOut inAmount outAmount := by
  obtain ⟨affordable, division⟩ : ∃ affordable, maxIn.quo price = .ok affordable :=
    ⟨_, if_neg (ne_of_gt pricePositive)⟩
  have computed : calcSwapAmounts reserves price maxIn maxOut =
      .ok (minPrecDec (price.mul (minPrecDecArr reserves (affordable :: maxOut.toList))) maxIn,
        minPrecDecArr reserves (affordable :: maxOut.toList)) := by
    unfold calcSwapAmounts
    rw [division]
    rfl
  refine ⟨_, _, computed, ?_⟩
  have trade := calcSwapAmounts_trade reservesNonneg pricePositive inNonneg outNonneg computed
  have outLeAffordable : (minPrecDecArr reserves (affordable :: maxOut.toList)).i ≤
      affordable.i := minPrecDecArr_le_of_mem List.mem_cons_self
  have outLeLimit : ∀ limit ∈ maxOut,
      (minPrecDecArr reserves (affordable :: maxOut.toList)).i ≤ limit.i :=
    fun limit isLimit => minPrecDecArr_le_of_mem
      (List.mem_cons_of_mem _ (Option.mem_toList.mpr isLimit))
  generalize minPrecDecArr reserves (affordable :: maxOut.toList) = outAmount at *
  have priceValue := value_pos_iff.mpr pricePositive
  have outValue := value_le_value_iff.mpr outLeAffordable
  have costUpper := mul_value_le (le_of_lt pricePositive) trade.out_nonneg
  have costLower := le_mul_value (le_of_lt pricePositive) trade.out_nonneg
  have affordableUpper := quo_value_le division inNonneg pricePositive
  have halfPos : 0 < smallest / 2 := div_pos smallest_pos two_pos
  have oneLe := le_max_left 1 price.value
  have priceLe := le_max_right 1 price.value
  refine {
    in_nonneg := value_nonneg_iff.mpr trade.in_nonneg
    in_le := value_le_value_iff.mpr trade.in_le
    out_nonneg := value_nonneg_iff.mpr trade.out_nonneg
    out_le := value_le_value_iff.mpr trade.out_le
    out_le_limit := fun limit isLimit => value_le_value_iff.mpr (outLeLimit limit isLimit)
    cost_sub_in_le := ?_
    in_sub_cost_le := ?_ }
  · change _ ≤ smallest / 2 * max 1 price.value
    rcases le_total (price.mul outAmount).i maxIn.i with affordableCost | capped
    · -- The cost is paid as it was rounded.
      have paid : minPrecDec (price.mul outAmount) maxIn = price.mul outAmount := by
        ext
        rw [minPrecDec_i, min_eq_left affordableCost]
      rw [paid]
      calc price.value * outAmount.value - (price.mul outAmount).value
          ≤ smallest / 2 * 1 := by linarith
        _ ≤ _ := mul_le_mul_of_nonneg_left oneLe halfPos.le
    · -- All the taker has is paid: the error is that of the division by the price.
      have paid : minPrecDec (price.mul outAmount) maxIn = maxIn := by
        ext
        rw [minPrecDec_i, min_eq_right capped]
      rw [paid]
      have cost : price.value * outAmount.value ≤
          price.value * (maxIn.value / price.value + smallest / 2) :=
        mul_le_mul_of_nonneg_left (le_trans outValue affordableUpper) priceValue.le
      rw [mul_add, mul_div_cancel₀ _ priceValue.ne'] at cost
      calc price.value * outAmount.value - maxIn.value
          ≤ smallest / 2 * price.value := by linarith
        _ ≤ _ := mul_le_mul_of_nonneg_left priceLe halfPos.le
  · change _ ≤ smallest / 2
    have inLeCost : (minPrecDec (price.mul outAmount) maxIn).value ≤
        (price.mul outAmount).value := by
      rw [value_le_value_iff, minPrecDec_i]
      exact min_le_left _ _
    linarith

end Step

namespace Pool

variable {pool : Pool} {tradePairID : TradePairID} {maxIn : PrecDec}
  {maxOut : Option PrecDec}

theorem swap_fair (reservesNonneg : 0 ≤ (pool.makerSide tradePairID).decReservesMakerDenom.i)
    (takerNonneg : 0 ≤ (pool.takerSide tradePairID).decReservesMakerDenom.i)
    (pricePositive : 0 < (pool.makerSide tradePairID).makerPrice.i)
    (inNonneg : 0 ≤ maxIn.i) (outNonneg : ∀ limit ∈ maxOut, 0 ≤ limit.i) :
    ∃ inAmount outAmount,
      pool.swap tradePairID maxIn maxOut =
          .ok (inAmount, outAmount, pool.traded tradePairID inAmount outAmount) ∧
        FairTrade (pool.makerSide tradePairID).decReservesMakerDenom
          (pool.makerSide tradePairID).makerPrice maxIn maxOut inAmount outAmount := by
  by_cases nothing : maxIn.IsZero ∨
      (pool.makerSide tradePairID).decReservesMakerDenom.IsZero
  · refine ⟨zeroPrecDec, zeroPrecDec, ?_, fairTrade_zero reservesNonneg inNonneg outNonneg⟩
    rw [swap_eq_ok_iff, if_pos nothing, traded_zero]
  · obtain ⟨inAmount, outAmount, computed, fair⟩ :=
      calcSwapAmounts_fair reservesNonneg pricePositive inNonneg outNonneg
    have inPos := value_nonneg_iff.mp fair.in_nonneg
    have outLe := value_le_value_iff.mp fair.out_le
    refine ⟨inAmount, outAmount, ?_, fair⟩
    rw [swap_eq_ok_iff, if_neg nothing, add_i, sub_i]
    exact ⟨computed, by omega, by omega, rfl⟩

end Pool

theorem LimitOrderTranche.swap_fair {tranche : LimitOrderTranche} {maxIn : PrecDec}
    {maxOut : Option PrecDec} (reservesNonneg : 0 ≤ tranche.decReservesMakerDenom.i)
    (takerNonneg : 0 ≤ tranche.decReservesTakerDenom.i)
    (totalNonneg : 0 ≤ tranche.decTotalTakerDenom.i)
    (pricePositive : 0 < tranche.makerPrice.i) (inNonneg : 0 ≤ maxIn.i)
    (outNonneg : ∀ limit ∈ maxOut, 0 ≤ limit.i) :
    ∃ inAmount outAmount,
      tranche.swap maxIn maxOut =
          .ok (inAmount, outAmount, tranche.traded inAmount outAmount) ∧
        FairTrade tranche.decReservesMakerDenom tranche.makerPrice maxIn maxOut
          inAmount outAmount := by
  obtain ⟨inAmount, outAmount, computed, fair⟩ :=
    calcSwapAmounts_fair reservesNonneg pricePositive inNonneg outNonneg
  have inPos := value_nonneg_iff.mp fair.in_nonneg
  have outLe := value_le_value_iff.mp fair.out_le
  refine ⟨inAmount, outAmount, ?_, fair⟩
  rw [swap_eq_ok_iff, add_i, sub_i, add_i]
  exact ⟨computed, by omega, by omega, by omega, rfl⟩

namespace Pool

structure Proper (pool : Pool) : Prop where
  valid : validateTickFee pool.centerTickIndexToken1 pool.fee = .ok ()
  lowerPrice : pool.lowerTick0.makerPrice =
    tickPrice (-pool.centerTickIndexToken1 + pool.fee)
  upperPrice : pool.upperTick1.makerPrice =
    tickPrice (pool.centerTickIndexToken1 + pool.fee)
  lowerNonneg : 0 ≤ pool.lowerTick0.decReservesMakerDenom.i
  upperNonneg : 0 ≤ pool.upperTick1.decReservesMakerDenom.i

end Pool

theorem validateTickFee_eq_ok_iff {tick : Int} {fee : Nat} :
    validateTickFee tick fee = .ok () ↔ fee < maxTickExp ∧ tick.natAbs + fee ≤ maxTickExp := by
  unfold validateTickFee
  split
  · rename_i tooHigh
    exact ⟨fun impossible => (nomatch impossible), fun both => by omega⟩
  · split
    · rename_i outside
      exact ⟨fun impossible => (nomatch impossible), fun both => by omega⟩
    · exact ⟨fun _ => by omega, fun _ => rfl⟩

namespace Pool.Proper

variable {pool : Pool} (proper : pool.Proper) (tradePairID : TradePairID)
include proper

theorem lowerInside : ¬ IsTickOutOfRange (-pool.centerTickIndexToken1 + pool.fee) := by
  have bounds := validateTickFee_eq_ok_iff.mp proper.valid
  unfold IsTickOutOfRange
  omega

theorem upperInside : ¬ IsTickOutOfRange (pool.centerTickIndexToken1 + pool.fee) := by
  have bounds := validateTickFee_eq_ok_iff.mp proper.valid
  unfold IsTickOutOfRange
  omega

theorem makerNonneg : 0 ≤ (pool.makerSide tradePairID).decReservesMakerDenom.i := by
  unfold makerSide
  split
  · exact proper.lowerNonneg
  · exact proper.upperNonneg

theorem takerNonneg : 0 ≤ (pool.takerSide tradePairID).decReservesMakerDenom.i := by
  unfold takerSide
  split
  · exact proper.upperNonneg
  · exact proper.lowerNonneg

theorem makerPositive : 0 < (pool.makerSide tradePairID).makerPrice.i := by
  unfold makerSide
  split
  · rw [proper.lowerPrice]
    exact tickPrice_pos proper.lowerInside
  · rw [proper.upperPrice]
    exact tickPrice_pos proper.upperInside

theorem takerPositive : 0 < (pool.takerSide tradePairID).makerPrice.i := by
  unfold takerSide
  split
  · rw [proper.upperPrice]
    exact tickPrice_pos proper.upperInside
  · rw [proper.lowerPrice]
    exact tickPrice_pos proper.lowerInside

end Pool.Proper

theorem emptyPool_withReserves_proper {key : PoolIDKey} {id : Nat}
    {reserves0 reserves1 : PrecDec}
    (valid : validateTickFee key.centerTickIndexNormalized key.fee = .ok ())
    (lowerNonneg : 0 ≤ reserves0.i) (upperNonneg : 0 ≤ reserves1.i) :
    ((emptyPool key id).withReserves reserves0 reserves1).Proper := by
  have center : ((emptyPool key id).withReserves reserves0 reserves1).centerTickIndexToken1 =
      key.centerTickIndexNormalized := by
    change key.centerTickIndexNormalized + key.fee - (key.fee : Int) = _
    omega
  refine ⟨?_, ?_, ?_, lowerNonneg, upperNonneg⟩
  · rw [center]
    exact valid
  · rw [center]
    change tickPrice (upperTickKey key.pairID key.centerTickIndexNormalized
      key.fee).counterpart.tickIndexTakerToMaker = _
    rw [counterpart_upperTickKey_tick]
    rfl
  · rw [center]
    rfl

def atomNeutron : TradePairID := ⟨"uatom", "untrn", uatom_ne_untrn⟩

def deepPool : Pool :=
  (emptyPool ⟨atomNeutron.pairID, 2, 0⟩ 0).withReserves (newPrecDecFromInt (10 ^ 9))
    (newPrecDecFromInt (10 ^ 9))

theorem deepPool_proper : deepPool.Proper :=
  emptyPool_withReserves_proper rfl (by decide) (by decide)

def smallTranche : LimitOrderTranche where
  key := ⟨atomNeutron, 2, "tk-0"⟩
  decReservesMakerDenom := newPrecDecFromInt 3
  decReservesTakerDenom := zeroPrecDec
  totalMakerDenom := 3
  decTotalTakerDenom := zeroPrecDec
  expirationTime := none
  makerPrice := tickPrice 2

end Neutron.Dex
