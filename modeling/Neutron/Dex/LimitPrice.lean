import Neutron.Dex.OrderResponse
import Neutron.Dex.Sweep

namespace Neutron.Dex

open Library PrecDec

section Sweeps

variable {now : Time} {tradePairID : TradePairID} {limitPrice : Option PrecDec}
  {book final : OrderBook} {maxIn : PrecDec} {maxOut : Option PrecDec}
  {steps : List SweepStep}

theorem Sweep.fair (sweep : Sweep now tradePairID limitPrice book maxIn maxOut steps final)
    (wellFormed : book.WellFormed) (inNonneg : 0 ≤ maxIn.i)
    (outNonneg : ∀ limit ∈ maxOut, 0 ≤ limit.i) :
    ∀ step ∈ steps, 0 < step.tick.price.i ∧ ∃ stepIn stepOut,
      FairTrade step.tick.reserves step.tick.price stepIn stepOut step.inAmount
        step.outAmount := by
  induction sweep with
  | nil => exact fun step impossible => absurd impossible List.not_mem_nil
  | @cons book _ maxIn inAmount outAmount maxOut tick _ _ steps stored _ _ wrapped swap
      visited rest ih =>
      obtain ⟨paid, bought, _, again, fair⟩ := liquidity_swap_total wellFormed stored wrapped
        inNonneg outNonneg
      cases swap.symm.trans again
      have restNonneg : 0 ≤ (maxIn - inAmount).i := by
        rw [sub_i]
        exact Int.sub_nonneg_of_le visited.trade.in_le
      have later := ih (visited.visit.wellFormed wellFormed) restNonneg
        (restOut_nonneg swap outNonneg)
      intro step member
      rcases List.mem_cons.mp member with rfl | inRest
      · exact ⟨wellFormed.price_pos stored, maxIn, maxOut, fair⟩
      · exact later step inRest

theorem value_sum_map_le {Item : Type} {items : List Item} {left right : Item → PrecDec}
    {factor error : ℚ}
    (within : ∀ item ∈ items, (left item).value ≤ factor * (right item).value + error) :
    (items.map left).sum.value ≤
      factor * (items.map right).sum.value + items.length * error := by
  induction items with
  | nil => simp [PrecDec.value]
  | cons item rest ih =>
      have first := within item List.mem_cons_self
      have others := ih fun later member => within later (List.mem_cons_of_mem _ member)
      rw [List.map_cons, List.map_cons, List.sum_cons, List.sum_cons, value_add, value_add,
        List.length_cons]
      push_cast
      linarith

theorem Sweep.excess_le {limit : PrecDec}
    (sweep : Sweep now tradePairID (some limit) book maxIn maxOut steps final)
    (wellFormed : book.WellFormed) (inNonneg : 0 ≤ maxIn.i)
    (outNonneg : ∀ bound ∈ maxOut, 0 ≤ bound.i) :
    (SweepStep.totalIn steps).value ≤ limit.value * (SweepStep.totalOut steps).value +
      steps.length * (smallest / 2) := by
  apply value_sum_map_le
  intro step member
  obtain ⟨_, _, _, fair⟩ := sweep.fair wellFormed inNonneg outNonneg step member
  obtain ⟨_, _, within⟩ := sweep.offered step member
  have paid : step.inAmount.value - step.tick.price.value * step.outAmount.value ≤
      smallest / 2 := fair.in_sub_cost_le
  have cheap : step.tick.price.value ≤ limit.value :=
    value_le_value_iff.mpr (not_lt.mp within)
  have cost := mul_le_mul_of_nonneg_right cheap fair.out_nonneg
  linarith

theorem SwapSweeps.excess_le {limit : PrecDec} {maxAmountOut : Option Int}
    {result : SwapResult}
    (sweeps : SwapSweeps now tradePairID maxIn maxAmountOut (some limit) book result steps)
    (wellFormed : book.WellFormed) (inNonneg : 0 ≤ maxIn.i)
    (outNonneg : ∀ bound ∈ maxAmountOut, 0 ≤ bound) :
    result.totalTakerCoin.amount.value ≤ limit.value * result.totalMakerCoin.amount.value +
      steps.length * (smallest / 2) := by
  rw [sweeps.totalTakerCoin, sweeps.totalMakerCoin]
  refine sweeps.sweep.excess_le wellFormed inNonneg fun bound isBound => ?_
  obtain ⟨amount, isAmount, rfl⟩ := Option.mem_map.mp isBound
  exact newPrecDecFromInt_nonneg (outNonneg amount isAmount)

end Sweeps

section Orders

variable {book : OrderBook} {now : Time} {tradePairID : TradePairID}
  {amountIn limitPrice minAvgSellPrice : PrecDec} {maxAmountOut : Option Int}
  {orderType : LimitOrderType} {result : SwapResult} {steps : List SweepStep}

theorem mul_lt_of_quo_lt_reciprocal {left right quotient price reciprocal : PrecDec}
    (computed : left.quo right = .ok quotient)
    (isReciprocal : onePrecDec.quo price = .ok reciprocal) (leftNonneg : 0 ≤ left.i)
    (rightPositive : 0 < right.i) (pricePositive : 0 < price.i)
    (below : quotient < reciprocal) : price.value * left.value < right.value := by
  by_contra covered
  have unitPos := precisionReuse_cast_pos
  have exactly : onePrecDec.i * right.i ≤ left.i * price.i := by
    have scaled := not_lt.mp covered
    unfold PrecDec.value at scaled
    rw [div_mul_div_comm, div_le_div_iff₀ unitPos (mul_pos unitPos unitPos)] at scaled
    have cancelled : (right.i : ℚ) * precisionReuse ≤ price.i * left.i := by
      refine le_of_mul_le_mul_right ?_ unitPos
      linarith
    rw [onePrecDec_i, mul_comm (precisionReuse : ℤ), mul_comm left.i]
    exact_mod_cast cancelled
  have ordered := quo_le_quo isReciprocal computed (by decide) leftNonneg pricePositive
    rightPositive exactly
  exact absurd (lt_def.mp below) (not_lt.mpr ordered)

theorem takerLimitOrderSwap_rejects
    (swapped : swap book now tradePairID amountIn maxAmountOut (some limitPrice) = .ok result)
    (rejected : takerLimitOrderSwap book now tradePairID amountIn maxAmountOut limitPrice
      minAvgSellPrice orderType = fail .limitPriceNotSatisfied) :
    result.totalTakerCoin.amount.i ≠ 0 ∧ ∃ truePrice,
      result.totalMakerCoin.amount.quo result.totalTakerCoin.amount = .ok truePrice ∧
        truePrice < minAvgSellPrice := by
  unfold takerLimitOrderSwap at rejected
  rw [swapped, Outcome.ok_bind] at rejected
  split at rejected
  · cases rejected
  · split at rejected
    · cases rejected
    · rename_i _ nonzero
      refine ⟨nonzero, ?_⟩
      obtain ⟨truePrice, division⟩ : ∃ truePrice,
          result.totalMakerCoin.amount.quo result.totalTakerCoin.amount = .ok truePrice :=
        ⟨_, if_neg nonzero⟩
      rw [division, Outcome.ok_bind] at rejected
      refine ⟨truePrice, division, ?_⟩
      by_contra atLeast
      rw [if_neg atLeast] at rejected
      split at rejected
      · cases rejected
      · cases rejected

theorem makerLimitOrderSwap_rejects (amountPositive : 0 < amountIn.i)
    (limitPositive : 0 < limitPrice.i)
    (swapped : swap book now tradePairID amountIn none (some limitPrice) = .ok result)
    (rejected : makerLimitOrderSwap book now tradePairID amountIn limitPrice
      minAvgSellPrice = fail .limitPriceNotSatisfied) :
    ∃ expectedOut truePrice,
      (amountIn - result.totalTakerCoin.amount).quo limitPrice = .ok expectedOut ∧
      (expectedOut + result.totalMakerCoin.amount).quo amountIn = .ok truePrice ∧
        truePrice < minAvgSellPrice := by
  unfold makerLimitOrderSwap at rejected
  rw [swapped, Outcome.ok_bind] at rejected
  split at rejected
  · obtain ⟨expectedOut, expected⟩ : ∃ expectedOut,
        (amountIn - result.totalTakerCoin.amount).quo limitPrice = .ok expectedOut :=
      ⟨_, if_neg limitPositive.ne'⟩
    obtain ⟨truePrice, division⟩ : ∃ truePrice,
        (expectedOut + result.totalMakerCoin.amount).quo amountIn = .ok truePrice :=
      ⟨_, if_neg amountPositive.ne'⟩
    dsimp only at rejected
    rw [expected, Outcome.ok_bind, division, Outcome.ok_bind] at rejected
    refine ⟨expectedOut, truePrice, expected, division, ?_⟩
    by_contra atLeast
    rw [if_neg atLeast] at rejected
    cases rejected
  · cases rejected

/-- An order is only rejected by its own limit price where it was swapped at a worse one.
What it pays more than that comes from rounding, at most half of the smallest amount for
each offer; of a maker order the part that is placed is rounded as well. -/
theorem limitOrderSwap_limitPrice (wellFormed : book.WellFormed)
    (amountPositive : 0 < amountIn.i) (limitPositive : 0 < limitPrice.i)
    (isReciprocal : onePrecDec.quo limitPrice = .ok minAvgSellPrice) :
    (∀ maxAmountOut orderType result, (∀ bound ∈ maxAmountOut, 0 ≤ bound) →
      swap book now tradePairID amountIn maxAmountOut (some limitPrice) = .ok result →
      takerLimitOrderSwap book now tradePairID amountIn maxAmountOut limitPrice
          minAvgSellPrice orderType = fail .limitPriceNotSatisfied →
        ∃ steps,
          SwapSweeps now tradePairID amountIn maxAmountOut (some limitPrice) book result steps ∧
          limitPrice.value * result.totalMakerCoin.amount.value <
            result.totalTakerCoin.amount.value ∧
          result.totalTakerCoin.amount.value ≤
            limitPrice.value * result.totalMakerCoin.amount.value +
              steps.length * (1 / 10 ^ 27 / 2)) ∧
    ∀ result,
      swap book now tradePairID amountIn none (some limitPrice) = .ok result →
      makerLimitOrderSwap book now tradePairID amountIn limitPrice minAvgSellPrice =
          fail .limitPriceNotSatisfied →
        ∃ steps,
          SwapSweeps now tradePairID amountIn none (some limitPrice) book result steps ∧
          limitPrice.value * result.totalMakerCoin.amount.value - limitPrice.value / 10 ^ 27 <
            result.totalTakerCoin.amount.value ∧
          result.totalTakerCoin.amount.value ≤
            limitPrice.value * result.totalMakerCoin.amount.value +
              steps.length * (1 / 10 ^ 27 / 2) := by
  constructor
  · intro maxAmountOut orderType result outNonneg swapped rejected
    obtain ⟨steps, sweeps⟩ := swap_sweeps wellFormed amountPositive.le outNonneg swapped
    obtain ⟨nonzero, truePrice, division, below⟩ :=
      takerLimitOrderSwap_rejects swapped rejected
    refine ⟨steps, sweeps, ?_, sweeps.excess_le wellFormed amountPositive.le outNonneg⟩
    have maker : result.totalMakerCoin.amount = SweepStep.totalOut steps := by
      rw [sweeps.totalMakerCoin]
    have taker : result.totalTakerCoin.amount = SweepStep.totalIn steps := by
      rw [sweeps.totalTakerCoin]
    have paid : 0 < result.totalTakerCoin.amount.i :=
      lt_of_le_of_ne (taker ▸ sweeps.inNonneg) (Ne.symm nonzero)
    exact mul_lt_of_quo_lt_reciprocal division isReciprocal (maker ▸ sweeps.outNonneg) paid
      limitPositive below
  · intro result swapped rejected
    have outNonneg : ∀ bound ∈ (none : Option Int), 0 ≤ bound := by rintro _ ⟨⟩
    obtain ⟨steps, sweeps⟩ := swap_sweeps wellFormed amountPositive.le outNonneg swapped
    obtain ⟨expectedOut, truePrice, expected, division, below⟩ :=
      makerLimitOrderSwap_rejects amountPositive limitPositive swapped rejected
    refine ⟨steps, sweeps, ?_, sweeps.excess_le wellFormed amountPositive.le outNonneg⟩
    have maker : result.totalMakerCoin.amount = SweepStep.totalOut steps := by
      rw [sweeps.totalMakerCoin]
    have taker : result.totalTakerCoin.amount = SweepStep.totalIn steps := by
      rw [sweeps.totalTakerCoin]
    have restNonneg : 0 ≤ (amountIn - result.totalTakerCoin.amount).i := by
      rw [taker, sub_i]
      exact Int.sub_nonneg_of_le sweeps.inLe
    have expectedNonneg := quo_nonneg expected restNonneg limitPositive.le
    have totalNonneg : 0 ≤ (expectedOut + result.totalMakerCoin.amount).i := by
      rw [add_i, maker]
      exact add_nonneg expectedNonneg sweeps.outNonneg
    have short := mul_lt_of_quo_lt_reciprocal division isReciprocal totalNonneg amountPositive
      limitPositive below
    have limitValue := value_pos_iff.mpr limitPositive
    have placed := lt_quo_value expected restNonneg limitPositive
    rw [div_lt_iff₀ limitValue, value_sub] at placed
    rw [value_add] at short
    have rounding : smallest / 2 + smallest ^ 2 ≤ 1 / 10 ^ 27 := by norm_num [smallest]
    have lost := mul_le_mul_of_nonneg_left rounding limitValue.le
    have unit : limitPrice.value * (1 / 10 ^ 27) = limitPrice.value / 10 ^ 27 :=
      mul_one_div _ _
    linarith

end Orders

section Examples

def offeredWorld : World :=
  Machine.run step openWorld [.message (.placeLimitOrder
    ⟨alice, "alice", "untrn", "uatom", 8, 5, .goodTilCancelled, none, none, none, none⟩)]

def isLimitPriceError {Result : Type} : Outcome Result → Bool
  | .error (.error .limitPriceNotSatisfied) => true
  | _ => false

theorem eq_fail_of_isLimitPriceError {Result : Type} {outcome : Outcome Result}
    (isError : isLimitPriceError outcome = true) : outcome = fail .limitPriceNotSatisfied := by
  unfold isLimitPriceError at isError
  split at isError
  · rfl
  · cases isError

/-- Two tokens are all swapped at the limit price.  Half of what they buy is a tie that is
rounded down, while the reciprocal of the limit price is rounded up. -/
theorem limitOrderSwap_rejects_matched :
    let book := offeredWorld.dex.book
    let now := offeredWorld.blockTime
    let limitPrice := tickPrice (-8)
    ∃ minAvgSellPrice result,
      onePrecDec.quo limitPrice = .ok minAvgSellPrice ∧
      swap book now ⟨"uatom", "untrn", by decide⟩ (newPrecDecFromInt 2) none
        (some limitPrice) = .ok result ∧
      result.totalTakerCoin.amount = newPrecDecFromInt 2 ∧
      takerLimitOrderSwap book now ⟨"uatom", "untrn", by decide⟩ (newPrecDecFromInt 2) none
        limitPrice minAvgSellPrice .fillOrKill = fail .limitPriceNotSatisfied ∧
      makerLimitOrderSwap book now ⟨"uatom", "untrn", by decide⟩ (newPrecDecFromInt 2)
        limitPrice minAvgSellPrice = fail .limitPriceNotSatisfied := by
  intro book now limitPrice
  have reciprocal : onePrecDec.quo limitPrice = .ok ⟨1000800280056007000560028001⟩ :=
    Outcome.toOption_eq_some_iff.mp (by decide +kernel)
  have swaps : (swap book now ⟨"uatom", "untrn", by decide⟩ (newPrecDecFromInt 2) none
      (some limitPrice)).toOption.map (fun result => result.totalTakerCoin.amount) =
        some (newPrecDecFromInt 2) := by
    decide +kernel
  obtain ⟨result, swapped, all⟩ := Outcome.eq_ok_of_map_toOption swaps
  exact ⟨_, result, reciprocal, swapped, all,
    eq_fail_of_isLimitPriceError (by decide +kernel),
    eq_fail_of_isLimitPriceError (by decide +kernel)⟩

theorem limitOrderSwap_limitPrice_offered :
    let book := offeredWorld.dex.book
    let now := offeredWorld.blockTime
    let limitPrice := tickPrice (-8)
    ∃ result takerSteps makerSteps,
      (SwapSweeps now ⟨"uatom", "untrn", by decide⟩ (newPrecDecFromInt 2) none
        (some limitPrice) book result takerSteps ∧
      limitPrice.value * result.totalMakerCoin.amount.value <
        result.totalTakerCoin.amount.value ∧
      result.totalTakerCoin.amount.value ≤
        limitPrice.value * result.totalMakerCoin.amount.value +
          takerSteps.length * (1 / 10 ^ 27 / 2)) ∧
      SwapSweeps now ⟨"uatom", "untrn", by decide⟩ (newPrecDecFromInt 2) none
        (some limitPrice) book result makerSteps ∧
      limitPrice.value * result.totalMakerCoin.amount.value - limitPrice.value / 10 ^ 27 <
        result.totalTakerCoin.amount.value ∧
      result.totalTakerCoin.amount.value ≤
        limitPrice.value * result.totalMakerCoin.amount.value +
          makerSteps.length * (1 / 10 ^ 27 / 2) := by
  intro book now limitPrice
  have reachable : offeredWorld.Reachable := ⟨defaultParams, tenEach, 5, "gov", _, rfl⟩
  have reciprocal : onePrecDec.quo limitPrice = .ok ⟨1000800280056007000560028001⟩ :=
    Outcome.toOption_eq_some_iff.mp (by decide +kernel)
  have swaps : (swap book now ⟨"uatom", "untrn", by decide⟩ (newPrecDecFromInt 2) none
      (some limitPrice)).toOption.map (fun result => result.totalTakerCoin.amount) =
        some (newPrecDecFromInt 2) := by
    decide +kernel
  obtain ⟨result, swapped, _⟩ := Outcome.eq_ok_of_map_toOption swaps
  obtain ⟨taker, maker⟩ := @limitOrderSwap_limitPrice book now ⟨"uatom", "untrn", by decide⟩
    (newPrecDecFromInt 2) limitPrice _ reachable.sound.wellFormed.book (by decide)
    (by decide +kernel) reciprocal
  obtain ⟨takerSteps, takerBounds⟩ := taker none .fillOrKill result (by rintro _ ⟨⟩) swapped
    (eq_fail_of_isLimitPriceError (by decide +kernel))
  obtain ⟨makerSteps, makerBounds⟩ := maker result swapped
    (eq_fail_of_isLimitPriceError (by decide +kernel))
  exact ⟨result, takerSteps, makerSteps, takerBounds, makerBounds⟩

end Examples

end Neutron.Dex
