import Neutron.Dex.Sweep
import Neutron.Dex.TickPrices
import Neutron.Dex.Uncrossed

namespace Neutron.Dex

open Library PrecDec

theorem OrderBook.WellFormed.hasToken {book : OrderBook} (wellFormed : book.WellFormed)
    {tick : TickLiquidity} (stored : book.tickLiquidity.get? tick.key = some tick) :
    tick.HasToken := by
  cases tick with
  | poolReserves reserves =>
      exact (wellFormed.pool (OrderBook.getPoolReserves_eq_some_iff.mpr stored)).1
  | limitOrderTranche tranche =>
      exact (wellFormed.active (OrderBook.getLimitOrderTranche_eq_some_iff.mpr stored)).1

namespace SweepsBook

variable {now : Time} {tradePairID : TradePairID} {amountIn : PrecDec}
  {maxAmountOut : Option Int} {limitPrice : Option PrecDec} {book : OrderBook}
  {result : SwapResult} {steps : List SweepStep}

theorem live (sweeps : SweepsBook now tradePairID amountIn maxAmountOut limitPrice book
      result steps) (wellFormed : book.WellFormed) {step : SweepStep} (member : step ∈ steps) :
    step.tick.Live now book :=
  ⟨sweeps.stored step member, wellFormed.hasToken (sweeps.stored step member),
    sweeps.unexpired step member⟩

theorem noneBelow_reversed (sweeps : SweepsBook now tradePairID amountIn maxAmountOut
      limitPrice book result steps) (wellFormed : book.WellFormed)
    (uncrossed : Uncrossed now book) {first : SweepStep} (member : first ∈ steps)
    {bound : Int} (within : ∀ step ∈ steps, step.tick.tickIndex ≤ bound) :
    NoneBelow now (book.writeAll result.writes) tradePairID.reversed (-bound) := by
  intro tick live pair
  by_cases written : ∃ step ∈ steps, step.Writes tick.key
  · obtain ⟨step, isStep, isTick | ⟨reserves, isPool, isCounterpart⟩⟩ := written
    · have samePair := sweeps.pair step isStep
      rw [← isTick, pair] at samePair
      exact absurd samePair tradePairID.reversed_ne
    · have below := within step isStep
      have index : tick.tickIndex = reserves.key.counterpart.tickIndexTakerToMaker := by
        rw [← tick.key_tickIndexTakerToMaker, isCounterpart]
        rfl
      rw [isPool] at below
      have below : reserves.key.tickIndexTakerToMaker ≤ bound := below
      rw [index, PoolReservesKey.counterpart]
      dsimp only
      omega
  · have unwritten : ∀ step ∈ steps, ¬ step.Writes tick.key :=
      fun step isStep writes => written ⟨step, isStep, writes⟩
    have before : tick.Live now book :=
      ⟨(sweeps.unchanged _ unwritten).symm.trans live.stored, live.token, live.unexpired⟩
    have apart := uncrossed tradePairID first.tick.tickIndex
      ⟨first.tick, sweeps.live wellFormed member, sweeps.pair first member, rfl⟩
      tick.tickIndex ⟨tick, before, pair, rfl⟩
    have below := within first member
    omega

end SweepsBook

section Spending

variable {now : Time} {tradePairID : TradePairID} {limitPrice : Option PrecDec}
  {book final : OrderBook} {tick : TickLiquidity} {liquidity swapped : Liquidity}
  {maxIn inAmount outAmount : PrecDec} {maxOut : Option PrecDec} {steps : List SweepStep}

theorem swap_calcSwapAmounts (wellFormed : book.WellFormed)
    (stored : book.tickLiquidity.get? tick.key = some tick)
    (wrapped : wrapTickLiquidity book now tradePairID tick = .ok (some liquidity))
    (inPositive : 0 < maxIn.i)
    (swap : liquidity.swap maxIn maxOut = .ok (inAmount, outAmount, swapped)) :
    calcSwapAmounts tick.reserves tick.price maxIn maxOut = .ok (inAmount, outAmount) := by
  have token := wellFormed.hasToken stored
  cases tick with
  | poolReserves reserves =>
      obtain ⟨pool, rfl, loaded, rfl⟩ := wrapTickLiquidity_poolReserves wellFormed
        (OrderBook.getPoolReserves_eq_some_iff.mpr stored) wrapped
      obtain ⟨⟨paid, bought, swappedPool⟩, poolSwap, result⟩ := of_bind swap
      cases result
      have something : ¬ (maxIn.IsZero ∨
          (pool.makerSide tradePairID).decReservesMakerDenom.IsZero) := by
        rintro (noneIn | noneOut)
        · exact ne_of_gt inPositive noneIn
        · exact ne_of_gt token noneOut
      rw [Pool.swap_eq_ok_iff, if_neg something] at poolSwap
      exact poolSwap.1
  | limitOrderTranche tranche =>
      obtain ⟨rfl, _⟩ := wrapTickLiquidity_limitOrderTranche wrapped
      obtain ⟨⟨paid, bought, swappedTranche⟩, trancheSwap, result⟩ := of_bind swap
      cases result
      exact (LimitOrderTranche.swap_eq_ok_iff.mp trancheSwap).1

variable {reserves price : PrecDec}

theorem calcSwapAmounts_out_pos
    (computed : calcSwapAmounts reserves price maxIn none = .ok (inAmount, outAmount))
    (reservesPositive : 0 < reserves.i) (pricePositive : 0 < price.i)
    (priceLe : price.value ≤ 103 * 10 ^ 21) (whole : 1 ≤ maxIn.value) : 0 < outAmount.i := by
  obtain ⟨affordable, division, rest⟩ := of_bind computed
  cases rest
  have inNonneg : 0 ≤ maxIn.i := value_nonneg_iff.mp (by linarith)
  have priceValue := value_pos_iff.mpr pricePositive
  have quotient := lt_quo_value division inNonneg pricePositive
  have least : 1 / (103 * 10 ^ 21) ≤ maxIn.value / price.value :=
    div_le_div₀ (by linarith) whole priceValue priceLe
  have affordablePositive : 0 < affordable.i := by
    rw [← value_pos_iff]
    have rounding : smallest / 2 + smallest ^ 2 < 1 / (103 * 10 ^ 21) := by
      norm_num [smallest]
    linarith
  have member := minPrecDecArr_mem reserves [affordable]
  rw [List.mem_cons, List.mem_singleton] at member
  change 0 < (minPrecDecArr reserves [affordable]).i
  rcases member with isReserves | isAffordable
  · rwa [isReserves]
  · rwa [isAffordable]

theorem smallest_le_value {amount : PrecDec} (positive : 0 < amount.i) :
    smallest ≤ amount.value := by
  rw [value_eq]
  have atLeast : (1 : ℚ) ≤ amount.i := by exact_mod_cast positive
  exact le_mul_of_one_le_left smallest_pos.le atLeast

theorem price_le_of_free
    (fair : FairTrade reserves price maxIn maxOut inAmount outAmount)
    (free : inAmount.i = 0) (bought : 0 < outAmount.i) : price.value ≤ 1 / 2 := by
  have least := smallest_le_value bought
  have paid : inAmount.value = 0 := by rw [value_eq, free, Int.cast_zero, zero_mul]
  have cost : price.value * outAmount.value - inAmount.value ≤
      smallest / 2 * max 1 price.value := fair.cost_sub_in_le
  rw [paid, sub_zero] at cost
  have unit := smallest_pos
  by_contra above
  have pricePositive : 0 < price.value := by linarith
  have costs : price.value * smallest ≤ price.value * outAmount.value :=
    mul_le_mul_of_nonneg_left least pricePositive.le
  rcases max_cases 1 price.value with ⟨isOne, _⟩ | ⟨isPrice, _⟩
  · rw [isOne] at cost
    have half : 1 / 2 * smallest < price.value * smallest :=
      mul_lt_mul_of_pos_right (not_le.mp above) unit
    linarith
  · rw [isPrice] at cost
    have twice : 0 < price.value * smallest := mul_pos pricePositive unit
    linarith

theorem OrderBook.WellFormed.price_le (wellFormed : book.WellFormed)
    (stored : book.tickLiquidity.get? tick.key = some tick) :
    tick.price.value ≤ 103 * 10 ^ 21 := by
  have inRange := wellFormed.inRange stored
  have below : tick.tickIndex ≤ (maxTickExp : Nat) := by
    have inside := not_lt.mp inRange
    omega
  have ordered := tickPrice_mono below
  rw [tickPrice_natCast] at ordered
  rw [wellFormed.price_eq stored]
  exact (value_le_value_iff.mpr ordered).trans (precomputedPrices_value_le (le_refl _))

theorem Sweep.free_step
    (sweep : Sweep now tradePairID limitPrice book maxIn maxOut steps final)
    (unlimited : maxOut = none) (wellFormed : book.WellFormed) (inPositive : 0 < maxIn.i)
    (free : (SweepStep.totalIn steps).i = 0) :
    ∀ step ∈ steps, step.inAmount.i = 0 ∧
      calcSwapAmounts step.tick.reserves step.tick.price maxIn none =
        .ok (step.inAmount, step.outAmount) ∧
      0 < step.tick.reserves.i ∧ 0 < step.tick.price.i ∧
      step.tick.price.value ≤ 103 * 10 ^ 21 := by
  induction sweep with
  | nil => exact fun step impossible => absurd impossible List.not_mem_nil
  | @cons book _ maxIn inAmount outAmount maxOut tick _ _ steps stored _ _ wrapped swap
      visited rest ih =>
      subst unlimited
      have restNonneg := rest.totalIn_nonneg
      have firstNonneg := visited.trade.in_nonneg
      rw [SweepStep.totalIn_cons, add_i] at free
      dsimp only at free
      have firstFree : inAmount.i = 0 := by omega
      have same : maxIn - inAmount = maxIn := by
        ext
        rw [sub_i, firstFree, sub_zero]
      have token : 0 < tick.reserves.i := by
        cases tick with
        | poolReserves reserves => exact wellFormed.hasToken stored
        | limitOrderTranche tranche => exact wellFormed.hasToken stored
      rw [same] at ih
      have later := ih rfl (visited.visit.wellFormed wellFormed) inPositive (by omega)
      intro step member
      rcases List.mem_cons.mp member with rfl | inRest
      · exact ⟨firstFree, swap_calcSwapAmounts wellFormed stored wrapped inPositive swap,
          token, wellFormed.price_pos stored, wellFormed.price_le stored⟩
      · exact later step inRest

theorem Sweep.price_le_of_free
    (sweep : Sweep now tradePairID limitPrice book maxIn none steps final)
    (wellFormed : book.WellFormed) (whole : 1 ≤ maxIn.value)
    (free : (SweepStep.totalIn steps).i = 0) :
    ∀ step ∈ steps, step.tick.price.value ≤ 1 / 2 := by
  intro step member
  have inPositive : 0 < maxIn.i := value_pos_iff.mp (by linarith)
  obtain ⟨firstFree, computed, token, pricePositive, priceLe⟩ :=
    sweep.free_step rfl wellFormed inPositive free step member
  have bought := calcSwapAmounts_out_pos computed token pricePositive priceLe whole
  obtain ⟨paid, received, again, fair⟩ := calcSwapAmounts_fair token.le pricePositive
    inPositive.le (fun limit isLimit => absurd isLimit (@Option.not_mem_none PrecDec limit))
  cases computed.symm.trans again
  exact Dex.price_le_of_free fair firstFree bought

theorem mul_reserves_of_free
    (computed : calcSwapAmounts reserves price maxIn none = .ok (inAmount, outAmount))
    (pricePositive : 0 < price.i) (priceLe : price.value ≤ 103 * 10 ^ 21)
    (whole : 1 ≤ maxIn.value) (free : inAmount.i = 0) : ¬ 0 < (price.mul reserves).i := by
  obtain ⟨affordable, division, rest⟩ := of_bind computed
  cases rest
  have inPositive : 0 < maxIn.i := value_pos_iff.mp (by linarith)
  rw [minPrecDec_i] at free
  have member := minPrecDecArr_mem reserves [affordable]
  rw [List.mem_cons, List.mem_singleton] at member
  rcases member with isReserves | isAffordable
  · change min (price.mul (minPrecDecArr reserves [affordable])).i maxIn.i = 0 at free
    rw [isReserves] at free
    omega
  · change min (price.mul (minPrecDecArr reserves [affordable])).i maxIn.i = 0 at free
    rw [isAffordable] at free
    have quotient := lt_quo_value division inPositive.le pricePositive
    have priceValue := value_pos_iff.mpr pricePositive
    have affordableNonneg := quo_nonneg division inPositive.le pricePositive.le
    have cost := le_mul_value pricePositive.le affordableNonneg
    have costFree : (price.mul affordable).value = 0 := by
      have zero : (price.mul affordable).i = 0 := by omega
      rw [value_eq, zero, Int.cast_zero, zero_mul]
    have spent : maxIn.value - price.value * (smallest / 2 + smallest ^ 2) <
        price.value * affordable.value := by
      have scaled := mul_lt_mul_of_pos_left quotient priceValue
      rw [mul_div_cancel₀ _ priceValue.ne', mul_add, mul_add] at scaled
      linarith
    have lost := mul_le_mul_of_nonneg_right priceLe
      (show 0 ≤ smallest / 2 + smallest ^ 2 by norm_num [smallest])
    have small : 103 * 10 ^ 21 * (smallest / 2 + smallest ^ 2) + smallest / 2 < 1 := by
      norm_num [smallest]
    linarith

theorem SwapSweeps.unfilled_of_free {result : SwapResult}
    (sweeps : SwapSweeps now tradePairID maxIn none limitPrice book result steps)
    (wellFormed : book.WellFormed) (whole : 1 ≤ maxIn.value)
    (free : (SweepStep.totalIn steps).i = 0) : result.orderFilled = false := by
  by_contra filled
  have inPositive : 0 < maxIn.i := value_pos_iff.mp (by linarith)
  obtain ⟨step, isLast, ⟨affordable, division, tooLittle⟩ | ⟨_, impossible, _⟩⟩ :=
    sweeps.filled (by simpa using filled)
  swap
  · cases impossible
  have member := List.mem_of_getLast? isLast
  have cheap := sweeps.sweep.price_le_of_free wellFormed whole free step member
  obtain ⟨_, _, _, pricePositive, _⟩ :=
    sweeps.sweep.free_step rfl wellFormed inPositive free step member
  have left : maxIn - SweepStep.totalIn steps = maxIn := by
    ext
    rw [sub_i, free, sub_zero]
  rw [left] at division
  have quotient := lt_quo_value division inPositive.le pricePositive
  have priceValue := value_pos_iff.mpr pricePositive
  have twice : 2 ≤ maxIn.value / step.tick.price.value := by
    rw [le_div_iff₀ priceValue]
    linarith
  have less : affordable.value < 1 := by
    rw [← value_onePrecDec]
    exact value_lt_value_iff.mpr tooLittle
  have rounding : smallest / 2 + smallest ^ 2 < 1 := by norm_num [smallest]
  linarith

theorem in_le_twice_cost
    (fair : FairTrade reserves price maxIn maxOut inAmount outAmount)
    (pricePositive : 0 < price.i) :
    inAmount.value ≤ 2 * (price.value * outAmount.value) := by
  have cost : inAmount.value - price.value * outAmount.value ≤ smallest / 2 :=
    fair.in_sub_cost_le
  have costNonneg : 0 ≤ price.value * outAmount.value :=
    mul_nonneg (value_pos_iff.mpr pricePositive).le fair.out_nonneg
  rcases (value_nonneg_iff.mp fair.in_nonneg).eq_or_lt with free | paid
  · have nothing : inAmount.value = 0 := by rw [value_eq, ← free, Int.cast_zero, zero_mul]
    linarith
  · have least := smallest_le_value paid
    linarith

theorem Sweep.totalIn_le {limit : PrecDec}
    (sweep : Sweep now tradePairID (some limit) book maxIn maxOut steps final)
    (wellFormed : book.WellFormed) (inNonneg : 0 ≤ maxIn.i)
    (outNonneg : ∀ limit ∈ maxOut, 0 ≤ limit.i) :
    (SweepStep.totalIn steps).value ≤
      2 * (limit.value * (SweepStep.totalOut steps).value) := by
  induction sweep with
  | nil => simp [value_eq]
  | @cons book _ maxIn inAmount outAmount maxOut tick _ _ steps stored _ within wrapped swap
      visited rest ih =>
      have pricePositive := wellFormed.price_pos stored
      obtain ⟨paid, bought, after, again, fair⟩ :=
        liquidity_swap_total wellFormed stored wrapped inNonneg outNonneg
      cases swap.symm.trans again
      have first := in_le_twice_cost fair pricePositive
      have priceLe : tick.price.value ≤ limit.value :=
        value_le_value_iff.mpr (not_lt_iff.mp within)
      have cost := mul_le_mul_of_nonneg_right priceLe fair.out_nonneg
      have restNonneg : 0 ≤ (maxIn - inAmount).i := by
        rw [sub_i]
        exact Int.sub_nonneg_of_le visited.trade.in_le
      have later := ih (visited.visit.wellFormed wellFormed) restNonneg
        (restOut_nonneg swap outNonneg)
      rw [SweepStep.totalIn_cons, SweepStep.totalOut_cons, value_add, value_add]
      dsimp only
      linarith

end Spending

/-- What is known of a swap of a deposit, up to the tick before the one it deposits at. -/
structure DepositSwap (now : Time) (tradePairID : TradePairID) (limitTick : Int)
    (amount : PrecDec) (book : OrderBook) (result : SwapResult) : Prop where
  in_nonneg : 0 ≤ result.totalTakerCoin.amount.i
  in_le : result.totalTakerCoin.amount.i ≤ amount.i
  out_nonneg : 0 ≤ result.totalMakerCoin.amount.i
  cost : result.totalTakerCoin.amount.value ≤
    2 * ((tickPrice limitTick).value * result.totalMakerCoin.amount.value)
  /-- Nothing is left before the tick to deposit at. -/
  swept : result.orderFilled = false →
    NoneBelow now (book.writeAll result.writes) tradePairID (limitTick + 1)
  unspent : ¬ result.totalTakerCoin.amount.IsPositive → result.orderFilled = false
  /-- Offers that were traded with were the best ones, and nothing on the other side
  crosses them. -/
  traded : (book.writeAll result.writes = book ∧
      ¬ result.totalTakerCoin.amount.IsPositive) ∨
    (NoneBelow now (book.writeAll result.writes) tradePairID.reversed (-limitTick) ∧
      ∃ offer ∈ book.offers now tradePairID, offer ≤ limitTick)

variable {limitPrice : Option PrecDec}

theorem Sweep.final_eq {now : Time} {tradePairID : TradePairID}
    {book final : OrderBook} {maxIn : PrecDec} {maxOut : Option PrecDec}
    (sweep : Sweep now tradePairID limitPrice book maxIn maxOut [] final) : final = book := by
  cases sweep
  rfl

section DepositSwap

variable {now : Time} {dex : DexState} {tradePairID : TradePairID} {limitTick amount : Int}
  {result : SwapResult}

theorem swap_keeps (wellFormed : dex.WellFormed) (uncrossed : Uncrossed now dex.book)
    {amountIn : PrecDec} (inNonneg : 0 ≤ amountIn.i)
    (ok : swap dex.book now tradePairID amountIn none limitPrice = .ok result) :
    (dex.updateBook result.writes).WellFormed ∧
      Uncrossed now (dex.updateBook result.writes).book := by
  have spec := swap_spec wellFormed.book inNonneg (by rintro _ ⟨⟩) ok
  have moves := @SwapSpec.moves tradePairID amountIn result (.free now) dex limitPrice spec
  exact @Moves.invariant (.free now) _ _ _
    (fun dex => dex.WellFormed ∧ Uncrossed now dex.book)
    (fun inv move => ⟨(move.keeps inv.1).wellFormed, move.uncrossed inv.1 inv.2⟩) moves
    ⟨wellFormed, uncrossed⟩

theorem swap_depositSwap (wellFormed : dex.WellFormed) (uncrossed : Uncrossed now dex.book)
    (inside : ¬ IsTickOutOfRange limitTick) (positive : 0 < amount)
    (ok : swap dex.book now tradePairID (newPrecDecFromInt amount) none
      (some (tickPrice limitTick)) = .ok result) :
    DepositSwap now tradePairID limitTick (newPrecDecFromInt amount) dex.book result := by
  have whole : 1 ≤ (newPrecDecFromInt amount).value := by
    rw [value_newPrecDecFromInt]
    exact_mod_cast positive
  have inNonneg : 0 ≤ (newPrecDecFromInt amount).i := value_nonneg_iff.mp (by linarith)
  have noLimit : ∀ limit ∈ (none : Option Int), 0 ≤ limit := fun _ isLimit => nomatch isLimit
  obtain ⟨steps, sweeps⟩ := swap_sweeps wellFormed.book inNonneg noLimit ok
  have sweepsBook := sweeps.sweepsBook wellFormed.book inNonneg noLimit
  have spent : result.totalTakerCoin.amount = SweepStep.totalIn steps := by
    rw [sweeps.totalTakerCoin]
  have bought : result.totalMakerCoin.amount = SweepStep.totalOut steps := by
    rw [sweeps.totalMakerCoin]
  refine ⟨spent ▸ sweeps.inNonneg, spent ▸ sweeps.inLe, bought ▸ sweeps.outNonneg, ?_, ?_, ?_, ?_⟩
  · rw [spent, bought]
    exact sweeps.sweep.totalIn_le wellFormed.book inNonneg (by rintro _ ⟨⟩)
  · intro unfilled tick live pair
    have past : (tickPrice limitTick).i < tick.price.i := sweeps.swept unfilled tick live pair
    have price := (swap_keeps wellFormed uncrossed inNonneg ok).1.book.price_eq live.stored
    rw [price] at past
    by_contra below
    have ordered := tickPrice_mono (show tick.tickIndex ≤ limitTick by omega)
    omega
  · intro unspent
    have nonneg := sweeps.inNonneg
    rw [spent] at unspent
    have notPositive := not_lt.mp unspent
    exact sweeps.unfilled_of_free wellFormed.book whole (by omega)
  · cases steps with
    | nil =>
        refine .inl ⟨sweeps.sweep.final_eq, ?_⟩
        rw [spent]
        exact lt_irrefl _
    | cons first rest =>
        have within : ∀ step ∈ first :: rest, step.tick.tickIndex ≤ limitTick := by
          intro step member
          have notPast := sweepsBook.withinLimit step member
          by_contra above
          apply notPast
          rw [wellFormed.book.price_eq (sweepsBook.stored step member)]
          exact tickPrice_lt inside (not_le.mp above)
        refine .inr ⟨sweepsBook.noneBelow_reversed wellFormed.book uncrossed
          List.mem_cons_self within, first.tick.tickIndex,
          ⟨first.tick, sweepsBook.live wellFormed.book List.mem_cons_self,
            sweepsBook.pair first List.mem_cons_self, rfl⟩, within first List.mem_cons_self⟩

end DepositSwap

theorem PairID.takerToken0_eq (pairID : PairID) :
    (newTradePairIDFromMaker pairID pairID.token0).reversed = pairID.takerToken0 := by
  ext1 <;> simp [takerToken0]

theorem PairID.takerToken1_eq (pairID : PairID) :
    (newTradePairIDFromMaker pairID pairID.token1).reversed = pairID.takerToken1 := by
  ext1 <;> simp [takerToken1]

@[simp] theorem PairID.takerToken0_reversed (pairID : PairID) :
    pairID.takerToken0.reversed = pairID.takerToken1 := rfl

@[simp] theorem PairID.takerToken1_reversed (pairID : PairID) :
    pairID.takerToken1.reversed = pairID.takerToken0 := rfl

theorem NoneBelow.mono {now : Time} {book : OrderBook} {tradePairID : TradePairID}
    {low high : Int} (noneBelow : NoneBelow now book tradePairID high) (ordered : low ≤ high) :
    NoneBelow now book tradePairID low :=
  fun tick live pair => ordered.trans (noneBelow tick live pair)

theorem NoneBelow.not_isBehindEnemyLines {now : Time} {book : OrderBook}
    {tradePairID : TradePairID} {tickIndex : Int} (wellFormed : book.WellFormed)
    (noneBelow : NoneBelow now book tradePairID.reversed (-tickIndex)) :
    ¬ IsBehindEnemyLines book now tradePairID tickIndex := by
  unfold IsBehindEnemyLines
  split
  · exact id
  · rename_i oppositeTick found
    obtain ⟨⟨tick, live, pair, rfl⟩, _⟩ :=
      isLeast_of_getCurrTickIndexTakerToMaker wellFormed found
    have above := noneBelow tick live pair
    omega

theorem not_isPoolBehindEnemyLines {now : Time} {book : OrderBook} {pairID : PairID}
    {tickIndex : Int} {fee : Nat} {amount0 amount1 : PrecDec} (wellFormed : book.WellFormed)
    (clear0 : amount0.IsPositive → NoneBelow now book pairID.takerToken0 (tickIndex - fee))
    (clear1 : amount1.IsPositive →
      NoneBelow now book pairID.takerToken1 (-tickIndex - fee)) :
    ¬ IsPoolBehindEnemyLines book now pairID tickIndex fee amount0 amount1 := by
  rintro (⟨positive, behind⟩ | ⟨positive, behind⟩)
  · refine NoneBelow.not_isBehindEnemyLines wellFormed ?_ behind
    rw [pairID.takerToken0_eq]
    exact (clear0 positive).mono (by omega)
  · refine NoneBelow.not_isBehindEnemyLines wellFormed ?_ behind
    rw [pairID.takerToken1_eq]
    exact (clear1 positive).mono (by omega)

section Halves

variable {now : Time} {dex : DexState} {pairID : PairID} {tickIndex : Int} {fee : Nat}
  {amount0 amount1 : Int}

/-- What a swap leaves of an amount, and what it buys for the rest. -/
structure SwapLeaves (limitTick : Int) (amount left bought : PrecDec) : Prop where
  inside : ¬ IsTickOutOfRange limitTick
  left_nonneg : 0 ≤ left.i
  left_le : left.i ≤ amount.i
  bought_nonneg : 0 ≤ bought.i
  cost : left.IsPositive →
    amount.value - left.value ≤ 2 * ((tickPrice limitTick).value * bought.value)

/-- The amounts a deposit is left with, in the book after its swaps. -/
inductive DepositAmounts (now : Time) (pairID : PairID) (tickIndex : Int) (fee : Nat)
    (amount0 amount1 : PrecDec) (book : OrderBook) : PrecDec → PrecDec → Prop
  | unswapped : DepositAmounts now pairID tickIndex fee amount0 amount1 book amount0 amount1
  | swapped0 {left bought : PrecDec}
      (leaves : SwapLeaves (tickIndex - fee - 1) amount0 left bought)
      (clear : NoneBelow now book pairID.takerToken1 (-(tickIndex - fee - 1))) :
      DepositAmounts now pairID tickIndex fee amount0 amount1 book left (amount1 + bought)
  | swapped1 {left bought : PrecDec}
      (leaves : SwapLeaves (-tickIndex - fee - 1) amount1 left bought)
      (clear : NoneBelow now book pairID.takerToken0 (-(-tickIndex - fee - 1))) :
      DepositAmounts now pairID tickIndex fee amount0 amount1 book (amount0 + bought) left

structure FirstSwapped (now : Time) (dex : DexState) (pairID : PairID) (tickIndex : Int)
    (fee : Nat) (amount0 amount1 : PrecDec) (first : SwapOnDepositResult)
    (swappedToken0 : Bool) : Prop where
  wellFormed : (dex.updateBook first.writes).WellFormed
  uncrossed : Uncrossed now (dex.updateBook first.writes).book
  inAmount1 : first.inAmount1 = amount1
  clear0 : first.depositAmount0.IsPositive →
    NoneBelow now (dex.book.writeAll first.writes) pairID.takerToken0 (tickIndex - fee)
  swapped : swappedToken0 = true →
    NoneBelow now (dex.book.writeAll first.writes) pairID.takerToken1
        (-(tickIndex - fee - 1)) ∧
      ∃ bought, SwapLeaves (tickIndex - fee - 1) amount0 first.depositAmount0 bought ∧
        first.depositAmount1 = amount1 + bought
  unswapped : swappedToken0 = false →
    first.depositAmount0 = amount0 ∧ first.depositAmount1 = amount1

theorem unfilled_of_deposited {orderFilled : Bool} {swapIn amount : PrecDec}
    (deposited : (swapOnDepositInAmount orderFilled swapIn amount - swapIn).IsPositive) :
    orderFilled = false := by
  cases orderFilled with
  | false => rfl
  | true =>
      unfold swapOnDepositInAmount at deposited
      rw [if_pos rfl, sub_self] at deposited
      exact absurd deposited (lt_irrefl _)

theorem DepositSwap.leaves {tradePairID : TradePairID} {limitTick : Int} {amount : PrecDec}
    {book : OrderBook} {result : SwapResult}
    (spec : DepositSwap now tradePairID limitTick amount book result)
    (inside : ¬ IsTickOutOfRange limitTick) :
    SwapLeaves limitTick amount
      (swapOnDepositInAmount result.orderFilled result.totalTakerCoin.amount amount -
        result.totalTakerCoin.amount) result.totalMakerCoin.amount where
  inside := inside
  left_nonneg := swapOnDepositInAmount_nonneg spec.in_le _
  left_le := by
    have nonneg := spec.in_nonneg
    have inLe := spec.in_le
    unfold swapOnDepositInAmount
    rw [sub_i]
    split <;> omega
  bought_nonneg := spec.out_nonneg
  cost := fun left => by
    rw [swapOnDepositInAmount, unfilled_of_deposited left]
    simpa using spec.cost

theorem newPrecDecFromInt_isPositive_iff {amount : Int} :
    (newPrecDecFromInt amount).IsPositive ↔ 0 < amount := by
  change 0 < (newPrecDecFromInt amount).i ↔ 0 < amount
  rw [newPrecDecFromInt_i]
  exact mul_pos_iff_of_pos_right (by decide)

theorem swapOnDepositToken0_total (wellFormed : dex.WellFormed)
    (uncrossed : Uncrossed now dex.book) (valid0 : ValidDenom pairID.token0)
    (valid1 : ValidDenom pairID.token1)
    (inside : 0 < amount0 → ¬ IsTickOutOfRange (tickIndex - fee - 1)) :
    ∃ first swappedToken0,
      swapOnDepositToken0 dex.book now pairID tickIndex fee (newPrecDecFromInt amount0)
          (newPrecDecFromInt amount1) = .ok (first, swappedToken0) ∧
        FirstSwapped now dex pairID tickIndex fee (newPrecDecFromInt amount0)
          (newPrecDecFromInt amount1) first swappedToken0 := by
  unfold swapOnDepositToken0
  split
  · rename_i isPositive
    have positive := newPrecDecFromInt_isPositive_iff.mp isPositive
    have inNonneg : 0 ≤ (newPrecDecFromInt amount0).i := le_of_lt isPositive
    have limit : mustCalcPrice (-(-tickIndex + fee) - 1) =
        .ok (tickPrice (tickIndex - fee - 1)) := by
      rw [show -(-tickIndex + fee) - 1 = tickIndex - fee - 1 by omega]
      exact mustCalcPrice_eq_ok_iff.mpr ⟨inside positive, rfl⟩
    obtain ⟨result, swap⟩ := @swap_total dex pairID.takerToken0 (newPrecDecFromInt amount0)
      none wellFormed valid0 valid1 inNonneg (by rintro _ ⟨⟩) now
      (some (tickPrice (tickIndex - fee - 1)))
    have spec := swap_depositSwap wellFormed uncrossed (inside positive) positive swap
    obtain ⟨nextWellFormed, nextUncrossed⟩ := swap_keeps wellFormed uncrossed inNonneg swap
    dsimp only
    rw [limit, Outcome.ok_bind, swap, Outcome.ok_bind]
    split
    · rename_i spent
      refine ⟨_, _, rfl, nextWellFormed, nextUncrossed, rfl, fun deposited => ?_, fun _ => ?_,
        fun impossible => nomatch impossible⟩
      · exact (spec.swept (unfilled_of_deposited deposited)).mono (by omega)
      · rcases spec.traded with ⟨_, unspent⟩ | ⟨noneBelow, _⟩
        · exact absurd spent unspent
        · exact ⟨noneBelow, _, spec.leaves (inside positive), rfl⟩
    · rename_i unspent
      refine ⟨_, _, rfl, nextWellFormed, nextUncrossed, rfl, fun _ => ?_,
        fun impossible => (nomatch impossible), fun _ => ⟨rfl, rfl⟩⟩
      exact (spec.swept (spec.unspent unspent)).mono (by omega)
  · rename_i notPositive
    exact ⟨_, _, rfl, wellFormed, uncrossed, rfl, fun positive => absurd positive notPositive,
      fun impossible => (nomatch impossible), fun _ => ⟨rfl, rfl⟩⟩

theorem FirstSwapped.amounts {amount0 amount1 : PrecDec} {first : SwapOnDepositResult}
    {swappedToken0 : Bool}
    (half : FirstSwapped now dex pairID tickIndex fee amount0 amount1 first swappedToken0) :
    DepositAmounts now pairID tickIndex fee amount0 amount1 (dex.book.writeAll first.writes)
      first.depositAmount0 first.depositAmount1 := by
  cases swappedToken0 with
  | true =>
      obtain ⟨clear, bought, leaves, isSum⟩ := half.swapped rfl
      rw [isSum]
      exact .swapped0 leaves clear
  | false =>
      obtain ⟨same0, same1⟩ := half.unswapped rfl
      rw [same0, same1]
      exact .unswapped

structure SwappedForDeposit (now : Time) (dex : DexState) (pairID : PairID)
    (tickIndex : Int) (fee : Nat) (amount0 amount1 : PrecDec) (result : SwapOnDepositResult) :
    Prop where
  wellFormed : (dex.updateBook result.writes).WellFormed
  uncrossed : Uncrossed now (dex.updateBook result.writes).book
  clear : ¬ IsPoolBehindEnemyLines (dex.book.writeAll result.writes) now pairID tickIndex fee
    result.depositAmount0 result.depositAmount1
  amounts : DepositAmounts now pairID tickIndex fee amount0 amount1
    (dex.book.writeAll result.writes) result.depositAmount0 result.depositAmount1

theorem swapOnDeposit_total (wellFormed : dex.WellFormed)
    (uncrossed : Uncrossed now dex.book) (valid0 : ValidDenom pairID.token0)
    (valid1 : ValidDenom pairID.token1)
    (inside0 : 0 < amount0 → ¬ IsTickOutOfRange (tickIndex - fee - 1))
    (inside1 : 0 < amount1 → ¬ IsTickOutOfRange (-tickIndex - fee - 1)) :
    ∃ result,
      swapOnDeposit dex.book now pairID tickIndex fee (newPrecDecFromInt amount0)
          (newPrecDecFromInt amount1) = .ok result ∧
        SwappedForDeposit now dex pairID tickIndex fee (newPrecDecFromInt amount0)
          (newPrecDecFromInt amount1) result := by
  obtain ⟨first, swappedToken0, firstSwap, half⟩ := @swapOnDepositToken0_total now dex pairID
    tickIndex fee amount0 amount1 wellFormed uncrossed valid0 valid1 inside0
  unfold swapOnDeposit
  rw [firstSwap, Outcome.ok_bind]
  dsimp only
  split
  · rename_i isPositive
    have positive := newPrecDecFromInt_isPositive_iff.mp isPositive
    have inNonneg : 0 ≤ (newPrecDecFromInt amount1).i := le_of_lt isPositive
    have limit : mustCalcPrice (-(tickIndex + fee) - 1) =
        .ok (tickPrice (-tickIndex - fee - 1)) := by
      rw [show -(tickIndex + fee) - 1 = -tickIndex - fee - 1 by omega]
      exact mustCalcPrice_eq_ok_iff.mpr ⟨inside1 positive, rfl⟩
    obtain ⟨result, secondSwap⟩ := @swap_total (dex.updateBook first.writes)
      pairID.takerToken1 (newPrecDecFromInt amount1) none half.wellFormed valid1 valid0
      inNonneg (by rintro _ ⟨⟩) now (some (tickPrice (-tickIndex - fee - 1)))
    have spec := swap_depositSwap half.wellFormed half.uncrossed (inside1 positive) positive
      secondSwap
    have kept := swap_keeps half.wellFormed half.uncrossed inNonneg secondSwap
    have joined : (dex.updateBook first.writes).updateBook result.writes =
        dex.updateBook (first.writes ++ result.writes) := by
      simp [DexState.updateBook]
    have joinedBook : (dex.book.writeAll first.writes).writeAll result.writes =
        dex.book.writeAll (first.writes ++ result.writes) :=
      (OrderBook.writeAll_append _ _ _).symm
    rw [joined] at kept
    change swap (dex.book.writeAll first.writes) _ _ _ _ _ = _ at secondSwap
    rw [limit, Outcome.ok_bind, secondSwap, Outcome.ok_bind]
    have clear1 : result.orderFilled = false →
        NoneBelow now (dex.book.writeAll (first.writes ++ result.writes))
          pairID.takerToken1 (-tickIndex - fee) :=
      fun unfilled => joinedBook ▸ (spec.swept unfilled).mono (by omega)
    have traded := spec.traded
    change ((dex.book.writeAll first.writes).writeAll result.writes =
      dex.book.writeAll first.writes ∧ _) ∨ (NoneBelow now
        ((dex.book.writeAll first.writes).writeAll result.writes) _ _ ∧ _) at traded
    rw [joinedBook] at traded
    -- The second swap would trade with what the first one left behind.
    have apart : swappedToken0 = true →
        ∀ offer ∈ (dex.book.writeAll first.writes).offers now pairID.takerToken1,
          ¬ offer ≤ -tickIndex - fee - 1 := by
      rintro swapped _ ⟨tick, live, pair, rfl⟩ low
      have high := (half.swapped swapped).1 tick live pair
      omega
    split
    · rename_i spent
      obtain ⟨noneBelow, offer, offered, low⟩ :=
        traded.resolve_left fun unspent => unspent.2 spent
      split
      · rename_i swapped
        exact absurd low (apart swapped offer offered)
      · rename_i notSwapped
        refine ⟨_, rfl, kept.1, kept.2, ?_, .swapped1 ?_ noneBelow⟩
        · exact not_isPoolBehindEnemyLines kept.1.book
            (fun _ => noneBelow.mono (by omega))
            (fun deposited => clear1 (unfilled_of_deposited deposited))
        · rw [half.inAmount1]
          exact spec.leaves (inside1 positive)
    · rename_i unspent
      refine ⟨_, rfl, kept.1, kept.2, ?_, ?_⟩
      · refine not_isPoolBehindEnemyLines kept.1.book (fun deposited => ?_)
          (fun _ => clear1 (spec.unspent unspent))
        rcases traded with ⟨unchanged, _⟩ | ⟨noneBelow, _⟩
        · change NoneBelow now (dex.book.writeAll (first.writes ++ result.writes)) _ _
          rw [unchanged]
          exact half.clear0 deposited
        · exact noneBelow.mono (by omega)
      · cases swappedToken0 with
        | true =>
            rcases traded with ⟨unchanged, _⟩ | ⟨_, offer, offered, low⟩
            · dsimp only
              rw [unchanged]
              exact half.amounts
            · exact absurd low (apart rfl offer offered)
        | false =>
            obtain ⟨same0, same1⟩ := half.unswapped rfl
            dsimp only
            rw [same0, same1]
            exact .unswapped
  · rename_i notPositive
    refine ⟨first, rfl, half.wellFormed, half.uncrossed,
      not_isPoolBehindEnemyLines half.wellFormed.book half.clear0 ?_, half.amounts⟩
    intro deposited
    cases swappedToken0 with
    | true => exact (half.swapped rfl).1.mono (by omega)
    | false =>
        rw [(half.unswapped rfl).2] at deposited
        exact absurd deposited notPositive

end Halves

/-- The swaps of a deposit neither panic nor trade both ways, and what is left to deposit
does not cross the book. -/
structure SoundDepositSwaps (now : Time) (book : OrderBook) (pairID : PairID)
    (tickIndex : Int) (fee : Nat) (outcome : Outcome SwapOnDepositResult) : Prop where
  noPanic : ∀ cause, outcome ≠ abort cause
  notDoubleSided : outcome ≠ fail .doubleSidedSwapOnDeposit
  clear : ∀ result, outcome = .ok result →
    ¬ IsPoolBehindEnemyLines (book.writeAll result.writes) now pairID tickIndex fee
      result.depositAmount0 result.depositAmount1

theorem mustCalcPrice_eq_abort {tick : Int} (outside : IsTickOutOfRange tick) :
    mustCalcPrice tick = abort .tickOutsideRange := by
  unfold mustCalcPrice
  rw [calcPrice_eq, if_pos outside]
  rfl

section Sound

variable {now : Time} {dex : DexState} {pairID : PairID} {tickIndex : Int} {fee : Nat}
  {amount0 amount1 : Int}

theorem swapOnDeposit_eq_abort (wellFormed : dex.WellFormed)
    (uncrossed : Uncrossed now dex.book) (valid0 : ValidDenom pairID.token0)
    (valid1 : ValidDenom pairID.token1)
    (outside : (0 < amount0 ∧ IsTickOutOfRange (tickIndex - fee - 1)) ∨
      (0 < amount1 ∧ IsTickOutOfRange (-tickIndex - fee - 1))) :
    swapOnDeposit dex.book now pairID tickIndex fee (newPrecDecFromInt amount0)
      (newPrecDecFromInt amount1) = abort .tickOutsideRange := by
  unfold swapOnDeposit
  by_cases first : 0 < amount0 ∧ IsTickOutOfRange (tickIndex - fee - 1)
  · have panics : swapOnDepositToken0 dex.book now pairID tickIndex fee
        (newPrecDecFromInt amount0) (newPrecDecFromInt amount1) =
          abort .tickOutsideRange := by
      unfold swapOnDepositToken0
      rw [if_pos (newPrecDecFromInt_isPositive_iff.mpr first.1)]
      dsimp only
      rw [show -(-tickIndex + fee) - 1 = tickIndex - fee - 1 by omega,
        mustCalcPrice_eq_abort first.2]
      rfl
    rw [panics]
    rfl
  · obtain ⟨positive, second⟩ := outside.resolve_left first
    obtain ⟨half, swappedToken0, firstSwap, _⟩ := @swapOnDepositToken0_total now dex pairID
      tickIndex fee amount0 amount1 wellFormed uncrossed valid0 valid1
      fun positive0 outside0 => first ⟨positive0, outside0⟩
    rw [firstSwap, Outcome.ok_bind]
    dsimp only
    rw [if_pos (newPrecDecFromInt_isPositive_iff.mpr positive),
      show -(tickIndex + fee) - 1 = -tickIndex - fee - 1 by omega,
      mustCalcPrice_eq_abort second]
    rfl

end Sound

end Neutron.Dex
