import Neutron.Dex.Bookkeeping
import Neutron.Dex.SwapFairness

namespace Neutron.Dex

open Library PrecDec

def SweepStep.Writes (step : SweepStep) (key : TickLiquidityKey) : Prop :=
  key = step.tick.key ∨
    ∃ reserves, step.tick = .poolReserves reserves ∧ key = .poolReserves reserves.key.counterpart

def SweepStep.Archives (step : SweepStep) (key : LimitOrderTrancheKey) : Prop :=
  ∃ tranche, step.tick = .limitOrderTranche tranche ∧ key = tranche.key

theorem calcSwapAmounts_out_le {reserves price maxIn inAmount outAmount : PrecDec}
    {maxOut : Option PrecDec}
    (computed : calcSwapAmounts reserves price maxIn maxOut = .ok (inAmount, outAmount)) :
    ∀ limit ∈ maxOut, outAmount.i ≤ limit.i := by
  obtain ⟨affordable, _, rest⟩ := of_bind computed
  cases rest
  intro limit isLimit
  exact minPrecDecArr_le_of_mem (List.mem_cons_of_mem _ (Option.mem_toList.mpr isLimit))

theorem Liquidity.swap_out_le {liquidity swapped : Liquidity}
    {maxIn inAmount outAmount : PrecDec} {maxOut : Option PrecDec}
    (swap : liquidity.swap maxIn maxOut = .ok (inAmount, outAmount, swapped))
    (outNonneg : ∀ limit ∈ maxOut, 0 ≤ limit.i) :
    ∀ limit ∈ maxOut, outAmount.i ≤ limit.i := by
  cases liquidity with
  | poolLiquidity tradePairID pool =>
      obtain ⟨⟨paid, bought, swappedPool⟩, poolSwap, result⟩ := of_bind swap
      cases result
      rw [Pool.swap_eq_ok_iff] at poolSwap
      split at poolSwap
      · cases poolSwap
        exact outNonneg
      · exact calcSwapAmounts_out_le poolSwap.1
  | limitOrderTranche tranche =>
      obtain ⟨⟨paid, bought, swappedTranche⟩, trancheSwap, result⟩ := of_bind swap
      cases result
      exact calcSwapAmounts_out_le (LimitOrderTranche.swap_eq_ok_iff.mp trancheSwap).1

section Frame

variable {now : Time} {tradePairID : TradePairID} {limitPrice : Option PrecDec}
  {book final : OrderBook} {maxIn inAmount outAmount : PrecDec} {maxOut : Option PrecDec}
  {tick : TickLiquidity} {liquidity swapped : Liquidity} {steps : List SweepStep}

theorem wrapTickLiquidity_unexpired
    (wrapped : wrapTickLiquidity book now tradePairID tick = .ok (some liquidity)) :
    ¬ tick.IsExpired now := by
  cases tick with
  | poolReserves reserves => exact fun expired => expired
  | limitOrderTranche tranche => exact (wrapTickLiquidity_limitOrderTranche wrapped).2

theorem save_frame (wellFormed : book.WellFormed)
    (stored : book.tickLiquidity.get? tick.key = some tick)
    (wrapped : wrapTickLiquidity book now tradePairID tick = .ok (some liquidity))
    (inNonneg : 0 ≤ maxIn.i) (outNonneg : ∀ limit ∈ maxOut, 0 ≤ limit.i)
    (swap : liquidity.swap maxIn maxOut = .ok (inAmount, outAmount, swapped)) :
    (∀ key, ¬ SweepStep.Writes ⟨tick, inAmount, outAmount⟩ key →
      (book.writeAll swapped.save).tickLiquidity.get? key = book.tickLiquidity.get? key) ∧
    ∀ key, ¬ SweepStep.Archives ⟨tick, inAmount, outAmount⟩ key →
      (book.writeAll swapped.save).getInactiveLimitOrderTranche key =
        book.getInactiveLimitOrderTranche key := by
  cases tick with
  | poolReserves reserves =>
      have storedSide := OrderBook.getPoolReserves_eq_some_iff.mpr stored
      obtain ⟨pool, rfl, loaded, rfl⟩ :=
        wrapTickLiquidity_poolReserves wellFormed storedSide wrapped
      obtain ⟨⟨paid, bought, swappedPool⟩, poolSwap, result⟩ := of_bind swap
      cases result
      have priced := (wellFormed.pool storedSide).2
      have pricePositive : 0 < (pool.makerSide tradePairID).makerPrice.i := by
        rw [priced.price]
        exact tickPrice_pos priced.inRange
      obtain ⟨trade, rfl⟩ := Pool.swap_eq_traded (le_of_lt (wellFormed.pool storedSide).1)
        pricePositive inNonneg outNonneg poolSwap
      have updates : pool.Updates (pool.traded tradePairID inAmount outAmount) :=
        loaded.traded_updates wellFormed trade.in_nonneg trade.out_le
      constructor
      · intro key untouched
        have notMaker : key ≠ .poolReserves (pool.makerSide tradePairID).key :=
          fun isMaker => untouched (.inl isMaker)
        have notTaker : key ≠ .poolReserves (pool.takerSide tradePairID).key := by
          rw [loaded.takerKey]
          exact fun isTaker => untouched (.inr ⟨_, rfl, isTaker⟩)
        rcases pool.sides_cases tradePairID with ⟨lower, upper⟩ | ⟨lower, upper⟩ <;>
          apply get?_updatePool_of_ne <;>
          simpa only [updates.lowerKey, updates.upperKey, lower, upper]
      · intro key _
        unfold OrderBook.getInactiveLimitOrderTranche
        exact congrArg (fun store => store.get? key)
          (OrderBook.inactiveTranches_updatePool _ _)
  | limitOrderTranche tranche =>
      obtain ⟨rfl, _⟩ := wrapTickLiquidity_limitOrderTranche wrapped
      obtain ⟨⟨paid, bought, swappedTranche⟩, trancheSwap, result⟩ := of_bind swap
      cases result
      obtain ⟨trade, rfl⟩ := LimitOrderTranche.swap_eq_traded
        (wellFormed.active (OrderBook.getLimitOrderTranche_eq_some_iff.mpr stored)).2
        inNonneg outNonneg trancheSwap
      constructor
      · intro key untouched
        change (book.writeAll (updateTranche (tranche.traded inAmount outAmount))).tickLiquidity.get?
          key = _
        rw [OrderBook.get?_updateTranche]
        exact if_neg fun isTranche => untouched (.inl isTranche)
      · intro key untouched
        change (book.writeAll (updateTranche
          (tranche.traded inAmount outAmount))).getInactiveLimitOrderTranche key = _
        rw [OrderBook.getInactiveLimitOrderTranche_updateTranche]
        exact if_neg fun both => untouched ⟨tranche, rfl, both.1⟩

theorem restOut_nonneg
    (swap : liquidity.swap maxIn maxOut = .ok (inAmount, outAmount, swapped))
    (outNonneg : ∀ limit ∈ maxOut, 0 ≤ limit.i) :
    ∀ limit ∈ maxOut.map (fun remaining => remaining - outAmount), 0 ≤ limit.i := by
  intro limit isLimit
  obtain ⟨before, isBefore, rfl⟩ := Option.mem_map.mp isLimit
  rw [sub_i]
  exact Int.sub_nonneg_of_le (Liquidity.swap_out_le swap outNonneg before isBefore)

theorem Sweep.frame (sweep : Sweep now tradePairID limitPrice book maxIn maxOut steps final)
    (wellFormed : book.WellFormed) (inNonneg : 0 ≤ maxIn.i)
    (outNonneg : ∀ limit ∈ maxOut, 0 ≤ limit.i) :
    (∀ key, (∀ step ∈ steps, ¬ step.Writes key) →
      final.tickLiquidity.get? key = book.tickLiquidity.get? key) ∧
    ∀ key, (∀ step ∈ steps, ¬ step.Archives key) →
      final.getInactiveLimitOrderTranche key = book.getInactiveLimitOrderTranche key := by
  induction sweep with
  | nil => exact ⟨fun _ _ => rfl, fun _ _ => rfl⟩
  | @cons book _ maxIn inAmount outAmount maxOut _ _ _ _ stored _ _ wrapped swap visited _ ih =>
      have first := save_frame wellFormed stored wrapped inNonneg outNonneg swap
      have restNonneg : 0 ≤ (maxIn - inAmount).i := by
        rw [sub_i]
        exact Int.sub_nonneg_of_le visited.trade.in_le
      obtain ⟨restTicks, restInactive⟩ := ih (visited.visit.wellFormed wellFormed) restNonneg
        (restOut_nonneg swap outNonneg)
      constructor
      · intro key untouched
        rw [restTicks key fun step later => untouched step (List.mem_cons_of_mem _ later)]
        exact first.1 key (untouched _ List.mem_cons_self)
      · intro key untouched
        rw [restInactive key fun step later => untouched step (List.mem_cons_of_mem _ later)]
        exact first.2 key (untouched _ List.mem_cons_self)

theorem Sweep.offered (sweep : Sweep now tradePairID limitPrice book maxIn maxOut steps final) :
    ∀ step ∈ steps, step.tick.key.tradePairID = tradePairID ∧
      ¬ step.tick.IsExpired now ∧ ¬ PastLimit limitPrice step.tick.price := by
  induction sweep with
  | nil => exact fun step impossible => absurd impossible List.not_mem_nil
  | cons _ pair within wrapped _ _ _ ih =>
      intro step member
      rcases List.mem_cons.mp member with rfl | later
      · exact ⟨pair, wrapTickLiquidity_unexpired wrapped, within⟩
      · exact ih step later

theorem Sweep.totalIn_nonneg
    (sweep : Sweep now tradePairID limitPrice book maxIn maxOut steps final) :
    0 ≤ (SweepStep.totalIn steps).i := by
  induction sweep with
  | nil => exact le_refl _
  | cons _ _ _ _ _ visited _ ih =>
      rw [SweepStep.totalIn_cons, add_i]
      exact Int.add_nonneg visited.trade.in_nonneg ih

theorem Sweep.totalOut_nonneg
    (sweep : Sweep now tradePairID limitPrice book maxIn maxOut steps final) :
    0 ≤ (SweepStep.totalOut steps).i := by
  induction sweep with
  | nil => exact le_refl _
  | cons _ _ _ _ _ visited _ ih =>
      rw [SweepStep.totalOut_cons, add_i]
      exact Int.add_nonneg visited.trade.out_nonneg ih

theorem Sweep.totalOut_le
    (sweep : Sweep now tradePairID limitPrice book maxIn maxOut steps final)
    (outNonneg : ∀ limit ∈ maxOut, 0 ≤ limit.i) :
    ∀ limit ∈ maxOut, (SweepStep.totalOut steps).i ≤ limit.i := by
  induction sweep with
  | nil => exact outNonneg
  | @cons _ _ _ _ outAmount maxOut _ _ _ steps _ _ _ _ swap _ _ ih =>
      intro limit isLimit
      have restLe := ih (restOut_nonneg swap outNonneg) (limit - outAmount)
        (Option.mem_map_of_mem _ isLimit)
      rw [sub_i] at restLe
      rw [SweepStep.totalOut_cons, add_i]
      dsimp only
      omega

end Frame

section Total

variable {now : Time} {tradePairID : TradePairID} {limitPrice : Option PrecDec}
  {book : OrderBook} {tick : TickLiquidity} {liquidity : Liquidity}

def TickLiquidity.CounterpartInRange (tick : TickLiquidity) : Prop :=
  ∀ reserves, tick = .poolReserves reserves →
    ¬ IsTickOutOfRange reserves.key.counterpart.tickIndexTakerToMaker

theorem wrapTickLiquidity_total (book : OrderBook) (now : Time) (tradePairID : TradePairID)
    (inRange : tick.CounterpartInRange) :
    ∃ wrapped, wrapTickLiquidity book now tradePairID tick = .ok wrapped := by
  cases tick with
  | poolReserves reserves =>
      obtain ⟨counterpart, read⟩ : ∃ counterpart,
          getCounterpart book reserves = .ok counterpart := by
        unfold getCounterpart
        split
        · exact ⟨_, rfl⟩
        · exact ⟨_, newPoolReservesFromCounterpart_eq_ok_iff.mpr ⟨inRange reserves rfl, rfl⟩⟩
      exact ⟨_, (Outcome.bind_eq_ok_iff _ _ _).mpr ⟨counterpart, read, rfl⟩⟩
  | limitOrderTranche tranche =>
      rw [wrapTickLiquidity]
      split
      · exact ⟨_, rfl⟩
      · exact ⟨_, rfl⟩

theorem Pool.Loaded.nonneg {pool : Pool} (loaded : pool.Loaded book)
    (wellFormed : book.WellFormed) :
    0 ≤ (pool.makerSide tradePairID).decReservesMakerDenom.i ∧
      0 ≤ (pool.takerSide tradePairID).decReservesMakerDenom.i := by
  have lower := loaded.lower_nonneg wellFormed
  have upper := loaded.upper_nonneg wellFormed
  unfold makerSide takerSide
  split
  · exact ⟨lower, upper⟩
  · exact ⟨upper, lower⟩

theorem liquidity_swap_total (wellFormed : book.WellFormed)
    (stored : book.tickLiquidity.get? tick.key = some tick)
    (wrapped : wrapTickLiquidity book now tradePairID tick = .ok (some liquidity))
    {maxIn : PrecDec} {maxOut : Option PrecDec} (inNonneg : 0 ≤ maxIn.i)
    (outNonneg : ∀ limit ∈ maxOut, 0 ≤ limit.i) :
    ∃ inAmount outAmount swapped,
      liquidity.swap maxIn maxOut = .ok (inAmount, outAmount, swapped) ∧
        FairTrade tick.reserves tick.price maxIn maxOut inAmount outAmount := by
  cases tick with
  | poolReserves reserves =>
      have storedSide := OrderBook.getPoolReserves_eq_some_iff.mpr stored
      obtain ⟨pool, rfl, loaded, rfl⟩ :=
        wrapTickLiquidity_poolReserves wellFormed storedSide wrapped
      have priced := (wellFormed.pool storedSide).2
      have pricePositive : 0 < (pool.makerSide tradePairID).makerPrice.i := by
        rw [priced.price]
        exact tickPrice_pos priced.inRange
      obtain ⟨makerNonneg, takerNonneg⟩ := loaded.nonneg wellFormed
      obtain ⟨inAmount, outAmount, swap, fair⟩ := Pool.swap_fair makerNonneg takerNonneg
        pricePositive inNonneg outNonneg
      exact ⟨inAmount, outAmount, _,
        (Outcome.bind_eq_ok_iff _ _ _).mpr ⟨_, swap, rfl⟩, fair⟩
  | limitOrderTranche tranche =>
      obtain ⟨rfl, _⟩ := wrapTickLiquidity_limitOrderTranche wrapped
      have sound := (wellFormed.active
        (OrderBook.getLimitOrderTranche_eq_some_iff.mpr stored)).2
      obtain ⟨inAmount, outAmount, swap, fair⟩ := LimitOrderTranche.swap_fair sound.maker
        sound.taker sound.totalTaker sound.price_pos inNonneg outNonneg
      exact ⟨inAmount, outAmount, _,
        (Outcome.bind_eq_ok_iff _ _ _).mpr ⟨_, swap, rfl⟩, fair⟩

theorem OrderBook.WellFormed.inRange (wellFormed : book.WellFormed)
    (stored : book.tickLiquidity.get? tick.key = some tick) :
    ¬ IsTickOutOfRange tick.tickIndex := by
  cases tick with
  | poolReserves reserves =>
      exact (wellFormed.pool (OrderBook.getPoolReserves_eq_some_iff.mpr stored)).2.inRange
  | limitOrderTranche tranche =>
      exact (wellFormed.active
        (OrderBook.getLimitOrderTranche_eq_some_iff.mpr stored)).2.inRange

theorem OrderBook.WellFormed.price_pos (wellFormed : book.WellFormed)
    (stored : book.tickLiquidity.get? tick.key = some tick) : 0 < tick.price.i := by
  rw [wellFormed.price_eq stored]
  exact tickPrice_pos (wellFormed.inRange stored)

theorem swapStep_total {state : SwapState} (wellFormed : book.WellFormed)
    (stored : book.tickLiquidity.get? tick.key = some tick)
    (wrapped : wrapTickLiquidity book now tradePairID tick = .ok (some liquidity))
    (inNonneg : 0 ≤ state.remainingTakerDenom.i)
    (outNonneg : ∀ limit ∈ state.remainingMakerDenom, 0 ≤ limit.i) :
    ∃ next, swapStep liquidity state = .ok next := by
  obtain ⟨inAmount, outAmount, swapped, swap, _⟩ :=
    liquidity_swap_total wellFormed stored wrapped inNonneg outNonneg
  have priceNonzero : liquidity.price.i ≠ 0 := by
    rw [wrapTickLiquidity_price wellFormed stored wrapped]
    exact ne_of_gt (wellFormed.price_pos stored)
  obtain ⟨affordable, division⟩ : ∃ affordable,
      (state.remainingTakerDenom - inAmount).quo liquidity.price = .ok affordable :=
    ⟨_, if_neg priceNonzero⟩
  unfold swapStep
  refine Outcome.bind_total swap (Outcome.bind_total division ?_)
  split
  · exact ⟨_, rfl⟩
  · split
    · exact ⟨_, rfl⟩
    · exact ⟨_, rfl⟩

theorem swapLoop_total {ticks : List TickLiquidity} {state : SwapState}
    (inRange : ∀ tick ∈ ticks, tick.CounterpartInRange)
    (unvisited : Unvisited now tradePairID (book.writeAll state.writes) ticks)
    (inNonneg : 0 ≤ state.remainingTakerDenom.i)
    (outNonneg : ∀ limit ∈ state.remainingMakerDenom, 0 ≤ limit.i) :
    ∃ final, swapLoop book now tradePairID limitPrice ticks state = .ok final := by
  induction ticks generalizing state with
  | nil => exact ⟨state, rfl⟩
  | cons tick rest ih =>
      have stored := (unvisited.stored tick List.mem_cons_self).1
      have restInRange : ∀ tick ∈ rest, tick.CounterpartInRange :=
        fun other member => inRange other (List.mem_cons_of_mem _ member)
      rw [swapLoop]
      split
      · rename_i noToken
        exact ih restInRange (unvisited.skip fun live => noToken live.token) inNonneg outNonneg
      · obtain ⟨wrapped, wrap⟩ := wrapTickLiquidity_total (book.writeAll state.writes) now
          tradePairID (inRange tick List.mem_cons_self)
        refine Outcome.bind_total wrap ?_
        cases wrapped with
        | none =>
            have expired := wrapTickLiquidity_eq_none wrap
            exact ih restInRange (unvisited.skip fun live => live.unexpired expired) inNonneg
              outNonneg
        | some liquidity =>
            dsimp only
            split
            · exact ⟨state, rfl⟩
            · obtain ⟨next, step⟩ := swapStep_total unvisited.wellFormed stored wrap inNonneg
                outNonneg
              obtain ⟨inAmount, outAmount, swapped, turn⟩ := swapStep_turn step
              have visits := turn.visits unvisited wrap inNonneg outNonneg
              refine Outcome.bind_total step ?_
              split
              · exact ⟨next, rfl⟩
              · rename_i unfilled
                have nextUnfilled : next.orderFilled = false := by simpa using unfilled
                exact ih restInRange (visits.unvisited nextUnfilled) visits.nonneg
                  (visits.outNonneg nextUnfilled)

end Total

theorem DexState.WellFormed.counterpartInRange {dex : DexState} (wellFormed : dex.WellFormed)
    {tick : TickLiquidity} (stored : dex.book.tickLiquidity.get? tick.key = some tick) :
    tick.CounterpartInRange := by
  rintro reserves rfl
  obtain ⟨id, registered⟩ := wellFormed.pools _ _
    (OrderBook.getPoolReserves_eq_some_iff.mpr stored)
  obtain ⟨upper, lower⟩ := wellFormed.registry.inRange registered
  unfold PoolReservesKey.poolIDKey at upper lower
  dsimp only at upper lower
  unfold IsTickOutOfRange PoolReservesKey.counterpart at *
  dsimp only
  split at upper
  · rename_i isMaker
    rw [if_pos isMaker] at lower
    omega
  · rename_i notMaker
    rw [if_neg notMaker] at lower
    omega

section Sweeps

variable {dex : DexState} {now : Time} {tradePairID : TradePairID} {amountIn : PrecDec}
  {maxAmountOut : Option Int} {limitPrice : Option PrecDec}

theorem swap_total (wellFormed : dex.WellFormed) (takerValid : ValidDenom tradePairID.takerDenom)
    (makerValid : ValidDenom tradePairID.makerDenom) (inNonneg : 0 ≤ amountIn.i)
    (outNonneg : ∀ limit ∈ maxAmountOut, 0 ≤ limit) (now : Time)
    (limitPrice : Option PrecDec) :
    ∃ result, swap dex.book now tradePairID amountIn maxAmountOut limitPrice = .ok result := by
  have limits := limits_nonneg outNonneg
  have unvisited : Unvisited now tradePairID dex.book (dex.book.ticks tradePairID) :=
    .ticks wellFormed.book
  obtain ⟨final, loop⟩ := @swapLoop_total now tradePairID limitPrice dex.book _
    ⟨[], amountIn, maxAmountOut.map newPrecDecFromInt, zeroPrecDec, false⟩
    (fun tick member => wellFormed.counterpartInRange (unvisited.stored tick member).1)
    unvisited inNonneg limits
  obtain ⟨steps, sweeps⟩ := swapLoop_sweeps loop unvisited rfl inNonneg limits
  have spent : 0 ≤ (amountIn - final.remainingTakerDenom).i := by
    rw [sweeps.remaining, sub_sub_cancel]
    exact sweeps.sweep.totalIn_nonneg
  have bought : 0 ≤ final.totalMakerDenom.i := by
    rw [sweeps.total]
    exact (zero_add (SweepStep.totalOut steps)).symm ▸ sweeps.sweep.totalOut_nonneg
  refine Outcome.bind_total loop ?_
  refine Outcome.bind_total (newPrecDecCoin_eq_ok_iff.mpr ⟨takerValid, spent, rfl⟩) ?_
  refine Outcome.bind_total (newPrecDecCoin_eq_ok_iff.mpr ⟨makerValid, bought, rfl⟩) ?_
  exact ⟨_, rfl⟩

structure SweepsBook (now : Time) (tradePairID : TradePairID) (amountIn : PrecDec)
    (maxAmountOut : Option Int) (limitPrice : Option PrecDec) (book : OrderBook)
    (result : SwapResult) (steps : List SweepStep) : Prop where
  sweep : Sweep now tradePairID limitPrice book amountIn
    (maxAmountOut.map newPrecDecFromInt) steps (book.writeAll result.writes)
  stored : ∀ step ∈ steps, book.tickLiquidity.get? step.tick.key = some step.tick
  pair : ∀ step ∈ steps, step.tick.key.tradePairID = tradePairID
  ordered : steps.Pairwise fun earlier later =>
    earlier.tick.tickIndex ≤ later.tick.tickIndex
  totalTakerCoin : result.totalTakerCoin =
    ⟨tradePairID.takerDenom, (steps.map SweepStep.inAmount).sum⟩
  totalMakerCoin : result.totalMakerCoin =
    ⟨tradePairID.makerDenom, (steps.map SweepStep.outAmount).sum⟩
  in_le : result.totalTakerCoin.amount ≤ amountIn
  out_le : ∀ limit ∈ maxAmountOut, result.totalMakerCoin.amount ≤ newPrecDecFromInt limit
  unexpired : ∀ step ∈ steps, ¬ step.tick.IsExpired now
  withinLimit : ∀ step ∈ steps, ¬ PastLimit limitPrice step.tick.price
  unchanged : ∀ key, (∀ step ∈ steps, ¬ step.Writes key) →
    (book.writeAll result.writes).tickLiquidity.get? key = book.tickLiquidity.get? key
  inactiveUnchanged : ∀ key, (∀ step ∈ steps, ¬ step.Archives key) →
    (book.writeAll result.writes).getInactiveLimitOrderTranche key =
      book.getInactiveLimitOrderTranche key
  swept : result.orderFilled = false → ∀ tick : TickLiquidity,
    tick.Live now (book.writeAll result.writes) → tick.key.tradePairID = tradePairID →
      PastLimit limitPrice tick.price

theorem SwapSweeps.sweepsBook {book : OrderBook} {result : SwapResult} {steps : List SweepStep}
    (sweeps : SwapSweeps now tradePairID amountIn maxAmountOut limitPrice book result steps)
    (wellFormed : book.WellFormed) (inNonneg : 0 ≤ amountIn.i)
    (outNonneg : ∀ limit ∈ maxAmountOut, 0 ≤ limit) :
    SweepsBook now tradePairID amountIn maxAmountOut limitPrice book result steps := by
  have limits := limits_nonneg outNonneg
  have frame := sweeps.sweep.frame wellFormed inNonneg limits
  have offered := sweeps.sweep.offered
  have listed : ∀ step ∈ steps, step.tick ∈ book.ticks tradePairID :=
    fun step member => sweeps.inOrder.subset (List.mem_map_of_mem member)
  refine {
    sweep := sweeps.sweep
    stored := fun step member => (OrderBook.mem_ticks_iff.mp (listed step member)).1
    pair := fun step member => (offered step member).1
    ordered := ?_
    totalTakerCoin := sweeps.totalTakerCoin
    totalMakerCoin := sweeps.totalMakerCoin
    in_le := ?_
    out_le := ?_
    unexpired := fun step member => (offered step member).2.1
    withinLimit := fun step member => (offered step member).2.2
    unchanged := frame.1
    inactiveUnchanged := frame.2
    swept := sweeps.swept }
  · have increasing := (book.ticks_increasing tradePairID).sublist sweeps.inOrder
    rw [List.pairwise_map] at increasing
    refine increasing.imp_of_mem fun {earlier later} isEarlier isLater below => ?_
    have samePair : earlier.tick.key.tradePairID = later.tick.key.tradePairID := by
      rw [(offered earlier isEarlier).1, (offered later isLater).1]
    simpa using TickLiquidityKey.tickIndexTakerToMaker_le below samePair
  · rw [sweeps.totalTakerCoin]
    exact sweeps.inLe
  · intro limit isLimit
    rw [sweeps.totalMakerCoin]
    exact sweeps.sweep.totalOut_le limits _ (Option.mem_map_of_mem _ isLimit)

/-- Every swap in a state of the module succeeds and sweeps the side it buys from. -/
theorem swap_sweeps_book (wellFormed : dex.WellFormed)
    (takerValid : ValidDenom tradePairID.takerDenom)
    (makerValid : ValidDenom tradePairID.makerDenom) (inPositive : 0 < amountIn.i)
    (outPositive : ∀ limit ∈ maxAmountOut, 0 < limit) :
    ∃ result steps,
      swap dex.book now tradePairID amountIn maxAmountOut limitPrice = .ok result ∧
        SweepsBook now tradePairID amountIn maxAmountOut limitPrice dex.book result steps := by
  have outNonneg : ∀ limit ∈ maxAmountOut, 0 ≤ limit :=
    fun limit isLimit => (outPositive limit isLimit).le
  obtain ⟨result, ok⟩ := swap_total wellFormed takerValid makerValid inPositive.le outNonneg
    now limitPrice
  obtain ⟨steps, sweeps⟩ := swap_sweeps wellFormed.book inPositive.le outNonneg ok
  exact ⟨result, steps, ok, sweeps.sweepsBook wellFormed.book inPositive.le outNonneg⟩

end Sweeps

theorem swap_sweeps_book_evenDeposit :
    let world := Machine.run step (World.initial defaultParams twoDenoms 5 "gov")
      [.message (.deposit evenDeposit)]
    ∃ result steps,
      swap world.dex.book world.blockTime atomNeutron (newPrecDecFromInt 3) (some 2)
          (some maxPrice) = .ok result ∧
        SweepsBook world.blockTime atomNeutron (newPrecDecFromInt 3) (some 2) (some maxPrice)
          world.dex.book result steps := by
  intro world
  have wellFormed : world.dex.WellFormed :=
    (World.Reachable.sound ⟨_, _, _, _, [.message (.deposit evenDeposit)], rfl⟩).wellFormed
  refine swap_sweeps_book wellFormed (by decide) (by decide) (by decide) ?_
  rintro _ ⟨⟩
  decide

end Neutron.Dex
