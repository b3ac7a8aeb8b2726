import Neutron.Dex.DepositSwaps
import Neutron.Dex.LimitPrice
import Neutron.Library.Compounding

namespace Neutron.Dex

open Library PrecDec

def swapHopsUnchecked (env : MultihopEnv) :
    List MultihopStep → RoutePosition → Outcome (Except DexError RoutePosition)
  | [], position => pure (.ok position)
  | step :: rest, position => do
      let (writes, result) ← swapFullAmountIn position.book env.blockTime
        step.tradePairID position.coin.amount
      match result with
      | .error cause =>
          pure (.error (.wrapped
            ("Failed at pair: " ++ step.tradePairID.pairID.canonicalString) cause))
      | .ok (dust, coinOut) => do
          let currentPrice ← coinOut.amount.quo env.initialInCoin.coin.amount
          swapHopsUnchecked env rest (position.advance currentPrice dust coinOut writes)

def RoutePosition.start (env : MultihopEnv) : RoutePosition :=
  ⟨onePrecDec, env.initialInCoin.coin, env.book, SortedStore.empty⟩

def RoutePosition.outcome (final : RoutePosition) : RouteOutcome :=
  ⟨final.dustAcc, final.coin, final.book⟩

/-- `RunMultihopRoute` with neither the check between the hops nor the one at the end. -/
def swapRouteUnchecked (env : MultihopEnv) (hops : List String) :
    Outcome (Except DexError RouteOutcome) := do
  match ← attempt (hopsToRouteData env.book env.blockTime hops) with
  | .error cause => pure (.error cause)
  | .ok (_, routeData) => do
      let result ← swapHopsUnchecked env routeData (RoutePosition.start env)
      pure (result.map RoutePosition.outcome)

def bestRate (env : MultihopEnv) (step : MultihopStep) : ℚ :=
  (getCurrPrice env.book env.blockTime step.tradePairID).elim 0 fun price => 1 / price.value

def offersOf (env : MultihopEnv) (step : MultihopStep) : Nat :=
  (env.book.ticks step.tradePairID).length

def hopLeg (env : MultihopEnv) (step : MultihopStep) : Compounding.Leg ℚ :=
  ⟨bestRate env step, offersOf env step * (smallest / 2)⟩

def MultihopStep.Apart (earlier later : MultihopStep) : Prop :=
  later.tradePairID.takerDenom ≠ earlier.tradePairID.takerDenom ∧
    later.tradePairID.makerDenom ≠ earlier.tradePairID.takerDenom

inductive Accumulated (env : MultihopEnv) : List MultihopStep → PrecDec → Prop
  | nil : Accumulated env [] onePrecDec
  | cons {step : MultihopStep} {rest : List MultihopStep} {priceAcc price : PrecDec}
      (best : getCurrPrice env.book env.blockTime step.tradePairID = some price)
      (quotient : priceAcc.quo price = .ok step.remainingBestPrice)
      (later : Accumulated env rest priceAcc) :
      Accumulated env (step :: rest) step.remainingBestPrice

variable {now : Time} {book : OrderBook} {tradePairID : TradePairID} {price : PrecDec}

section Data

variable {env : MultihopEnv}

variable {hops : List String} {priceAcc : PrecDec} {steps : List MultihopStep}

theorem hopsToRouteData_accumulated
    (ok : hopsToRouteData env.book env.blockTime hops = .ok (priceAcc, steps)) :
    Accumulated env steps priceAcc ∧
      ∀ step ∈ steps, step.tradePairID.takerDenom ∈ hops ∧ step.tradePairID.makerDenom ∈ hops := by
  fun_induction hopsToRouteData env.book env.blockTime hops generalizing priceAcc steps with
  | case1 tokenIn tokenOut rest ih =>
      obtain ⟨⟨accumulated, later⟩, laterOk, ok⟩ := of_bind ok
      obtain ⟨tradePairID, pair, ok⟩ := of_bind ok
      split at ok
      · cases ok
      · rename_i price best
        obtain ⟨next, quotient, ok⟩ := of_bind ok
        cases ok
        obtain ⟨restAccumulated, members⟩ := ih laterOk
        refine ⟨@Accumulated.cons env ⟨priceAcc, tradePairID⟩ _ _ _ best quotient
          restAccumulated, ?_⟩
        intro step member
        rcases List.mem_cons.mp member with rfl | inRest
        · dsimp only
          rw [newTradePairID_takerDenom pair, newTradePairID_makerDenom pair]
          exact ⟨List.mem_cons_self, List.mem_cons_of_mem _ List.mem_cons_self⟩
        · obtain ⟨taker, maker⟩ := members step inRest
          exact ⟨List.mem_cons_of_mem _ taker, List.mem_cons_of_mem _ maker⟩
  | case2 hops =>
      cases ok
      exact ⟨.nil, fun step impossible => absurd impossible List.not_mem_nil⟩

theorem hopsToRouteData_apart
    (noCycle : hops.Nodup)
    (ok : hopsToRouteData env.book env.blockTime hops = .ok (priceAcc, steps)) :
    steps.Pairwise MultihopStep.Apart := by
  fun_induction hopsToRouteData env.book env.blockTime hops generalizing priceAcc steps with
  | case1 tokenIn tokenOut rest ih =>
      obtain ⟨⟨accumulated, later⟩, laterOk, ok⟩ := of_bind ok
      obtain ⟨tradePairID, pair, ok⟩ := of_bind ok
      split at ok
      · cases ok
      · obtain ⟨next, quotient, ok⟩ := of_bind ok
        cases ok
        obtain ⟨fresh, restNodup⟩ := List.nodup_cons.mp noCycle
        refine List.pairwise_cons.mpr ⟨fun step member => ?_, ih restNodup laterOk⟩
        obtain ⟨taker, maker⟩ := (hopsToRouteData_accumulated laterOk).2 step member
        unfold MultihopStep.Apart
        dsimp only
        rw [newTradePairID_takerDenom pair]
        exact ⟨fun same => fresh (same ▸ taker), fun same => fresh (same ▸ maker)⟩
  | case2 hops =>
      cases ok
      exact .nil

theorem isLeast_of_getCurrPrice
    (wellFormed : book.WellFormed)
    (found : getCurrPrice book now tradePairID = some price) :
    0 < price.i ∧ ∀ tick : TickLiquidity, tick.Live now book →
      tick.key.tradePairID = tradePairID → price.i ≤ tick.price.i := by
  obtain ⟨best, isBest, rfl⟩ := Option.map_eq_some_iff.mp found
  have stored := (OrderBook.mem_ticks_iff.mp (List.mem_of_find?_eq_some isBest)).1
  refine ⟨wellFormed.price_pos stored, fun tick live pair => ?_⟩
  have least := @isLeast_of_getCurrTickIndexTakerToMaker _ _ _ best.tickIndex wellFormed
    (Option.map_eq_some_iff.mpr ⟨best, isBest, rfl⟩)
  rw [wellFormed.price_eq stored, wellFormed.price_eq live.stored]
  exact tickPrice_mono (least.2 ⟨tick, live, pair, rfl⟩)

theorem bestRate_eq {step : MultihopStep}
    (best : getCurrPrice env.book env.blockTime step.tradePairID = some price) :
    bestRate env step = 1 / price.value := by
  rw [bestRate, best, Option.elim_some]

theorem bestRate_nonneg (wellFormed : env.book.WellFormed) (step : MultihopStep) :
    0 ≤ bestRate env step := by
  cases best : getCurrPrice env.book env.blockTime step.tradePairID with
  | none => rw [bestRate, best, Option.elim_none]
  | some price =>
      rw [bestRate_eq best]
      exact one_div_nonneg.mpr
        (value_nonneg_iff.mpr (isLeast_of_getCurrPrice wellFormed best).1.le)

theorem Accumulated.nonneg
    (accumulated : Accumulated env steps priceAcc) (wellFormed : env.book.WellFormed) :
    0 ≤ priceAcc.i := by
  induction accumulated with
  | nil => decide
  | cons best quotient _ ih =>
      exact quo_nonneg quotient ih (isLeast_of_getCurrPrice wellFormed best).1.le

theorem Accumulated.underestimates
    (accumulated : Accumulated env steps priceAcc) (wellFormed : env.book.WellFormed) :
    Compounding.Underestimates smallest (Compounding.rates (steps.map (hopLeg env)))
      priceAcc.value := by
  induction accumulated with
  | nil =>
      rw [value_onePrecDec]
      exact .nil
  | @cons step rest priceAcc price best quotient later ih =>
      refine .cons ?_ ih
      have pricePositive := (isLeast_of_getCurrPrice wellFormed best).1
      have rounded := lt_quo_value quotient (later.nonneg wellFormed) pricePositive
      have rounding : smallest / 2 + smallest ^ 2 ≤ smallest := by norm_num [smallest]
      have rate : (hopLeg env step).rate = 1 / price.value := bestRate_eq best
      rw [rate, one_div_mul_eq_div]
      linarith

end Data

section Hop

variable {maxIn best : PrecDec} {maxOut : Option PrecDec}

theorem FairTrade.out_le_best {reserves inAmount outAmount : PrecDec}
    (fair : FairTrade reserves price maxIn maxOut inAmount outAmount)
    (bestPositive : 0 < best.i) (better : best.i ≤ price.i) :
    outAmount.value ≤ 1 / best.value * inAmount.value +
      smallest / 2 * max 1 (1 / best.value) := by
  have bestPos := value_pos_iff.mpr bestPositive
  have ordered := value_le_value_iff.mpr better
  have pricePos := bestPos.trans_le ordered
  have cost : price.value * outAmount.value ≤
      inAmount.value + smallest / 2 * max 1 price.value := by
    have bound : price.value * outAmount.value - inAmount.value ≤
      smallest / 2 * max 1 price.value := fair.cost_sub_in_le
    linarith
  have reciprocal : 1 / price.value ≤ 1 / best.value := one_div_le_one_div_of_le bestPos ordered
  have weights : max 1 price.value / price.value ≤ max 1 (1 / best.value) := by
    rw [← max_div_div_right pricePos.le, div_self pricePos.ne', max_comm]
    exact max_le_max le_rfl reciprocal
  have inNonneg := fair.in_nonneg
  have halfNonneg : 0 ≤ smallest / 2 := (half_pos smallest_pos).le
  calc outAmount.value = price.value * outAmount.value / price.value :=
        (mul_div_cancel_left₀ _ pricePos.ne').symm
    _ ≤ (inAmount.value + smallest / 2 * max 1 price.value) / price.value := by gcongr
    _ = 1 / price.value * inAmount.value +
          smallest / 2 * (max 1 price.value / price.value) := by ring
    _ ≤ 1 / best.value * inAmount.value + smallest / 2 * max 1 (1 / best.value) := by gcongr

/-- Where a route stands before its remaining hops: the offers of their pairs are as they
were at the start. -/
structure RoutePosition.Ahead (env : MultihopEnv) (steps : List MultihopStep)
    (position : RoutePosition) : Prop where
  wellFormed : position.book.WellFormed
  nonneg : 0 ≤ position.coin.amount.i
  untouched : ∀ step ∈ steps, ∀ key : TickLiquidityKey,
    key.tradePairID = step.tradePairID →
      position.book.tickLiquidity.get? key = env.book.tickLiquidity.get? key

variable {limitPrice : Option PrecDec}

theorem Sweep.wellFormed
    {final : OrderBook}
    {steps : List SweepStep}
    (sweep : Sweep now tradePairID limitPrice book maxIn maxOut steps final)
    (wellFormed : book.WellFormed) : final.WellFormed := by
  induction sweep with
  | nil => exact wellFormed
  | cons _ _ _ _ _ visited _ ih => exact ih (visited.visit.wellFormed wellFormed)

variable {env : MultihopEnv} {position : RoutePosition} {step : MultihopStep}
  {rest : List MultihopStep}

theorem SweepsBook.untouched {amountIn : PrecDec} {maxAmountOut : Option Int}
    {result : SwapResult}
    {steps : List SweepStep} {later : MultihopStep}
    (sweeps : SweepsBook now step.tradePairID amountIn maxAmountOut limitPrice book result steps)
    (apart : step.Apart later) {key : TickLiquidityKey}
    (pair : key.tradePairID = later.tradePairID) :
    (book.writeAll result.writes).tickLiquidity.get? key = book.tickLiquidity.get? key := by
  refine sweeps.unchanged key fun traded member => ?_
  have samePair := sweeps.pair traded member
  rintro (rfl | ⟨reserves, isPool, rfl⟩)
  · exact apart.1 (by rw [← pair, samePair])
  · have reversed : (TickLiquidityKey.poolReserves reserves.key.counterpart).tradePairID =
        step.tradePairID.reversed := by
      rw [← samePair, isPool]
      rfl
    exact apart.2 (by rw [← pair, reversed]; rfl)

theorem RoutePosition.Ahead.hop (ahead : position.Ahead env (step :: rest))
    (apart : (step :: rest).Pairwise MultihopStep.Apart) (wellFormed : env.book.WellFormed)
    (isBest : getCurrPrice env.book env.blockTime step.tradePairID = some best)
    {writes : List BookWrite} {dust coinOut : PrecDecCoin}
    (ok : swapFullAmountIn position.book env.blockTime step.tradePairID position.coin.amount =
      .ok (writes, .ok (dust, coinOut))) (price : PrecDec) :
    (position.advance price dust coinOut writes).Ahead env rest ∧
      coinOut.amount.value ≤ (hopLeg env step).rate * position.coin.amount.value +
        (hopLeg env step).error * max 1 (hopLeg env step).rate := by
  obtain ⟨result, swapped, rfl, rfl, rfl⟩ := swapFullAmountIn_eq_ok ok
  have noLimit : ∀ limit ∈ (none : Option Int), 0 ≤ limit := by rintro _ ⟨⟩
  obtain ⟨steps, sweeps⟩ := swap_sweeps ahead.wellFormed ahead.nonneg noLimit swapped
  have inBook := sweeps.sweepsBook ahead.wellFormed ahead.nonneg noLimit
  have maker : result.totalMakerCoin.amount = SweepStep.totalOut steps := by
    rw [sweeps.totalMakerCoin]
  constructor
  · refine ⟨sweeps.sweep.wellFormed ahead.wellFormed, maker ▸ sweeps.outNonneg, ?_⟩
    intro later member key pair
    exact (inBook.untouched ((List.pairwise_cons.mp apart).1 later member) pair).trans
      (ahead.untouched later (List.mem_cons_of_mem _ member) key pair)
  · obtain ⟨bestPositive, least⟩ := isLeast_of_getCurrPrice wellFormed isBest
    have before : ∀ traded ∈ steps,
        env.book.tickLiquidity.get? traded.tick.key = some traded.tick := by
      intro traded member
      rw [← ahead.untouched step List.mem_cons_self _ (inBook.pair traded member)]
      exact inBook.stored traded member
    have each : ∀ traded ∈ steps, traded.outAmount.value ≤
        1 / best.value * traded.inAmount.value + smallest / 2 * max 1 (1 / best.value) := by
      intro traded member
      obtain ⟨_, _, _, fair⟩ := sweeps.sweep.fair ahead.wellFormed ahead.nonneg
        (by rintro _ ⟨⟩) traded member
      have stored := before traded member
      exact fair.out_le_best bestPositive (least traded.tick
        ⟨stored, wellFormed.hasToken stored, inBook.unexpired traded member⟩
        (inBook.pair traded member))
    -- No offer is traded with twice, and each was there at the start.
    have few : steps.length ≤ offersOf env step := by
      have nodup : (steps.map SweepStep.tick).Nodup :=
        sweeps.inOrder.nodup ((position.book.ticks_increasing _).imp fun below same =>
          absurd (congrArg TickLiquidity.key same) (ne_of_lt below))
      have offered : steps.map SweepStep.tick ⊆ env.book.ticks step.tradePairID := by
        intro tick member
        obtain ⟨traded, isTraded, rfl⟩ := List.mem_map.mp member
        exact OrderBook.mem_ticks_iff.mpr
          ⟨before traded isTraded, inBook.pair traded isTraded⟩
      simpa [offersOf] using (List.subperm_of_subset nodup offered).length_le
    have total := value_sum_map_le each
    have spent : (SweepStep.totalIn steps).value ≤ position.coin.amount.value :=
      value_le_value_iff.mpr sweeps.inLe
    have rateNonneg : 0 ≤ 1 / best.value :=
      one_div_nonneg.mpr (value_nonneg_iff.mpr bestPositive.le)
    have rate : (hopLeg env step).rate = 1 / best.value := bestRate_eq isBest
    have count : (steps.length : ℚ) ≤ offersOf env step := by exact_mod_cast few
    have halfNonneg : 0 ≤ smallest / 2 := (half_pos smallest_pos).le
    have weightNonneg : (0 : ℚ) ≤ max 1 (1 / best.value) := zero_le_one.trans (le_max_left _ _)
    rw [maker, rate]
    calc (SweepStep.totalOut steps).value
        ≤ 1 / best.value * (SweepStep.totalIn steps).value +
            steps.length * (smallest / 2 * max 1 (1 / best.value)) := total
      _ ≤ 1 / best.value * position.coin.amount.value +
            offersOf env step * (smallest / 2 * max 1 (1 / best.value)) := by gcongr
      _ = 1 / best.value * position.coin.amount.value +
            (hopLeg env step).error * max 1 (1 / best.value) := by
          rw [hopLeg]
          ring

end Hop

section Run

variable {env : MultihopEnv} {position final : RoutePosition} {steps rest : List MultihopStep}
  {step : MultihopStep} {priceAcc : PrecDec}

theorem swapHopsUnchecked_cons
    (ok : swapHopsUnchecked env (step :: rest) position = .ok (.ok final)) :
    ∃ writes dust coinOut currentPrice,
      swapFullAmountIn position.book env.blockTime step.tradePairID position.coin.amount =
        .ok (writes, .ok (dust, coinOut)) ∧
      coinOut.amount.quo env.initialInCoin.coin.amount = .ok currentPrice ∧
      swapHopsUnchecked env rest (position.advance currentPrice dust coinOut writes) =
        .ok (.ok final) := by
  unfold swapHopsUnchecked at ok
  obtain ⟨⟨writes, result⟩, swapped, ok⟩ := of_bind ok
  cases result with
  | error cause => cases ok
  | ok coins =>
      obtain ⟨price, division, ok⟩ := of_bind ok
      exact ⟨writes, coins.1, coins.2, price, swapped, division, ok⟩

theorem swapHopsUnchecked_compounds (wellFormed : env.book.WellFormed)
    (ahead : position.Ahead env steps) (apart : steps.Pairwise MultihopStep.Apart)
    (accumulated : Accumulated env steps priceAcc)
    (ok : swapHopsUnchecked env steps position = .ok (.ok final)) :
    Compounding.Compounds (steps.map (hopLeg env)) position.coin.amount.value
      final.coin.amount.value := by
  induction accumulated generalizing position with
  | nil =>
      cases ok
      exact .nil _
  | cons best _ _ ih =>
      obtain ⟨writes, dust, coinOut, price, swapped, _, ok⟩ := swapHopsUnchecked_cons ok
      obtain ⟨restAhead, within⟩ := ahead.hop apart wellFormed best swapped price
      exact .cons within (ih restAhead (List.pairwise_cons.mp apart).2 ok)

/-- The price of a route so far is what it has bought for one token, up to rounding. -/
structure RoutePosition.PricedFrom (position : RoutePosition) (input : PrecDec) : Prop where
  nonneg : 0 ≤ position.currentPrice.i
  lower : position.coin.amount.value / input.value - smallest ≤ position.currentPrice.value
  upper : position.currentPrice.value ≤ position.coin.amount.value / input.value + smallest

theorem RoutePosition.PricedFrom.advance {input currentPrice : PrecDec} {dust coinOut : PrecDecCoin}
    (division : coinOut.amount.quo input = .ok currentPrice) (nonneg : 0 ≤ coinOut.amount.i)
    (inputPositive : 0 < input.i) (writes : List BookWrite) :
    (position.advance currentPrice dust coinOut writes).PricedFrom input where
  nonneg := quo_nonneg division nonneg inputPositive.le
  lower := by
    have rounded := lt_quo_value division nonneg inputPositive
    have rounding : smallest / 2 + smallest ^ 2 ≤ smallest := by norm_num [smallest]
    unfold RoutePosition.advance
    dsimp only
    linarith
  upper := by
    have rounded := quo_value_le division nonneg inputPositive
    have positive := smallest_pos
    unfold RoutePosition.advance
    dsimp only
    linarith

def routeSlack (factor : ℚ) (legs : List (Compounding.Leg ℚ)) : ℚ :=
  factor * (Compounding.totalError legs + smallest +
    smallest * legs.length * (1 + Compounding.totalError legs + smallest)) + smallest

theorem hopLeg_error_nonneg (env : MultihopEnv) (step : MultihopStep) :
    0 ≤ (hopLeg env step).error :=
  mul_nonneg (Nat.cast_nonneg _) (half_pos smallest_pos).le

theorem totalError_nonneg (env : MultihopEnv) (steps : List MultihopStep) :
    0 ≤ Compounding.totalError (steps.map (hopLeg env)) := by
  refine List.sum_nonneg fun error member => ?_
  obtain ⟨leg, isLeg, rfl⟩ := List.mem_map.mp member
  obtain ⟨step, _, rfl⟩ := List.mem_map.mp isLeg
  exact hopLeg_error_nonneg env step

variable {before : List MultihopStep} {factor : ℚ}

theorem exitLimitPrice_le_upperbound (wellFormed : env.book.WellFormed)
    (accumulated : Accumulated env steps priceAcc)
    (first : Compounding.Compounds (before.map (hopLeg env))
      env.initialInCoin.coin.amount.value position.coin.amount.value)
    (second : Compounding.Compounds (steps.map (hopLeg env)) position.coin.amount.value
      final.coin.amount.value)
    (within : Compounding.Within factor
      (Compounding.rates ((before ++ steps).map (hopLeg env))))
    (priced : position.PricedFrom env.initialInCoin.coin.amount)
    (atLeastOne : 1 ≤ env.initialInCoin.coin.amount.value)
    (achieved : env.exitLimitPrice.value + routeSlack factor ((before ++ steps).map (hopLeg env)) ≤
      final.coin.amount.value / env.initialInCoin.coin.amount.value) :
    ¬ position.currentPrice.mul priceAcc < env.exitLimitPrice := by
  rw [List.map_append, Compounding.rates_append] at within
  have factorPos := zero_le_one.trans within.one_le
  have bound := Compounding.le_price_mul_estimate first second within
    (fun leg member => by
      rw [← List.map_append] at member
      obtain ⟨step, _, rfl⟩ := List.mem_map.mp member
      exact hopLeg_error_nonneg env step)
    smallest_pos.le atLeastOne (value_nonneg_iff.mpr priced.nonneg) priced.lower priced.upper
    (accumulated.underestimates wellFormed)
  have rounded := le_mul_value priced.nonneg (accumulated.nonneg wellFormed)
  have slack : factor * (Compounding.totalError (steps.map (hopLeg env)) + smallest +
      smallest * (steps.map (hopLeg env)).length *
        (1 + Compounding.totalError (before.map (hopLeg env)) + smallest)) + smallest ≤
      routeSlack factor ((before ++ steps).map (hopLeg env)) := by
    have beforeNonneg := totalError_nonneg env before
    have stepsNonneg := totalError_nonneg env steps
    have unitNonneg := smallest_pos.le
    unfold routeSlack
    rw [List.map_append, Compounding.totalError_append, List.length_append]
    gcongr
    · exact le_add_of_nonneg_left beforeNonneg
    · exact Nat.le_add_left _ _
    · exact le_add_of_nonneg_right stepsNonneg
  have positive := smallest_pos
  rw [lt_def, not_lt, ← value_le_value_iff]
  linarith

theorem swapHops_eq_unchecked (wellFormed : env.book.WellFormed)
    (accumulated : Accumulated env steps priceAcc) (ahead : position.Ahead env steps)
    (apart : steps.Pairwise MultihopStep.Apart)
    (first : Compounding.Compounds (before.map (hopLeg env))
      env.initialInCoin.coin.amount.value position.coin.amount.value)
    (within : Compounding.Within factor
      (Compounding.rates ((before ++ steps).map (hopLeg env))))
    (priced : position.PricedFrom env.initialInCoin.coin.amount)
    (atLeastOne : 1 ≤ env.initialInCoin.coin.amount.value)
    (ok : swapHopsUnchecked env steps position = .ok (.ok final))
    (achieved : env.exitLimitPrice.value + routeSlack factor ((before ++ steps).map (hopLeg env)) ≤
      final.coin.amount.value / env.initialInCoin.coin.amount.value) :
    swapHops env steps position = .ok (.ok final) ∧
      final.PricedFrom env.initialInCoin.coin.amount := by
  induction accumulated generalizing position before with
  | nil =>
      cases ok
      exact ⟨rfl, priced⟩
  | @cons step rest priceAcc price best quotient later ih =>
      have second := swapHopsUnchecked_compounds wellFormed ahead apart
        (.cons best quotient later) ok
      have passes := exitLimitPrice_le_upperbound wellFormed (.cons best quotient later) first
        second within priced atLeastOne achieved
      obtain ⟨writes, dust, coinOut, currentPrice, swapped, division, ok⟩ :=
        swapHopsUnchecked_cons ok
      obtain ⟨restAhead, gained⟩ := ahead.hop apart wellFormed best swapped currentPrice
      have inputPositive : 0 < env.initialInCoin.coin.amount.i :=
        value_pos_iff.mp (zero_lt_one.trans_le atLeastOne)
      have regrouped : before ++ step :: rest = (before ++ [step]) ++ rest := by simp
      rw [regrouped] at within achieved
      have reached : Compounding.Compounds ((before ++ [step]).map (hopLeg env))
          env.initialInCoin.coin.amount.value
          (position.advance currentPrice dust coinOut writes).coin.amount.value := by
        rw [List.map_append]
        exact first.concat gained
      obtain ⟨done, finalPriced⟩ := ih restAhead (List.pairwise_cons.mp apart).2 reached within
        (.advance division restAhead.nonneg inputPositive writes) ok achieved
      refine ⟨?_, finalPriced⟩
      rw [swapHops, if_neg passes]
      refine (Outcome.bind_eq_ok_iff _ _ _).mpr ⟨_, swapped, ?_⟩
      exact (Outcome.bind_eq_ok_iff _ _ _).mpr ⟨_, division, done⟩

theorem totalError_eq (env : MultihopEnv) (steps : List MultihopStep) :
    Compounding.totalError (steps.map (hopLeg env)) =
      (steps.map (offersOf env)).sum * (smallest / 2) := by
  induction steps with
  | nil => simp [Compounding.totalError]
  | cons step rest ih =>
      rw [List.map_cons, Compounding.totalError_cons, ih, List.map_cons, List.sum_cons, hopLeg]
      push_cast
      ring

theorem routeSlack_le (env : MultihopEnv) (steps : List MultihopStep) (oneLe : 1 ≤ factor) :
    routeSlack factor (steps.map (hopLeg env)) ≤
      (steps.length + 1) * ((steps.map (offersOf env)).sum + 4) / 2 * factor / 10 ^ 27 := by
  rw [routeSlack, totalError_eq, List.length_map]
  have small : smallest ≤ 1 := by norm_num [smallest]
  have unit : (1 : ℚ) / 10 ^ 27 = smallest := rfl
  have positive := smallest_pos
  generalize ((steps.map (offersOf env)).sum : Nat) = offers
  generalize steps.length = hops
  have offersNonneg : (0 : ℚ) ≤ offers := Nat.cast_nonneg _
  have hopsNonneg : (0 : ℚ) ≤ hops := Nat.cast_nonneg _
  have perHop : 1 + offers * (smallest / 2) + smallest ≤ 2 + (offers : ℚ) / 2 := by
    have errors := mul_le_mul_of_nonneg_left small offersNonneg
    linarith
  have lengths := mul_le_mul_of_nonneg_left perHop hopsNonneg
  have total : offers * (smallest / 2) + smallest + smallest * hops *
      (1 + offers * (smallest / 2) + smallest) + smallest ≤
        smallest * ((hops + 1) * (offers + 4) / 2) := by
    have scaled := mul_le_mul_of_nonneg_left lengths positive.le
    linarith
  calc factor * (offers * (smallest / 2) + smallest + smallest * hops *
          (1 + offers * (smallest / 2) + smallest)) + smallest
      ≤ factor * (offers * (smallest / 2) + smallest + smallest * hops *
          (1 + offers * (smallest / 2) + smallest)) + factor * smallest := by
        gcongr
        exact le_mul_of_one_le_left positive.le oneLe
    _ = factor * (offers * (smallest / 2) + smallest + smallest * hops *
          (1 + offers * (smallest / 2) + smallest) + smallest) := by ring
    _ ≤ factor * (smallest * ((hops + 1) * (offers + 4) / 2)) := by gcongr
    _ = (hops + 1) * (offers + 4) / 2 * factor / 10 ^ 27 := by
        rw [← unit]
        ring

end Run

section Examples

def routeWorld : World :=
  Machine.run step openWorld [
    .message (.placeLimitOrder ⟨alice, "alice", "untrn", "uatom", 11, 9, .goodTilCancelled,
      none, none, none, none⟩),
    .message (.placeLimitOrder ⟨alice, "alice", "uosmo", "untrn", -10, 9, .goodTilCancelled,
      none, none, none, none⟩)]

def routeEnv (exitLimitPrice : PrecDec) : MultihopEnv :=
  ⟨routeWorld.dex.book, routeWorld.blockTime, ⟨⟨"uatom", newPrecDecFromInt 1⟩, 0⟩,
    exitLimitPrice⟩

def isRejected {Result : Type} : Outcome (Except DexError Result) → Bool
  | .ok (.error .limitPriceNotSatisfied) => true
  | _ => false

theorem eq_of_isRejected {Result : Type} {outcome : Outcome (Except DexError Result)}
    (rejected : isRejected outcome = true) :
    outcome = .ok (.error .limitPriceNotSatisfied) := by
  unfold isRejected at rejected
  split at rejected
  · rfl
  · cases rejected

theorem swapRouteUnchecked_achieves {exitLimitPrice amount : PrecDec}
    (runs : (swapRouteUnchecked (routeEnv exitLimitPrice)
        ["uatom", "untrn", "uosmo"]).toOption.bind
      (fun result => result.toOption.map fun outcome => outcome.coinOut.amount) =
        some amount) :
    ∃ outcome, swapRouteUnchecked (routeEnv exitLimitPrice) ["uatom", "untrn", "uosmo"] =
        .ok (.ok outcome) ∧ outcome.coinOut.amount = amount := by
  obtain ⟨result, ran, rest⟩ := Option.bind_eq_some_iff.mp runs
  obtain ⟨outcome, isOutcome, isAmount⟩ := Option.map_eq_some_iff.mp rest
  refine ⟨outcome, ?_, isAmount⟩
  rw [Outcome.toOption_eq_some_iff.mp ran]
  cases result with
  | error cause => cases isOutcome
  | ok found =>
      cases isOutcome
      rfl

end Examples

end Neutron.Dex
