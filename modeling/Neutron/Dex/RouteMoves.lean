import Neutron.Dex.StepCache
import Neutron.Dex.OrderMessages

namespace Neutron.Dex

open Library PrecDec

def Chained : String → List MultihopStep → Prop
  | _, [] => True
  | denom, step :: rest =>
      step.tradePairID.takerDenom = denom ∧ Chained step.tradePairID.makerDenom rest

variable {blockTime : Time} {steps : List MultihopStep}

theorem hopsToRouteData_chained {book : OrderBook} {denom : String}
    {hops : List String} {priceAcc : PrecDec}
    (ok : hopsToRouteData book blockTime (denom :: hops) = .ok (priceAcc, steps)) :
    Chained denom steps := by
  induction hops generalizing denom priceAcc steps with
  | nil =>
      cases ok
      trivial
  | cons next rest ih =>
      obtain ⟨⟨accumulated, later⟩, laterOk, ok⟩ := of_bind ok
      obtain ⟨tradePairID, pair, ok⟩ := of_bind ok
      split at ok
      · cases ok
      · obtain ⟨_, _, ok⟩ := of_bind ok
        cases ok
        exact ⟨newTradePairID_takerDenom pair,
          (newTradePairID_makerDenom pair).symm ▸ ih laterOk⟩

theorem attempt_eq_ok_ok {Result : Type} {outcome : Outcome Result} {result : Result}
    (ok : attempt outcome = .ok (.ok result)) : outcome = .ok result := by
  rcases outcome with (_ | _) | _
  · cases ok
  · cases ok
  · cases ok
    rfl

variable {tradePairID : TradePairID} {writes : List BookWrite} {dust coinOut : PrecDecCoin}

theorem swapFullAmountIn_eq_ok {book : OrderBook} {now : Time}
    {amountIn : PrecDec}
    (ok : swapFullAmountIn book now tradePairID amountIn =
      .ok (writes, .ok (dust, coinOut))) :
    ∃ result, swap book now tradePairID amountIn none none = .ok result ∧
      writes = result.writes ∧ coinOut = result.totalMakerCoin ∧
      dust = ⟨result.totalTakerCoin.denom, amountIn - result.totalTakerCoin.amount⟩ := by
  obtain ⟨result, swapped, ok⟩ := of_bind ok
  refine ⟨result, swapped, ?_⟩
  split at ok
  · cases ok
  · obtain ⟨change, changeOk, ok⟩ := of_bind ok
    split at ok
    · cases ok
    · cases ok
      exact ⟨rfl, rfl, (newPrecDecCoin_eq_ok_iff.mp changeOk).2.2⟩

theorem PrecDecCoins.flow_add (left right : PrecDecCoins) :
    PrecDecCoins.flow (Tally.add left right) = left.flow + right.flow := by
  funext denom
  exact congrArg PrecDec.i (Tally.amountOf_add left right denom)

theorem PrecDecCoins.flow_empty : PrecDecCoins.flow SortedStore.empty = 0 := rfl

/-- What is known of a route between two hops: the coin and the dust it has are what
it started with, less what it added to the reserves. -/
structure RoutePosition.Reached (rules : Rules) (dex : DexState) (inCoin : PrecDecCoin)
    (position : RoutePosition) : Prop where
  moves : Moves rules dex (inCoin.flow - (position.dustAcc.flow + position.coin.flow))
    { dex with book := position.book }
  coinNonneg : 0 ≤ position.coin.amount.i
  dustNonneg : 0 ≤ position.dustAcc.flow

section Route

variable {rules : Rules} {dex : DexState} {inCoin : PrecDecCoin} {position : RoutePosition}

theorem RoutePosition.Reached.start (nonneg : 0 ≤ inCoin.amount.i) (price : PrecDec) :
    RoutePosition.Reached rules dex inCoin
      ⟨price, inCoin, dex.book, SortedStore.empty⟩ where
  moves := by
    rw [PrecDecCoins.flow_empty, zero_add, sub_self]
    exact .nil dex
  coinNonneg := nonneg
  dustNonneg := PrecDecCoins.flow_empty.ge

theorem RoutePosition.Reached.hop (reached : position.Reached rules dex inCoin)
    (wellFormed : dex.WellFormed)
    (spends : tradePairID.takerDenom = position.coin.denom)
    (ok : swapFullAmountIn position.book rules.now tradePairID position.coin.amount =
      .ok (writes, .ok (dust, coinOut))) (price : PrecDec) :
    (position.advance price dust coinOut writes).Reached rules dex inCoin ∧
      coinOut.denom = tradePairID.makerDenom := by
  obtain ⟨result, swapped, rfl, rfl, rfl⟩ := swapFullAmountIn_eq_ok ok
  have spec := swap_spec (reached.moves.wellFormed wellFormed).book reached.coinNonneg
    (by simp) swapped
  have dustFlow : PrecDecCoin.flow ⟨result.totalTakerCoin.denom,
      position.coin.amount - result.totalTakerCoin.amount⟩ =
        position.coin.flow - result.totalTakerCoin.flow := by
    unfold PrecDecCoin.flow
    rw [Flow.coin_sub, spec.takerDenom, spends]
  have dustNonneg : 0 ≤ position.coin.flow - result.totalTakerCoin.flow := fun denom =>
    dustFlow ▸ Flow.coin_nonneg (sub_nonneg.mpr spec.inLe) _ denom
  refine ⟨⟨?_, spec.outNonneg, ?_⟩, spec.makerDenom⟩
  · have moves := reached.moves.append
      (@SwapSpec.moves _ _ _ rules { dex with book := position.book } _ spec)
    unfold RoutePosition.advance
    rw [PrecDecCoins.flow_add, flow_single, dustFlow]
    have total : inCoin.flow - (position.dustAcc.flow +
          (position.coin.flow - result.totalTakerCoin.flow) + result.totalMakerCoin.flow) =
        inCoin.flow - (position.dustAcc.flow + position.coin.flow) +
          (result.totalTakerCoin.flow - result.totalMakerCoin.flow) := by
      abel
    rw [total]
    exact moves
  · unfold RoutePosition.advance
    rw [PrecDecCoins.flow_add, flow_single, dustFlow]
    exact fun denom => add_nonneg (reached.dustNonneg denom) (dustNonneg denom)

variable {env : MultihopEnv}

theorem swapHops_reached (now : env.blockTime = rules.now)
    (wellFormed : dex.WellFormed) {final : RoutePosition}
    (reached : position.Reached rules dex inCoin)
    (chained : Chained position.coin.denom steps)
    (ok : swapHops env steps position = .ok (.ok final)) :
    final.Reached rules dex inCoin := by
  induction steps generalizing position with
  | nil =>
      cases ok
      exact reached
  | cons step rest ih =>
      unfold swapHops at ok
      split at ok
      · cases ok
      · obtain ⟨⟨writes, result⟩, swapped, ok⟩ := of_bind ok
        cases result with
        | error cause => cases ok
        | ok coins =>
            obtain ⟨price, _, ok⟩ := of_bind ok
            rw [now] at swapped
            have next := reached.hop wellFormed chained.1 swapped price
            exact ih next.1 (next.2 ▸ chained.2) ok

structure RouteOutcome.Moved (rules : Rules) (dex : DexState) (inCoin : PrecDecCoin)
    (outcome : RouteOutcome) : Prop where
  moves : Moves rules dex (inCoin.flow - (outcome.dust.flow + outcome.coinOut.flow))
    { dex with book := outcome.book }
  coinNonneg : 0 ≤ outcome.coinOut.amount.i
  dustNonneg : 0 ≤ outcome.dust.flow

theorem swapRoute_moved (now : env.blockTime = rules.now)
    (book : env.book = dex.book) (wellFormed : dex.WellFormed) {hops : List String}
    (nonneg : 0 ≤ env.initialInCoin.coin.amount.i)
    (entry : hops.head? = some env.initialInCoin.coin.denom) {outcome : RouteOutcome}
    (ok : swapRoute env hops = .ok (.ok outcome)) :
    outcome.Moved rules dex env.initialInCoin.coin := by
  obtain ⟨routed, routeData, ok⟩ := of_bind ok
  cases routed with
  | error cause => cases ok
  | ok data =>
      obtain ⟨priceAcc, steps⟩ := data
      obtain ⟨result, swapped, ok⟩ := of_bind ok
      obtain ⟨rest, rfl⟩ : ∃ rest, hops = env.initialInCoin.coin.denom :: rest := by
        cases hops with
        | nil => cases entry
        | cons first rest => exact ⟨rest, congrArg (· :: rest) (Option.some.inj entry)⟩
      have chained := hopsToRouteData_chained (attempt_eq_ok_ok routeData)
      cases result with
      | error cause => cases ok
      | ok final =>
          rw [book] at swapped
          have reached := swapHops_reached now wellFormed
            (.start nonneg onePrecDec) chained swapped
          unfold finishRoute at ok
          dsimp only at ok
          split at ok
          · cases ok
          · cases ok
            exact ⟨reached.moves, reached.coinNonneg, reached.dustNonneg⟩

end Route

variable {choice : RouteChoice}

section Choice

variable {run : List String → Outcome (Except DexError RouteOutcome)} {pickBestRoute : Bool}
  {trials : List RouteTrial}

theorem tryRoutes_eq_ok {routes : List (List String)}
    (ok : tryRoutes run pickBestRoute routes = .ok trials) {trial : RouteTrial}
    (member : trial ∈ trials) : trial.hops ∈ routes ∧ run trial.hops = .ok trial.result := by
  induction routes generalizing trials with
  | nil =>
      cases ok
      cases member
  | cons hops rest ih =>
      obtain ⟨result, ran, ok⟩ := of_bind ok
      split at ok
      · cases ok
        rw [List.mem_singleton] at member
        subst member
        exact ⟨List.mem_cons_self, ran⟩
      · obtain ⟨others, othersOk, ok⟩ := of_bind ok
        cases ok
        cases member with
        | head => exact ⟨List.mem_cons_self, ran⟩
        | tail _ later =>
            have tried := ih othersOk later
            exact ⟨List.mem_cons_of_mem _ tried.1, tried.2⟩

variable {best : Option RouteChoice}

theorem chooseRoute_eq_some {trial : RouteTrial}
    (chosen : chooseRoute pickBestRoute best trial = some choice) :
    best = some choice ∨ (trial.hops = choice.route ∧ trial.result = .ok choice.outcome) := by
  unfold chooseRoute at chosen
  split at chosen
  · exact .inl chosen
  · rename_i outcome succeeded
    dsimp only at chosen
    split at chosen
    · cases chosen
      exact .inr ⟨rfl, succeeded⟩
    · exact .inl chosen

theorem foldl_chooseRoute_eq_some
    (chosen : trials.foldl (chooseRoute pickBestRoute) best = some choice) :
    best = some choice ∨ ∃ trial ∈ trials,
      trial.hops = choice.route ∧ trial.result = .ok choice.outcome := by
  induction trials generalizing best with
  | nil => exact .inl chosen
  | cons trial rest ih =>
      rcases ih chosen with found | ⟨later, member, isChoice⟩
      · rcases chooseRoute_eq_some found with same | isChoice
        · exact .inl same
        · exact .inr ⟨trial, List.mem_cons_self, isChoice⟩
      · exact .inr ⟨later, List.mem_cons_of_mem _ member, isChoice⟩

end Choice

section Swap

variable {rules : Rules} {dex : DexState} {amountIn : Int} {routes : List (List String)}
  {exitLimitPrice : PrecDec} {pickBestRoute : Bool}

theorem calculateOverRoutes_eq_ok
    {run : MultihopEnv → List String → Outcome (Except DexError RouteOutcome)}
    {book : OrderBook} {inCoin : PrecDecCoin}
    (ok : calculateOverRoutes run book blockTime amountIn routes exitLimitPrice
      pickBestRoute = .ok ⟨some choice, inCoin⟩) :
    routes.head?.bind List.head? = some inCoin.denom ∧ 0 ≤ inCoin.amount.i ∧
      choice.route ∈ routes ∧
      run ⟨book, blockTime, ⟨inCoin, 0⟩, exitLimitPrice⟩ choice.route =
        .ok (.ok choice.outcome) := by
  unfold calculateOverRoutes at ok
  split at ok
  · cases ok
  · rename_i entryToken isEntry
    obtain ⟨coin, coinNew, ok⟩ := of_bind ok
    obtain ⟨initial, initialNew, ok⟩ := of_bind ok
    obtain ⟨trials, tried, ok⟩ := of_bind ok
    dsimp only at ok
    split at ok
    · cases ok
    · obtain ⟨chosen, rfl⟩ := MultiHopOutcome.mk.inj (Except.ok.inj ok)
      obtain ⟨_, nonneg, rfl⟩ := newPrecDecCoin_eq_ok_iff.mp initialNew
      cases newCoin_eq_ok coinNew
      rcases foldl_chooseRoute_eq_some chosen with impossible | ⟨trial, member, isChoice⟩
      · cases impossible
      · have ran := tryRoutes_eq_ok tried member
        rw [isChoice.1, isChoice.2] at ran
        exact ⟨isEntry, nonneg, ran⟩

theorem calulateMultiHopSwap_moves (wellFormed : dex.WellFormed)
    (entries : ∀ hops ∈ routes, hops.head? = routes.head?.bind List.head?)
    {output : MultiHopSwapOutput} {bestRoute : MultiHopRouteOutput}
    (ok : calulateMultiHopSwap dex.book rules.now amountIn routes exitLimitPrice
      pickBestRoute = .ok output) (best : output.bestRoute = some bestRoute) :
    RouteOutcome.Moved rules dex output.initialInCoin
      ⟨bestRoute.dust, bestRoute.coinOut,
        output.memory.writeCache dex.book bestRoute.write⟩ := by
  have observed := calulateMultiHopSwap_eq dex.book rules.now amountIn routes
    exitLimitPrice pickBestRoute
  rw [ok] at observed
  have isChoice : output.observe dex.book =
      ⟨some (bestRoute.observe output.memory dex.book), output.initialInCoin⟩ := by
    unfold MultiHopSwapOutput.observe
    rw [best]
    rfl
  have calculated := observed.symm.trans (congrArg Except.ok isChoice)
  obtain ⟨entry, nonneg, member, ran⟩ := calculateOverRoutes_eq_ok calculated
  exact swapRoute_moved rfl rfl wellFormed nonneg ((entries _ member).trans entry) ran

end Swap

end Neutron.Dex
