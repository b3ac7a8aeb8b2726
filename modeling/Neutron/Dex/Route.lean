import Neutron.Dex.Multihop

namespace Neutron.Dex

open Library PrecDec

/-! What a route means: its hops are swapped one after the other on an order book
of its own.  There are no branches, no pointers and no cache here; the keeper's
routes are compared with these. -/

structure RoutePosition where
  currentPrice : PrecDec
  coin : PrecDecCoin
  book : OrderBook
  dustAcc : PrecDecCoins

def RoutePosition.advance (position : RoutePosition) (currentPrice : PrecDec)
    (dust coinOut : PrecDecCoin) (writes : List BookWrite) : RoutePosition where
  currentPrice := currentPrice
  coin := coinOut
  book := position.book.writeAll writes
  dustAcc := Tally.add position.dustAcc (PrecDecCoins.single dust)

def swapHops (env : MultihopEnv) :
    List MultihopStep → RoutePosition → Outcome (Except DexError RoutePosition)
  | [], position => pure (.ok position)
  | step :: rest, position =>
      if position.currentPrice.mul step.remainingBestPrice < env.exitLimitPrice then
        pure (.error .limitPriceNotSatisfied)
      else do
        let (writes, result) ← swapFullAmountIn position.book env.blockTime
          step.tradePairID position.coin.amount
        match result with
        | .error cause =>
            pure (.error (.wrapped
              ("Failed at pair: " ++ step.tradePairID.pairID.canonicalString) cause))
        | .ok (dust, coinOut) => do
            let currentPrice ← coinOut.amount.quo env.initialInCoin.coin.amount
            swapHops env rest (position.advance currentPrice dust coinOut writes)

structure RouteOutcome where
  dust : PrecDecCoins
  coinOut : PrecDecCoin
  book : OrderBook

/-- The end of a route: its average price has to meet the exit limit. -/
def finishRoute (env : MultihopEnv) : Except DexError RoutePosition →
    Except DexError RouteOutcome
  | .error cause => .error cause
  | .ok final =>
      if final.currentPrice < env.exitLimitPrice then .error .limitPriceNotSatisfied
      else .ok ⟨final.dustAcc, final.coin, final.book⟩

def swapRoute (env : MultihopEnv) (hops : List String) :
    Outcome (Except DexError RouteOutcome) := do
  match ← attempt (hopsToRouteData env.book env.blockTime hops) with
  | .error cause => pure (.error cause)
  | .ok (_, routeData) => do
      let result ← swapHops env routeData
        ⟨onePrecDec, env.initialInCoin.coin, env.book, SortedStore.empty⟩
      pure (finishRoute env result)

structure RouteTrial where
  hops : List String
  result : Except DexError RouteOutcome

def tryRoutes (run : List String → Outcome (Except DexError RouteOutcome))
    (pickBestRoute : Bool) : List (List String) → Outcome (List RouteTrial)
  | [] => pure []
  | hops :: rest => do
      let result ← run hops
      if ¬ pickBestRoute ∧ result.isOk then
        pure [⟨hops, result⟩]
      else do
        let trials ← tryRoutes run pickBestRoute rest
        pure (⟨hops, result⟩ :: trials)

structure RouteChoice where
  route : List String
  outcome : RouteOutcome

def chooseRoute (pickBestRoute : Bool) (best : Option RouteChoice)
    (trial : RouteTrial) : Option RouteChoice :=
  match trial.result with
  | .error _ => best
  | .ok outcome =>
      let bestAmount := (best.map fun choice => choice.outcome.coinOut.amount).getD
        zeroPrecDec
      if ¬ pickBestRoute ∨ bestAmount < outcome.coinOut.amount then
        some ⟨trial.hops, outcome⟩
      else
        best

def RouteTrial.error (trial : RouteTrial) : Option DexError :=
  match trial.result with
  | .error cause => some cause
  | .ok _ => none

structure MultiHopOutcome where
  choice : Option RouteChoice
  initialInCoin : PrecDecCoin

/-- `CalulateMultiHopSwap` over routes that share nothing but the state they start
from. -/
def calculateOverRoutes (run : MultihopEnv → List String →
      Outcome (Except DexError RouteOutcome))
    (book : OrderBook) (blockTime : Time) (amountIn : Int)
    (routes : List (List String)) (exitLimitPrice : PrecDec) (pickBestRoute : Bool) :
    Outcome MultiHopOutcome :=
  match routes.head?.bind List.head? with
  | none => abort .indexOutOfRange
  | some entryToken => do
      let coin ← newCoin entryToken amountIn
      let initialInCoin ← newPrecDecCoin coin.denom (newPrecDecFromInt coin.amount)
      let trials ← tryRoutes
        (run ⟨book, blockTime, ⟨initialInCoin, 0⟩, exitLimitPrice⟩) pickBestRoute routes
      let routeErrors := trials.filterMap RouteTrial.error
      if routeErrors.length = routes.length then
        fail (.allMultiHopRoutesFailed routeErrors)
      else
        pure ⟨trials.foldl (chooseRoute pickBestRoute) none, initialInCoin⟩

end Neutron.Dex
