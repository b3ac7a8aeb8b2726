import Neutron.Library.Branching
import Neutron.Dex.FractionalBanker
import Neutron.Dex.Swap

namespace Neutron.Dex

open Library PrecDec

/-! Multi-hop swaps (`x/dex/keeper/multihop_swap.go`,
`x/dex/types/branchable_cache.go`).  Contexts are branches of buffered stores,
and coins carry the address of their amount: the step cache is a Go map whose
keys hold a pointer to a big integer, so two keys are equal only if they hold
the same pointer. -/

structure HeapCoin where
  coin : PrecDecCoin
  pointer : Nat

structure MultihopStep where
  remainingBestPrice : PrecDec
  tradePairID : TradePairID

structure MultihopCacheKey where
  tokenIn : String
  tokenOut : String
  inAmount : Nat
  deriving DecidableEq

/-- `StepResult`; the coins of a failed step are unset. -/
structure StepResult where
  ctx : Branch
  result : Except DexError (PrecDecCoin × HeapCoin)

/-- What the routes of one message share: the branched stores, the heap of
amounts and the step cache. -/
structure MultihopMemory where
  buffers : Buffers BookWrite
  nextPointer : Nat
  stepCache : List (MultihopCacheKey × StepResult)

def attempt {Result : Type} : Outcome Result → Outcome (Except DexError Result)
  | .ok result => .ok (.ok result)
  | .error (.error cause) => .ok (.error cause)
  | .error (.panic cause) => .error (.panic cause)

/-- `SwapFullAmountIn`; what was written stays written when it fails. -/
def swapFullAmountIn (book : OrderBook) (blockTime : Time)
    (tradePairID : TradePairID) (amountIn : PrecDec) :
    Outcome (List BookWrite × Except DexError (PrecDecCoin × PrecDecCoin)) := do
  let result ← swap book blockTime tradePairID amountIn none none
  if ¬ result.orderFilled then
    pure (result.writes, .error .noLiquidity)
  else do
    let dust ← newPrecDecCoin result.totalTakerCoin.denom
      (amountIn - result.totalTakerCoin.amount)
    if dust.amount.IsNegative then
      pure (result.writes, .error .dustCoinsNegative)
    else
      pure (result.writes, .ok (dust, result.totalMakerCoin))

/-- `HopsToRouteData`, from the last hop to the first; the first component is
the accumulated price. -/
def hopsToRouteData (book : OrderBook) (blockTime : Time) :
    List String → Outcome (PrecDec × List MultihopStep)
  | tokenIn :: tokenOut :: rest => do
      let (priceAcc, steps) ← hopsToRouteData book blockTime (tokenOut :: rest)
      let tradePairID ← newTradePairID tokenIn tokenOut
      match getCurrPrice book blockTime tradePairID with
      | none => fail .limitPriceNotSatisfied
      | some price => do
          let priceAcc ← priceAcc.quo price
          pure (priceAcc, ⟨priceAcc, tradePairID⟩ :: steps)
  | _ => pure (onePrecDec, [])

namespace MultihopMemory

def empty : MultihopMemory := ⟨Buffers.empty, 1, []⟩

def view (memory : MultihopMemory) (book : OrderBook) (ctx : Branch) : OrderBook :=
  memory.buffers.view OrderBook.write book ctx

def newBranchableCache (memory : MultihopMemory) : Branch × MultihopMemory :=
  let (ctx, buffers) := memory.buffers.newRoot
  (ctx, { memory with buffers := buffers })

def branch (memory : MultihopMemory) (ctx : Branch) : Branch × MultihopMemory :=
  let (child, buffers) := memory.buffers.fork ctx
  (child, { memory with buffers := buffers })

/-- `BranchableCache.WriteCache`: the order book after committing a context. -/
def writeCache (memory : MultihopMemory) (book : OrderBook) (ctx : Branch) :
    OrderBook :=
  (memory.buffers.commit OrderBook.write book ctx).1

def lookup (memory : MultihopMemory) (key : MultihopCacheKey) : Option StepResult :=
  (memory.stepCache.find? fun entry => decide (entry.1 = key)).map Prod.snd

def store (memory : MultihopMemory) (key : MultihopCacheKey) (ctx : Branch)
    (writes : List BookWrite)
    (result : Except DexError (PrecDecCoin × PrecDecCoin)) :
    StepResult × MultihopMemory :=
  let stored : StepResult := ⟨ctx, result.map fun coins =>
    (coins.1, ⟨coins.2, memory.nextPointer⟩)⟩
  (stored, {
    buffers := memory.buffers.record ctx.buffer writes
    nextPointer := memory.nextPointer + 1
    stepCache := (key, stored) :: memory.stepCache })

end MultihopMemory

structure StepOutput where
  dust : PrecDecCoin
  coinOut : HeapCoin
  ctx : Branch

structure MultihopEnv where
  book : OrderBook
  blockTime : Time
  initialInCoin : HeapCoin
  exitLimitPrice : PrecDec

def multihopStep (env : MultihopEnv) (bCtx : Branch) (step : MultihopStep)
    (inCoin : HeapCoin) (memory : MultihopMemory) :
    Outcome (Except DexError StepOutput × MultihopMemory) :=
  let cacheKey : MultihopCacheKey :=
    ⟨step.tradePairID.takerDenom, step.tradePairID.makerDenom, inCoin.pointer⟩
  match memory.lookup cacheKey with
  | some found =>
      let (ctxBranchCopy, memory) := memory.branch found.ctx
      pure (found.result.map fun coins => ⟨coins.1, coins.2, ctxBranchCopy⟩, memory)
  | none => do
      let (writes, result) ← swapFullAmountIn (memory.view env.book bCtx)
        env.blockTime step.tradePairID inCoin.coin.amount
      let (stored, memory) := memory.store cacheKey bCtx writes result
      let (ctxBranch, memory) := memory.branch bCtx
      pure (stored.result.map fun coins => ⟨coins.1, coins.2, ctxBranch⟩, memory)

/-- The variables of the loop in `RunMultihopRoute`. -/
structure RouteState where
  currentPrice : PrecDec
  coin : HeapCoin
  ctx : Branch
  dustAcc : PrecDecCoins

def runMultihopSteps (env : MultihopEnv) :
    List MultihopStep → RouteState → MultihopMemory →
      Outcome (Except DexError RouteState × MultihopMemory)
  | [], state, memory => pure (.ok state, memory)
  | step :: rest, state, memory =>
      let priceUpperbound := state.currentPrice.mul step.remainingBestPrice
      if priceUpperbound < env.exitLimitPrice then
        pure (.error .limitPriceNotSatisfied, memory)
      else do
        let (result, memory) ← multihopStep env state.ctx step state.coin memory
        match result with
        | .error cause =>
            pure (.error (.wrapped
              ("Failed at pair: " ++ step.tradePairID.pairID.canonicalString) cause),
              memory)
        | .ok output => do
            let currentPrice ← output.coinOut.coin.amount.quo
              env.initialInCoin.coin.amount
            runMultihopSteps env rest {
              currentPrice := currentPrice
              coin := output.coinOut
              ctx := output.ctx
              dustAcc := Tally.add state.dustAcc (PrecDecCoins.single output.dust) }
              memory

structure RouteOutput where
  dust : PrecDecCoins
  coinOut : PrecDecCoin
  write : Branch

def runMultihopRoute (env : MultihopEnv) (hops : List String)
    (memory : MultihopMemory) :
    Outcome (Except DexError RouteOutput × MultihopMemory) := do
  match ← attempt (hopsToRouteData env.book env.blockTime hops) with
  | .error cause => pure (.error cause, memory)
  | .ok (_, routeData) => do
      let (bCacheCtx, memory) := memory.newBranchableCache
      let (result, memory) ← runMultihopSteps env routeData
        ⟨onePrecDec, env.initialInCoin, bCacheCtx, SortedStore.empty⟩ memory
      match result with
      | .error cause => pure (.error cause, memory)
      | .ok final =>
          if final.currentPrice < env.exitLimitPrice then
            pure (.error .limitPriceNotSatisfied, memory)
          else
            pure (.ok ⟨final.dustAcc, final.coin.coin, final.ctx⟩, memory)

structure RouteAttempt where
  hops : List String
  result : Except DexError RouteOutput

/-- The routes in message order, sharing one memory.  Without `pickBestRoute`
the first success ends the loop. -/
def attemptRoutes (env : MultihopEnv) (pickBestRoute : Bool) :
    List (List String) → MultihopMemory →
      Outcome (List RouteAttempt × MultihopMemory)
  | [], memory => pure ([], memory)
  | hops :: rest, memory => do
      let (result, memory) ← runMultihopRoute env hops memory
      if ¬ pickBestRoute ∧ result.isOk then
        pure ([⟨hops, result⟩], memory)
      else do
        let (attempts, memory) ← attemptRoutes env pickBestRoute rest memory
        pure (⟨hops, result⟩ :: attempts, memory)

structure MultiHopRouteOutput where
  write : Branch
  coinOut : PrecDecCoin
  route : List String
  dust : PrecDecCoins

/-- Keep the best output so far; a route replaces it only if it pays more. -/
def selectRoute (pickBestRoute : Bool) (bestRoute : Option MultiHopRouteOutput)
    (tried : RouteAttempt) : Option MultiHopRouteOutput :=
  match tried.result with
  | .error _ => bestRoute
  | .ok output =>
      let bestAmount := (bestRoute.map fun best => best.coinOut.amount).getD zeroPrecDec
      if ¬ pickBestRoute ∨ bestAmount < output.coinOut.amount then
        some ⟨output.write, output.coinOut, tried.hops, output.dust⟩
      else
        bestRoute

def routeError (tried : RouteAttempt) : Option DexError :=
  match tried.result with
  | .error cause => some cause
  | .ok _ => none

/-- What `CalulateMultiHopSwap` returns; `bestRoute` is unset if no route was
better than nothing. -/
structure MultiHopSwapOutput where
  bestRoute : Option MultiHopRouteOutput
  initialInCoin : PrecDecCoin
  memory : MultihopMemory

def calulateMultiHopSwap (book : OrderBook) (blockTime : Time) (amountIn : Int)
    (routes : List (List String)) (exitLimitPrice : PrecDec) (pickBestRoute : Bool) :
    Outcome MultiHopSwapOutput :=
  match routes.head?.bind List.head? with
  | none => abort .indexOutOfRange
  | some entryToken => do
      let coin ← newCoin entryToken amountIn
      let initialInCoin ← newPrecDecCoin coin.denom (newPrecDecFromInt coin.amount)
      -- the heap starts with the initial amount, which all routes share
      let env : MultihopEnv := ⟨book, blockTime, ⟨initialInCoin, 0⟩, exitLimitPrice⟩
      let (attempts, memory) ← attemptRoutes env pickBestRoute routes
        MultihopMemory.empty
      let routeErrors := attempts.filterMap routeError
      if routeErrors.length = routes.length then
        fail (.allMultiHopRoutesFailed routeErrors)
      else
        pure ⟨attempts.foldl (selectRoute pickBestRoute) none, initialInCoin, memory⟩

structure MultiHopSwapCoreOutput where
  coinOut : PrecDecCoin
  route : List String
  dust : PrecDecCoins

def multiHopSwapCore (world : World) (amountIn : Int) (routes : List (List String))
    (exitLimitPrice : PrecDec) (pickBestRoute : Bool)
    (callerAddr receiverAddr : String) :
    Outcome (MultiHopSwapCoreOutput × World) := do
  let output ← calulateMultiHopSwap world.dex.book world.blockTime amountIn routes
    exitLimitPrice pickBestRoute
  match output.bestRoute with
  | none => abort .nilFunction
  | some bestRoute => do
      let book := output.memory.writeCache world.dex.book bestRoute.write
      let swapped := { world with dex := { world.dex with book := book } }
      let paidIn ← sendFractionalCoinsFromAccountToDex swapped callerAddr
        (PrecDecCoins.single output.initialInCoin)
      let paidOut ← wrapError "failed to send out coin and dust to the receiver"
        (sendFractionalCoinsFromDexToAccount paidIn receiverAddr
          (Tally.add bestRoute.dust (PrecDecCoins.single bestRoute.coinOut)))
      pure (⟨bestRoute.coinOut, bestRoute.route, bestRoute.dust⟩, paidOut)

end Neutron.Dex
