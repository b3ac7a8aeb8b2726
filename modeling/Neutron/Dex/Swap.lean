import Neutron.Dex.State

namespace Neutron.Dex

open Library PrecDec

/-! Sweeping the order book (`x/dex/keeper/liquidity.go`,
`liquidity_iterator.go`). -/

/-- The `Liquidity` interface: a pool seen from one trade pair, or a tranche. -/
inductive Liquidity where
  | poolLiquidity (tradePairID : TradePairID) (pool : Pool)
  | limitOrderTranche (tranche : LimitOrderTranche)

namespace Liquidity

def price : Liquidity → PrecDec
  | poolLiquidity tradePairID pool => pool.price tradePairID
  | limitOrderTranche tranche => tranche.makerPrice

def swap (maxAmountTakerIn : PrecDec) (maxAmountMakerOut : Option PrecDec) :
    Liquidity → Outcome (PrecDec × PrecDec × Liquidity)
  | poolLiquidity tradePairID pool => do
      let (inAmount, outAmount, swapped) ← pool.swap tradePairID
        maxAmountTakerIn maxAmountMakerOut
      pure (inAmount, outAmount, poolLiquidity tradePairID swapped)
  | limitOrderTranche tranche => do
      let (inAmount, outAmount, swapped) ← tranche.swap
        maxAmountTakerIn maxAmountMakerOut
      pure (inAmount, outAmount, limitOrderTranche swapped)

def save : Liquidity → List BookWrite
  | poolLiquidity _ pool => updatePool pool
  | limitOrderTranche tranche => updateTranche tranche

end Liquidity

/-- The other side of a stored pool side, rebuilt empty if it is not stored. -/
def getCounterpart (book : OrderBook) (poolReserves : PoolReserves) :
    Outcome PoolReserves :=
  match book.getPoolReserves poolReserves.key.counterpart with
  | some counterpartReserves => pure counterpartReserves
  | none => newPoolReservesFromCounterpart poolReserves

/-- `WrapTickLiquidity`: a pool side is joined with its counterpart, an expired
tranche is skipped. -/
def wrapTickLiquidity (book : OrderBook) (blockTime : Time)
    (tradePairID : TradePairID) : TickLiquidity → Outcome (Option Liquidity)
  | .poolReserves poolReserves => do
      let counterpartReserves ← getCounterpart book poolReserves
      let pool : Pool :=
        if tradePairID.IsTakerDenomToken0 then
          { lowerTick0 := counterpartReserves, upperTick1 := poolReserves, id := 0 }
        else
          { lowerTick0 := poolReserves, upperTick1 := counterpartReserves, id := 0 }
      pure (some (.poolLiquidity tradePairID pool))
  | .limitOrderTranche tranche =>
      if tranche.IsExpired blockTime then
        pure none
      else
        pure (some (.limitOrderTranche tranche))

/-- The variables of the loop in `Swap`, with the writes made so far. -/
structure SwapState where
  writes : List BookWrite
  remainingTakerDenom : PrecDec
  remainingMakerDenom : Option PrecDec
  totalMakerDenom : PrecDec
  orderFilled : Bool

/-- One turn of the loop in `Swap`. -/
def swapStep (liquidity : Liquidity) (state : SwapState) : Outcome SwapState := do
  let (inAmount, outAmount, swapped) ← liquidity.swap state.remainingTakerDenom
    state.remainingMakerDenom
  let remainingTakerDenom := state.remainingTakerDenom - inAmount
  let next : SwapState := { state with
    writes := state.writes ++ swapped.save
    remainingTakerDenom := remainingTakerDenom
    totalMakerDenom := state.totalMakerDenom + outAmount }
  let affordable ← remainingTakerDenom.quo liquidity.price
  if affordable < onePrecDec then
    pure { next with orderFilled := true }
  else
    match state.remainingMakerDenom with
    | none => pure next
    | some remaining =>
        let remainingMakerDenom := remaining - outAmount
        pure { next with
          remainingMakerDenom := some remainingMakerDenom
          orderFilled := decide (¬ remainingMakerDenom.IsPositive) }

def PastLimit (limitPrice : Option PrecDec) (price : PrecDec) : Prop :=
  match limitPrice with
  | none => False
  | some limit => limit < price

instance (limitPrice : Option PrecDec) (price : PrecDec) :
    Decidable (PastLimit limitPrice price) :=
  match limitPrice with
  | none => inferInstanceAs (Decidable False)
  | some limit => inferInstanceAs (Decidable (limit < price))

/-- The loop in `Swap` over the ticks the iterator has not visited yet.  The
counterparts of pools are read from the store as written so far. -/
def swapLoop (book : OrderBook) (blockTime : Time) (tradePairID : TradePairID)
    (limitPrice : Option PrecDec) : List TickLiquidity → SwapState → Outcome SwapState
  | [], state => pure state
  | tick :: rest, state =>
      if ¬ tick.HasToken then
        swapLoop book blockTime tradePairID limitPrice rest state
      else do
        let wrapped ← wrapTickLiquidity (book.writeAll state.writes) blockTime
          tradePairID tick
        match wrapped with
        | none => swapLoop book blockTime tradePairID limitPrice rest state
        | some liquidity =>
            if PastLimit limitPrice liquidity.price then
              pure state
            else do
              let next ← swapStep liquidity state
              if next.orderFilled then
                pure next
              else
                swapLoop book blockTime tradePairID limitPrice rest next

structure SwapResult where
  writes : List BookWrite
  totalTakerCoin : PrecDecCoin
  totalMakerCoin : PrecDecCoin
  orderFilled : Bool

def swap (book : OrderBook) (blockTime : Time) (tradePairID : TradePairID)
    (maxAmountTakerDenom : PrecDec) (maxAmountMakerDenom : Option Int)
    (limitPrice : Option PrecDec) : Outcome SwapResult := do
  let final ← swapLoop book blockTime tradePairID limitPrice (book.ticks tradePairID) {
    writes := []
    remainingTakerDenom := maxAmountTakerDenom
    remainingMakerDenom := maxAmountMakerDenom.map newPrecDecFromInt
    totalMakerDenom := zeroPrecDec
    orderFilled := false }
  let totalTakerCoin ← newPrecDecCoin tradePairID.takerDenom
    (maxAmountTakerDenom - final.remainingTakerDenom)
  let totalMakerCoin ← newPrecDecCoin tradePairID.makerDenom final.totalMakerDenom
  pure {
    writes := final.writes
    totalTakerCoin := totalTakerCoin
    totalMakerCoin := totalMakerCoin
    orderFilled := final.orderFilled }

/-- `TakerLimitOrderSwap`; the cache `SwapWithCache` runs in is always written. -/
def takerLimitOrderSwap (book : OrderBook) (blockTime : Time)
    (tradePairID : TradePairID) (amountIn : PrecDec) (maxAmountOut : Option Int)
    (limitPrice minAvgSellPrice : PrecDec) (orderType : LimitOrderType) :
    Outcome SwapResult := do
  let result ← swap book blockTime tradePairID amountIn maxAmountOut (some limitPrice)
  if orderType.IsFoK ∧ ¬ result.orderFilled then
    fail .foKLimitOrderNotFilled
  else if result.totalTakerCoin.amount.IsZero then
    fail .noLiquidity
  else do
    let truePrice ← result.totalMakerCoin.amount.quo result.totalTakerCoin.amount
    if truePrice < minAvgSellPrice then
      fail .limitPriceNotSatisfied
    else if result.totalMakerCoin.amount.IsZero then
      fail .tradeTooSmall
    else
      pure result

def makerLimitOrderSwap (book : OrderBook) (blockTime : Time)
    (tradePairID : TradePairID) (amountIn limitPrice minAvgSellPrice : PrecDec) :
    Outcome SwapResult := do
  let result ← swap book blockTime tradePairID amountIn none (some limitPrice)
  if result.totalTakerCoin.amount.IsPositive then do
    let remainingIn := amountIn - result.totalTakerCoin.amount
    let expectedOutMakerPortion ← remainingIn.quo limitPrice
    let totalExpectedOut := expectedOutMakerPortion + result.totalMakerCoin.amount
    let truePrice ← totalExpectedOut.quo amountIn
    if truePrice < minAvgSellPrice then
      fail .limitPriceNotSatisfied
    else
      pure result
  else
    pure result

/-- `GetCurrLiq`: the best offer that has tokens and is not expired. -/
def getCurrLiq (book : OrderBook) (blockTime : Time) (tradePairID : TradePairID) :
    Option TickLiquidity :=
  (book.ticks tradePairID).find? fun tick =>
    decide (tick.HasToken ∧ ¬ tick.IsExpired blockTime)

def getCurrPrice (book : OrderBook) (blockTime : Time) (tradePairID : TradePairID) :
    Option PrecDec :=
  (getCurrLiq book blockTime tradePairID).map TickLiquidity.price

def getCurrTickIndexTakerToMaker (book : OrderBook) (blockTime : Time)
    (tradePairID : TradePairID) : Option Int :=
  (getCurrLiq book blockTime tradePairID).map TickLiquidity.tickIndex

def IsBehindEnemyLines (book : OrderBook) (blockTime : Time)
    (tradePairID : TradePairID) (tickIndex : Int) : Prop :=
  match getCurrTickIndexTakerToMaker book blockTime tradePairID.reversed with
  | none => False
  | some oppositeTick => oppositeTick < tickIndex * -1

instance (book : OrderBook) (blockTime : Time) (tradePairID : TradePairID)
    (tickIndex : Int) :
    Decidable (IsBehindEnemyLines book blockTime tradePairID tickIndex) :=
  match found : getCurrTickIndexTakerToMaker book blockTime tradePairID.reversed with
  | none => isFalse (by simp [IsBehindEnemyLines, found])
  | some oppositeTick =>
      decidable_of_iff (oppositeTick < tickIndex * -1)
        (by simp [IsBehindEnemyLines, found])

def IsPoolBehindEnemyLines (book : OrderBook) (blockTime : Time) (pairID : PairID)
    (tickIndex : Int) (fee : Nat) (amount0 amount1 : PrecDec) : Prop :=
  (amount0.IsPositive ∧ IsBehindEnemyLines book blockTime
    (newTradePairIDFromMaker pairID pairID.token0) (tickIndex * -1 + fee)) ∨
  (amount1.IsPositive ∧ IsBehindEnemyLines book blockTime
    (newTradePairIDFromMaker pairID pairID.token1) (tickIndex + fee))

instance (book : OrderBook) (blockTime : Time) (pairID : PairID) (tickIndex : Int)
    (fee : Nat) (amount0 amount1 : PrecDec) :
    Decidable (IsPoolBehindEnemyLines book blockTime pairID tickIndex fee
      amount0 amount1) :=
  inferInstanceAs (Decidable (_ ∨ _))

end Neutron.Dex
