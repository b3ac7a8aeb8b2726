import Neutron.Dex.FractionalBanker
import Neutron.Dex.Swap

namespace Neutron.Dex

open Library PrecDec

/-! Limit orders: placing, withdrawing what was filled, cancelling
(`x/dex/keeper/place_limit_order.go`, `withdraw_filled_limit_order.go`,
`cancel_limit_order.go`, `limit_order_tranche.go`). -/

/-- Tranches resting at one tick, in the order of their tranche keys. -/
def OrderBook.tranchesAt (book : OrderBook) (tradePairID : TradePairID)
    (tickIndexTakerToMaker : Int) : List LimitOrderTranche :=
  let within : TickLiquidityKey → Bool
    | .poolReserves _ => false
    | .limitOrderTranche key => decide (key.tradePairID = tradePairID ∧
        key.tickIndexTakerToMaker = tickIndexTakerToMaker)
  (book.tickLiquidity.iterate within).filterMap fun tick =>
    match tick with
    | .poolReserves _ => none
    | .limitOrderTranche tranche => some tranche

/-- `GetGTCPlaceTranche`: the first tranche that has not been traded through and
does not expire. -/
def getGTCPlaceTranche (book : OrderBook) (tradePairID : TradePairID)
    (tickIndexTakerToMaker : Int) : Option LimitOrderTranche :=
  (book.tranchesAt tradePairID tickIndexTakerToMaker).find? fun tranche =>
    decide (tranche.IsPlaceTranche ∧ ¬ tranche.HasExpiration)

/-- `NewTrancheKey` and the tranche created under it. -/
def initPlaceTranche (dex : DexState) (tradePairID : TradePairID)
    (tickIndexTakerToMaker : Int) (goodTil : Option Time) :
    Outcome (LimitOrderTranche × DexState) := do
  let trancheKey := trancheKeyText dex.trancheCount
  let tranche ← newLimitOrderTranche
    ⟨tradePairID, tickIndexTakerToMaker, trancheKey⟩ goodTil
  pure (tranche, { dex with trancheCount := dex.trancheCount + 1 })

def getOrInitPlaceTranche (dex : DexState) (tradePairID : TradePairID)
    (tickIndexTakerToMaker : Int) (goodTil : Option Time)
    (orderType : LimitOrderType) : Outcome (LimitOrderTranche × DexState) :=
  match orderType with
  | .justInTime =>
      initPlaceTranche dex tradePairID tickIndexTakerToMaker (some jitGoodTilTime)
  | .goodTilTime => initPlaceTranche dex tradePairID tickIndexTakerToMaker goodTil
  | _ =>
      match getGTCPlaceTranche dex.book tradePairID tickIndexTakerToMaker with
      | some tranche => pure (tranche, dex)
      | none => initPlaceTranche dex tradePairID tickIndexTakerToMaker none

def getOrInitLimitOrderTrancheUser (dex : DexState) (tradePairID : TradePairID)
    (tickIndex : Int) (trancheKey : String) (orderType : LimitOrderType)
    (receiver : String) : Outcome LimitOrderTrancheUser :=
  match dex.getLimitOrderTrancheUser receiver trancheKey with
  | some userShareData =>
      if userShareData.tradePairID = tradePairID ∧
          userShareData.tickIndexTakerToMaker = tickIndex then
        pure userShareData
      else
        fail .duplicateTrancheKey
  | none =>
      pure {
        tradePairID := tradePairID
        tickIndexTakerToMaker := tickIndex
        trancheKey := trancheKey
        address := receiver
        sharesOwned := 0
        decSharesWithdrawn := zeroPrecDec
        orderType := orderType }

def recordExpiration (dex : DexState) (orderType : LimitOrderType)
    (tranche : LimitOrderTranche) : Outcome DexState :=
  if orderType.HasExpiration then do
    let goodTilRecord ← newLimitOrderExpiration tranche
    pure (dex.setLimitOrderExpiration goodTilRecord)
  else
    pure dex

def Rests (orderType : LimitOrderType) (amountLeft : PrecDec) (orderFilled : Bool) :
    Prop :=
  0 < amountLeft.truncateInt ∧ ¬ orderFilled ∧
    (orderType.IsGTC ∨ orderType.IsJIT ∨ orderType.IsGoodTil)

instance (orderType : LimitOrderType) (amountLeft : PrecDec) (orderFilled : Bool) :
    Decidable (Rests orderType amountLeft orderFilled) :=
  inferInstanceAs (Decidable (_ ∧ _))

structure PlacedMakerOrder where
  dex : DexState
  trancheUser : LimitOrderTrancheUser
  sharesIssued : Int

/-- The maker part of `ExecutePlaceLimitOrder`. -/
def placeMakerOrder (dex : DexState) (orderType : LimitOrderType)
    (placeTranche : LimitOrderTranche) (trancheUser : LimitOrderTrancheUser)
    (amountLeft : PrecDec) (orderFilled : Bool) : Outcome PlacedMakerOrder :=
  if Rests orderType amountLeft orderFilled then do
    let amountToPlace := amountLeft.truncateInt
    let placed ← placeTranche.placeMakerLimitOrder amountToPlace
    let recorded ← recordExpiration dex orderType placed
    pure {
      dex := recorded.updateBook (updateTranche placed)
      trancheUser := { trancheUser with
        sharesOwned := trancheUser.sharesOwned + amountToPlace }
      sharesIssued := amountToPlace }
  else
    pure { dex := dex, trancheUser := trancheUser, sharesIssued := 0 }

def countJIT (dex : DexState) (orderType : LimitOrderType) : Outcome DexState :=
  if orderType.IsJIT then
    if dex.jitsInBlock = dex.params.maxJitsPerBlock then
      fail .overJITPerBlockLimit
    else
      pure { dex with jitsInBlock := dex.jitsInBlock + 1 }
  else
    pure dex

/-- The taker part of `ExecutePlaceLimitOrder`: what was swapped, and whether
the order counts as filled when its rest is considered for the book. -/
def limitOrderSwap (book : OrderBook) (blockTime : Time)
    (takerTradePairID : TradePairID) (amountLeft : PrecDec)
    (maxAmountOut : Option Int) (limitBuyPrice minAvgSellPrice : PrecDec)
    (orderType : LimitOrderType) : Outcome (SwapResult × Bool) :=
  if orderType.IsTakerOnly then do
    let result ← takerLimitOrderSwap book blockTime takerTradePairID amountLeft
      maxAmountOut limitBuyPrice minAvgSellPrice orderType
    pure (result, false)
  else do
    let result ← makerLimitOrderSwap book blockTime takerTradePairID amountLeft
      limitBuyPrice minAvgSellPrice
    pure (result, result.orderFilled)

structure ExecutedLimitOrder where
  trancheKey : String
  totalIn : PrecDec
  swapInCoin : PrecDecCoin
  swapOutCoin : PrecDecCoin
  sharesIssued : Int
  minAvgSellPrice : PrecDec
  dex : DexState

def executePlaceLimitOrder (dex : DexState) (blockTime : Time)
    (takerTradePairID : TradePairID) (amountIn tickIndexInToOut : Int)
    (orderType : LimitOrderType) (goodTil : Option Time) (maxAmountOut : Option Int)
    (minAvgSellPriceP : Option PrecDec) (receiverAddr : String) :
    Outcome ExecutedLimitOrder := do
  let limitBuyPrice ← calcPrice tickIndexInToOut
  let limitSellPrice ← onePrecDec.quo limitBuyPrice
  let minAvgSellPrice := minAvgSellPriceP.getD limitSellPrice
  let (swapped, orderFilled) ← limitOrderSwap dex.book blockTime takerTradePairID
    (newPrecDecFromInt amountIn) maxAmountOut limitBuyPrice minAvgSellPrice orderType
  let amountLeft := newPrecDecFromInt amountIn - swapped.totalTakerCoin.amount
  let makerTradePairID := takerTradePairID.reversed
  let tickIndexTakerToMaker := tickIndexInToOut * -1
  let (placeTranche, counted) ← getOrInitPlaceTranche
    (dex.updateBook swapped.writes) makerTradePairID tickIndexTakerToMaker goodTil
    orderType
  let trancheUser ← getOrInitLimitOrderTrancheUser counted makerTradePairID
    tickIndexTakerToMaker placeTranche.key.trancheKey orderType receiverAddr
  let placed ← placeMakerOrder counted orderType placeTranche trancheUser amountLeft
    orderFilled
  let final ← countJIT (placed.dex.updateTrancheUser placed.trancheUser) orderType
  pure {
    trancheKey := placeTranche.key.trancheKey
    totalIn := swapped.totalTakerCoin.amount + newPrecDecFromInt placed.sharesIssued
    swapInCoin := swapped.totalTakerCoin
    swapOutCoin := swapped.totalMakerCoin
    sharesIssued := placed.sharesIssued
    minAvgSellPrice := minAvgSellPrice
    dex := final }

def payTakerOut (world : World) (receiverAddr : String) (swapOutCoin : PrecDecCoin) :
    Outcome World :=
  if swapOutCoin.amount.IsPositive then
    sendFractionalCoinsFromDexToAccount world receiverAddr
      (PrecDecCoins.single swapOutCoin)
  else
    pure world

/-- `totalInCoin` stays unset when nothing is charged. -/
structure PlaceLimitOrderOutput where
  trancheKey : String
  totalInCoin : Option PrecDecCoin
  swapInCoin : PrecDecCoin
  swapOutCoin : PrecDecCoin

def placeLimitOrderCore (world : World) (tokenIn tokenOut : String)
    (amountIn tickIndexInToOut : Int) (orderType : LimitOrderType)
    (goodTil : Option Time) (maxAmountOut : Option Int)
    (minAvgSellPriceP : Option PrecDec) (callerAddr receiverAddr : String) :
    Outcome (PlaceLimitOrderOutput × World) := do
  let takerTradePairID ← newTradePairID tokenIn tokenOut
  let executed ← executePlaceLimitOrder world.dex world.blockTime takerTradePairID
    amountIn tickIndexInToOut orderType goodTil maxAmountOut minAvgSellPriceP
    receiverAddr
  let world := { world with dex := executed.dex }
  let paidOut ← payTakerOut world receiverAddr executed.swapOutCoin
  if executed.totalIn.IsPositive then do
    let totalInCoin ← newPrecDecCoin tokenIn executed.totalIn
    let paidIn ← sendFractionalCoinsFromAccountToDex paidOut callerAddr
      (PrecDecCoins.single totalInCoin)
    pure (⟨executed.trancheKey, some totalInCoin, executed.swapInCoin,
      executed.swapOutCoin⟩, paidIn)
  else
    pure (⟨executed.trancheKey, none, executed.swapInCoin, executed.swapOutCoin⟩,
      paidOut)

structure LimitOrderCoins where
  makerCoinOut : PrecDecCoin
  takerCoinOut : PrecDecCoin

/-- The tranche side of `ExecuteCancelLimitOrder`: amounts returned and the
tranche without the user's shares. -/
def cancelInTranche (tranche : LimitOrderTranche)
    (trancheUser : LimitOrderTrancheUser) :
    Outcome (PrecDec × PrecDec × LimitOrderTranche) := do
  let (makerAmountToReturn, removed) ← tranche.removeTokenIn trancheUser
  let (_, takerAmountOut, withdrawn) ← removed.withdraw trancheUser
  let unshared := { withdrawn with
    totalMakerDenom := withdrawn.totalMakerDenom - trancheUser.sharesOwned }
  let sharesWithdrawnTakerDenom :=
    trancheUser.decSharesWithdrawn.mul unshared.makerPrice
  let totalAmountOutTakerDenom := sharesWithdrawnTakerDenom + takerAmountOut
  let final ← unshared.setTotalTakerDenom
    (unshared.decTotalTakerDenom - totalAmountOutTakerDenom)
  pure (makerAmountToReturn, takerAmountOut, final)

/-- A tranche that left the book no longer expires. -/
def dropExpiration (dex : DexState) (tranche : LimitOrderTranche) : DexState :=
  match tranche.expirationTime with
  | none => dex
  | some expirationTime =>
      if tranche.HasTokenIn then
        dex
      else
        dex.removeLimitOrderExpiration expirationTime tranche.key

def executeCancelLimitOrder (dex : DexState) (trancheKey callerAddr : String) :
    Outcome (LimitOrderCoins × DexState) :=
  match dex.getLimitOrderTrancheUser callerAddr trancheKey with
  | none => fail (.validLimitOrderTrancheNotFound trancheKey)
  | some trancheUser =>
      match dex.book.findLimitOrderTranche ⟨trancheUser.tradePairID,
          trancheUser.tickIndexTakerToMaker, trancheKey⟩ with
      | none => fail (.validLimitOrderTrancheNotFound trancheKey)
      | some (tranche, wasFilled) => do
          let (makerAmountToReturn, takerAmountOut, cancelled) ←
            cancelInTranche tranche trancheUser
          if ¬ makerAmountToReturn.IsPositive ∧ ¬ takerAmountOut.IsPositive then
            fail (.cancelEmptyLimitOrder cancelled.key.trancheKey)
          else
            let exited := { trancheUser with
              decSharesWithdrawn := newPrecDecFromInt trancheUser.sharesOwned }
            let writes :=
              if wasFilled then updateInactiveTranche cancelled
              else updateTranche cancelled
            let updated := (dex.updateTrancheUser exited).updateBook writes
            pure (⟨⟨trancheUser.tradePairID.makerDenom, makerAmountToReturn⟩,
              ⟨trancheUser.tradePairID.takerDenom, takerAmountOut⟩⟩,
              dropExpiration updated cancelled)

def cancelLimitOrderCore (world : World) (trancheKey callerAddr : String) :
    Outcome (LimitOrderCoins × World) := do
  let (coins, dex) ← executeCancelLimitOrder world.dex trancheKey callerAddr
  let coinsOut ← newPrecDecCoins [coins.makerCoinOut, coins.takerCoinOut]
  let paid ← sendFractionalCoinsFromDexToAccount { world with dex := dex } callerAddr
    coinsOut
  pure (coins, paid)

/-- What `ExecuteWithdrawFilledLimitOrder` does with a tranche that was found:
amounts out, the writes, and the user afterwards. -/
structure FilledWithdrawal where
  amountOutTokenOut : PrecDec
  remainingTokenIn : PrecDec
  writes : List BookWrite
  trancheUser : LimitOrderTrancheUser

def withdrawFromTranche (tranche : LimitOrderTranche) (wasFilled : Bool)
    (trancheUser : LimitOrderTrancheUser) : Outcome FilledWithdrawal := do
  let (amountOutTokenIn, amountOutTokenOut, withdrawn) ← tranche.withdraw trancheUser
  if wasFilled then do
    let (remainingTokenIn, removed) ← withdrawn.removeTokenIn trancheUser
    pure {
      amountOutTokenOut := amountOutTokenOut
      remainingTokenIn := remainingTokenIn
      writes := updateInactiveTranche removed
      trancheUser := { trancheUser with
        decSharesWithdrawn := newPrecDecFromInt trancheUser.sharesOwned } }
  else
    pure {
      amountOutTokenOut := amountOutTokenOut
      remainingTokenIn := zeroPrecDec
      writes := updateTranche withdrawn
      trancheUser := { trancheUser with
        decSharesWithdrawn := trancheUser.decSharesWithdrawn + amountOutTokenIn } }

/-- A tranche that cannot be found pays nothing. -/
def findWithdrawal (dex : DexState) (trancheKey : String)
    (trancheUser : LimitOrderTrancheUser) : Outcome FilledWithdrawal :=
  match dex.book.findLimitOrderTranche ⟨trancheUser.tradePairID,
      trancheUser.tickIndexTakerToMaker, trancheKey⟩ with
  | none => pure ⟨zeroPrecDec, zeroPrecDec, [], trancheUser⟩
  | some (tranche, wasFilled) => withdrawFromTranche tranche wasFilled trancheUser

def executeWithdrawFilledLimitOrder (dex : DexState) (trancheKey callerAddr : String) :
    Outcome (LimitOrderCoins × DexState) :=
  match dex.getLimitOrderTrancheUser callerAddr trancheKey with
  | none => fail (.validLimitOrderTrancheNotFound trancheKey)
  | some trancheUser => do
      let withdrawal ← findWithdrawal dex trancheKey trancheUser
      if ¬ withdrawal.amountOutTokenOut.IsPositive ∧
          ¬ withdrawal.remainingTokenIn.IsPositive then
        fail .withdrawEmptyLimitOrder
      else do
        let takerCoinOut ← newPrecDecCoin trancheUser.tradePairID.takerDenom
          withdrawal.amountOutTokenOut
        let makerCoinOut ← newPrecDecCoin trancheUser.tradePairID.makerDenom
          withdrawal.remainingTokenIn
        pure (⟨makerCoinOut, takerCoinOut⟩,
          (dex.updateBook withdrawal.writes).updateTrancheUser withdrawal.trancheUser)

def withdrawFilledLimitOrderCore (world : World) (trancheKey callerAddr : String) :
    Outcome (LimitOrderCoins × World) := do
  let (coins, dex) ← executeWithdrawFilledLimitOrder world.dex trancheKey callerAddr
  let coinsOut ← newPrecDecCoins [coins.takerCoinOut, coins.makerCoinOut]
  let paid ← sendFractionalCoinsFromDexToAccount { world with dex := dex } callerAddr
    coinsOut
  pure (coins, paid)

/-- The variables of the loop in `PurgeExpiredLimitOrders`. -/
structure PurgeState where
  dex : DexState
  inGoodTilSegment : Bool
  archivedTranches : List LimitOrderTrancheKey

/-- Archive the tranche of an expiration record, once, and drop the record. -/
def purgeRecord (state : PurgeState) (record : LimitOrderExpiration) : PurgeState :=
  let dropped (dex : DexState) : DexState :=
    { dex with expirations := dex.expirations.delete record.key }
  if record.trancheRef ∈ state.archivedTranches then
    { state with dex := dropped state.dex }
  else
    match state.dex.book.getLimitOrderTranche record.trancheRef with
    | none => { state with dex := dropped state.dex }
    | some tranche =>
        let archived := state.dex.updateBook [.setInactiveLimitOrderTranche tranche,
          .removeTickLiquidity (.limitOrderTranche tranche.key)]
        { state with
          dex := dropped archived
          archivedTranches := record.trancheRef :: state.archivedTranches }

/-- The loop over the expiration records in store order.  The gas consumed so
far is read before every record; nothing is assumed about it. -/
def purgeLoop (curTime : Time) (gasCutoff : Nat) (gasConsumed : Nat → Nat) :
    List LimitOrderExpiration → Nat → PurgeState → PurgeState
  | [], _, state => state
  | record :: rest, turn, state =>
      if curTime < record.expirationTime then
        state
      else
        let inGoodTilSegment :=
          state.inGoodTilSegment || decide (record.expirationTime ≠ jitGoodTilTime)
        let state := { state with inGoodTilSegment := inGoodTilSegment }
        if inGoodTilSegment ∧ gasCutoff ≤ gasConsumed turn then
          state
        else
          purgeLoop curTime gasCutoff gasConsumed rest (turn + 1)
            (purgeRecord state record)

def purgeExpiredLimitOrders (dex : DexState) (curTime : Time) (gasAtStart : Nat)
    (gasConsumed : Nat → Nat) : DexState :=
  let gasCutoff := (gasAtStart + dex.params.goodTilPurgeAllowance) % 2 ^ 64
  (purgeLoop curTime gasCutoff gasConsumed dex.expirations.values 0
    ⟨dex, false, []⟩).dex

end Neutron.Dex
