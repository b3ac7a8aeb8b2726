import Neutron.Dex.Messages

namespace Neutron.Dex

open Library PrecDec

/-! The message server (`x/dex/keeper/msg_server.go`). -/

structure MsgDepositResponse where
  reserve0Deposited : List Int
  reserve1Deposited : List Int
  decReserve0Deposited : List PrecDec
  decReserve1Deposited : List PrecDec
  failedDeposits : List FailedDeposit
  sharesIssued : Coins

structure MsgWithdrawalResponse where
  reserve0Withdrawn : Int
  reserve1Withdrawn : Int
  decReserve0Withdrawn : PrecDec
  decReserve1Withdrawn : PrecDec
  sharesBurned : Coins

structure MsgPlaceLimitOrderResponse where
  trancheKey : String
  coinIn : Coin
  takerCoinOut : Coin
  takerCoinIn : Coin
  decTakerCoinOut : PrecDecCoin
  decTakerCoinIn : PrecDecCoin

/-- The response to a cancellation and to the withdrawal of a filled order. -/
structure MsgTrancheResponse where
  takerCoinOut : Coin
  makerCoinOut : Coin
  decTakerCoinOut : PrecDecCoin
  decMakerCoinOut : PrecDecCoin

structure MsgMultiHopSwapResponse where
  coinOut : Coin
  route : List String
  dust : List Coin
  decCoinOut : PrecDecCoin
  decDust : PrecDecCoins

def sortAmounts (tokenA token0 : String) (amountsA amountsB : List Int) :
    List Int × List Int :=
  if tokenA = token0 then (amountsA, amountsB) else (amountsB, amountsA)

def normalizeAllTickIndexes (takerDenom token0 : String) (tickIndexes : List Int) :
    List Int :=
  if takerDenom ≠ token0 then tickIndexes.map (· * -1) else tickIndexes

namespace MsgServer

variable (world : World)

def assertNotPaused : Outcome Unit :=
  ensure (world.dex.params.paused = false) .dexPaused

def assertNotWithdrawOnly : Outcome Unit :=
  ensure (world.dex.params.withdrawOnly = false) .dexWithdrawOnly

def depositLegs (msg : MsgDeposit) (pairID : PairID) : List DepositLeg :=
  let amounts := sortAmounts msg.tokenA pairID.token0 msg.amountsA msg.amountsB
  let tickIndexes := normalizeAllTickIndexes msg.tokenA pairID.token0
    msg.tickIndexesAToB
  zipDeposits amounts.1 amounts.2 tickIndexes msg.fees msg.options

def deposit (msg : MsgDeposit) : Outcome (MsgDepositResponse × World) := do
  wrapError "failed to validate MsgDeposit" msg.validate
  assertNotPaused world
  assertNotWithdrawOnly world
  let pairID ← newPairID msg.tokenA msg.tokenB
  let (output, final) ← depositCore world pairID msg.creator.address msg.receiver
    (depositLegs msg pairID)
  pure ({
    reserve0Deposited := output.amounts0Deposited.map fun amount =>
      amount.ceil.truncateInt
    reserve1Deposited := output.amounts1Deposited.map fun amount =>
      amount.ceil.truncateInt
    decReserve0Deposited := output.amounts0Deposited
    decReserve1Deposited := output.amounts1Deposited
    failedDeposits := output.failedDeposits
    sharesIssued := output.sharesIssued }, final)

def withdrawalResponse (output : WithdrawOutput) : MsgWithdrawalResponse where
  reserve0Withdrawn := output.reserves0Removed.truncateInt
  reserve1Withdrawn := output.reserves1Removed.truncateInt
  decReserve0Withdrawn := output.reserves0Removed
  decReserve1Withdrawn := output.reserves1Removed
  sharesBurned := output.sharesBurned

def withdrawal (msg : MsgWithdrawal) : Outcome (MsgWithdrawalResponse × World) := do
  wrapError "failed to validate MsgWithdrawal" msg.validate
  assertNotPaused world
  let pairID ← newPairID msg.tokenA msg.tokenB
  let tickIndexes := normalizeAllTickIndexes msg.tokenA pairID.token0
    msg.tickIndexesAToB
  let (output, final) ← withdrawCore world pairID msg.creator.address msg.receiver
    msg.sharesToRemove (tickIndexes.zip msg.fees)
  pure (withdrawalResponse output, final)

def withdrawalWithShares (msg : MsgWithdrawalWithShares) :
    Outcome (MsgWithdrawalResponse × World) := do
  wrapError "failed to validate MsgWithdrawalWithShares" msg.validate
  assertNotPaused world
  let (output, final) ← withdrawWithSharesCore world msg.creator.address msg.receiver
    msg.sharesToRemove
  pure (withdrawalResponse output, final)

def placeLimitOrder (msg : MsgPlaceLimitOrder) :
    Outcome (MsgPlaceLimitOrderResponse × World) := do
  wrapError "failed to validate MsgPlaceLimitOrder" msg.validate
  assertNotPaused world
  assertNotWithdrawOnly world
  msg.validateGoodTilExpiration world.blockTime
  let tickIndex ← msg.tickIndex
  let (output, final) ← placeLimitOrderCore world msg.tokenIn msg.tokenOut
    msg.amountIn tickIndex msg.orderType (msg.expirationTime.map Timestamp.time)
    msg.maxAmountOut msg.minAverageSellPrice msg.creator.address msg.receiver
  match output.totalInCoin with
  | none =>
      -- `CeilToCoin` of an unset amount
      abort .nilAmount
  | some coinIn =>
      pure ({
        trancheKey := output.trancheKey
        coinIn := coinIn.ceilToCoin
        takerCoinOut := output.swapOutCoin.truncateToCoin
        takerCoinIn := output.swapInCoin.ceilToCoin
        decTakerCoinOut := output.swapOutCoin
        decTakerCoinIn := coinIn }, final)

def trancheResponse (coins : LimitOrderCoins) : MsgTrancheResponse where
  takerCoinOut := coins.takerCoinOut.truncateToCoin
  makerCoinOut := coins.makerCoinOut.truncateToCoin
  decTakerCoinOut := coins.takerCoinOut
  decMakerCoinOut := coins.makerCoinOut

def withdrawFilledLimitOrder (msg : MsgTranche) :
    Outcome (MsgTrancheResponse × World) := do
  assertNotPaused world
  let (coins, final) ← withdrawFilledLimitOrderCore world msg.trancheKey
    msg.creator.address
  pure (trancheResponse coins, final)

def cancelLimitOrder (msg : MsgTranche) : Outcome (MsgTrancheResponse × World) := do
  assertNotPaused world
  let (coins, final) ← cancelLimitOrderCore world msg.trancheKey msg.creator.address
  pure (trancheResponse coins, final)

def multiHopSwap (msg : MsgMultiHopSwap) :
    Outcome (MsgMultiHopSwapResponse × World) := do
  wrapError "failed to validate MsgMultiHopSwap" msg.validate
  assertNotPaused world
  assertNotWithdrawOnly world
  let (output, final) ← multiHopSwapCore world msg.amountIn msg.routes
    msg.exitLimitPrice msg.pickBestRoute msg.creator.address msg.receiver
  pure ({
    coinOut := output.coinOut.truncateToCoin
    route := output.route
    dust := output.dust.truncateToCoins
    decCoinOut := output.coinOut
    decDust := output.dust }, final)

def updateParams (msg : MsgUpdateParams) : Outcome World := do
  wrapError "failed to validate MsgUpdateParams" msg.params.validate
  ensure (world.authority = msg.authority) .invalidAuthority
  pure { world with dex := { world.dex with params := msg.params } }

end MsgServer

inductive Msg where
  | deposit (msg : MsgDeposit)
  | withdrawal (msg : MsgWithdrawal)
  | withdrawalWithShares (msg : MsgWithdrawalWithShares)
  | placeLimitOrder (msg : MsgPlaceLimitOrder)
  | withdrawFilledLimitOrder (msg : MsgTranche)
  | cancelLimitOrder (msg : MsgTranche)
  | multiHopSwap (msg : MsgMultiHopSwap)
  | updateParams (msg : MsgUpdateParams)

def deliver (world : World) : Msg → Outcome World
  | .deposit msg => Prod.snd <$> MsgServer.deposit world msg
  | .withdrawal msg => Prod.snd <$> MsgServer.withdrawal world msg
  | .withdrawalWithShares msg => Prod.snd <$> MsgServer.withdrawalWithShares world msg
  | .placeLimitOrder msg => Prod.snd <$> MsgServer.placeLimitOrder world msg
  | .withdrawFilledLimitOrder msg =>
      Prod.snd <$> MsgServer.withdrawFilledLimitOrder world msg
  | .cancelLimitOrder msg => Prod.snd <$> MsgServer.cancelLimitOrder world msg
  | .multiHopSwap msg => Prod.snd <$> MsgServer.multiHopSwap world msg
  | .updateParams msg => MsgServer.updateParams world msg

/-- What happens to the module: a message, a purge of expired orders under any
gas metering, or the next block, which empties the transient store. -/
inductive Action where
  | message (msg : Msg)
  | purge (curTime : Time) (gasAtStart : Nat) (gasConsumed : Nat → Nat)
  | nextBlock (blockTime : Time)

/-- A message that fails or panics leaves the world unchanged. -/
def step (world : World) : Action → World
  | .message msg => (deliver world msg).toOption.getD world
  | .purge curTime gasAtStart gasConsumed =>
      { world with
        dex := purgeExpiredLimitOrders world.dex curTime gasAtStart gasConsumed }
  | .nextBlock blockTime =>
      { world with blockTime := blockTime, dex := { world.dex with jitsInBlock := 0 } }

/-- Where runs start: the module is empty, the bank is not. -/
def World.initial (params : Params) (bank : Bank) (blockTime : Time)
    (authority : String) : World :=
  ⟨DexState.empty params, bank, blockTime, authority⟩

def alice : Signer := ⟨"alice", by decide⟩

def tenEach : Bank where
  balance address _ := if address = "alice" then 10 else 0
  supply _ := 10
  blockedAddr address := address = moduleName
  moduleBlocked := moduleName_blocked

def openWorld : World := World.initial defaultParams tenEach 5 "gov"

def twoDenoms : Bank where
  balance address denom :=
    if address = "alice" ∧ (denom = "uatom" ∨ denom = "untrn") then 10 else 0
  supply denom := if denom = "uatom" ∨ denom = "untrn" then 10 else 0
  blockedAddr address := address = moduleName
  moduleBlocked := moduleName_blocked

def evenDeposit : MsgDeposit :=
  ⟨alice, "alice", "uatom", "untrn", [4], [4], [0], [1], [none]⟩

end Neutron.Dex
