import Neutron.Dex.FractionalBanker
import Neutron.Dex.PoolKeeper

namespace Neutron.Dex

open Library PrecDec

/-! Withdrawals from pools (`x/dex/keeper/withdraw.go`). -/

def poolDataToPools (dex : DexState) (pairID : PairID)
    (poolData : List (Int × Nat)) : Outcome (List Pool) :=
  poolData.mapM fun data => do
    match ← dex.getPool pairID data.1 data.2 with
    | some pool => pure pool
    | none => fail .poolNotFound

/-- One turn of the loop in `SharesToPools`: all pools must be of the pair of
the first one. -/
def shareToPool (dex : DexState) (poolsToRemoveFrom : List Pool) (share : Coin) :
    Outcome (List Pool) := do
  let poolID ← parsePoolIDFromDenom share.denom
  match ← dex.getPoolByID poolID with
  | none => fail .poolNotFound
  | some pool => do
      match poolsToRemoveFrom.head? with
      | none => pure [pool]
      | some first =>
          if pool.pairID = first.pairID then
            pure (poolsToRemoveFrom ++ [pool])
          else
            fail (.canOnlyWithdrawFromSamePair pool.id first.pairID.canonicalString)

def sharesToPools (dex : DexState) (sharesToRemove : List Coin) :
    Outcome (List Pool) :=
  sharesToRemove.foldlM (shareToPool dex) []

/-- The variables of the loop in `ExecuteWithdraw`. -/
structure WithdrawState where
  dex : DexState
  totalReserve0ToRemove : PrecDec
  totalReserve1ToRemove : PrecDec
  coinsToBurn : Coins

/-- One turn of the loop in `ExecuteWithdraw`. -/
def withdrawFromPool (bank : Bank) (callerAddr : String) (state : WithdrawState)
    (removal : Pool × Int) : Outcome WithdrawState := do
  let (pool, sharesToRemove) := removal
  let poolDenom := pool.getPoolDenom
  ensure (sharesToRemove ≤ bank.balance callerAddr poolDenom)
    (.insufficientShares callerAddr sharesToRemove poolDenom)
  let totalShares := bank.supply poolDenom
  let (outAmount0, outAmount1, withdrawn) ← pool.withdraw sharesToRemove totalShares
  let burned ← newCoin poolDenom sharesToRemove
  pure {
    dex := state.dex.updateBook (updatePool withdrawn)
    totalReserve0ToRemove := state.totalReserve0ToRemove + outAmount0
    totalReserve1ToRemove := state.totalReserve1ToRemove + outAmount1
    coinsToBurn := Tally.add state.coinsToBurn
      (SortedStore.empty.set burned.denom burned.amount) }

def executeWithdraw (world : World) (callerAddr : String)
    (removals : List (Pool × Int)) : Outcome WithdrawState :=
  removals.foldlM (withdrawFromPool world.bank callerAddr) {
    dex := world.dex
    totalReserve0ToRemove := zeroPrecDec
    totalReserve1ToRemove := zeroPrecDec
    coinsToBurn := SortedStore.empty }

def burnShares (bank : Bank) (address : String) (coins : Coins) : Outcome Bank := do
  let collected ← bank.sendCoinsFromAccountToModule address coins
  collected.burnCoins coins

structure WithdrawOutput where
  reserves0Removed : PrecDec
  reserves1Removed : PrecDec
  sharesBurned : Coins

def withdrawHandler (world : World) (callerAddr receiverAddr : String)
    (pairID : PairID) (removals : List (Pool × Int)) :
    Outcome (WithdrawOutput × World) := do
  let executed ← executeWithdraw world callerAddr removals
  let bank ← burnShares world.bank callerAddr executed.coinsToBurn
  let coin0 ← newPrecDecCoin pairID.token0 executed.totalReserve0ToRemove
  let coin1 ← newPrecDecCoin pairID.token1 executed.totalReserve1ToRemove
  let coinsToRemove ← newPrecDecCoins [coin0, coin1]
  let paid ← sendFractionalCoinsFromDexToAccount
    { world with dex := executed.dex, bank := bank } receiverAddr coinsToRemove
  pure ({
    reserves0Removed := executed.totalReserve0ToRemove
    reserves1Removed := executed.totalReserve1ToRemove
    sharesBurned := executed.coinsToBurn }, paid)

def withdrawCore (world : World) (pairID : PairID) (callerAddr receiverAddr : String)
    (sharesToRemoveList : List Int) (poolData : List (Int × Nat)) :
    Outcome (WithdrawOutput × World) := do
  let poolsToRemoveFrom ← poolDataToPools world.dex pairID poolData
  withdrawHandler world callerAddr receiverAddr pairID
    (poolsToRemoveFrom.zip sharesToRemoveList)

/-- `WithdrawWithSharesCore`; validated messages name at least one share. -/
def withdrawWithSharesCore (world : World) (callerAddr receiverAddr : String)
    (sharesToRemove : List Coin) : Outcome (WithdrawOutput × World) := do
  let poolsToRemoveFrom ← sharesToPools world.dex sharesToRemove
  match poolsToRemoveFrom.head? with
  | none => abort .indexOutOfRange
  | some first =>
      withdrawHandler world callerAddr receiverAddr first.pairID
        (poolsToRemoveFrom.zip (sharesToRemove.map Coin.amount))

end Neutron.Dex
