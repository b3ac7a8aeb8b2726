import Neutron.Dex.FractionalBanker
import Neutron.Dex.PoolKeeper
import Neutron.Dex.Swap

namespace Neutron.Dex

open Library PrecDec

/-! Deposits into pools (`x/dex/keeper/deposit.go`). -/

/-- `DepositOptions`; a missing message is all defaults. -/
structure DepositOptions where
  disableAutoswap : Bool := false
  failTxOnBel : Bool := false
  swapOnDeposit : Bool := false
  deriving DecidableEq, Repr

/-- One entry of the parallel lists of a deposit, sorted to the pair's tokens. -/
structure DepositLeg where
  amount0 : Int
  amount1 : Int
  tickIndex : Int
  fee : Nat
  options : DepositOptions

namespace PairID

def takerToken0 (pairID : PairID) : TradePairID :=
  ⟨pairID.token0, pairID.token1, pairID.token0_ne_token1⟩

def takerToken1 (pairID : PairID) : TradePairID :=
  ⟨pairID.token1, pairID.token0, pairID.token0_ne_token1.symm⟩

end PairID

structure SwapOnDepositResult where
  writes : List BookWrite
  inAmount0 : PrecDec
  inAmount1 : PrecDec
  depositAmount0 : PrecDec
  depositAmount1 : PrecDec

/-- What is charged for the side that is spent: all of it, unless the swap filled
the order with less. -/
def swapOnDepositInAmount (orderFilled : Bool) (swapAmountIn amount : PrecDec) :
    PrecDec :=
  if orderFilled then swapAmountIn else amount

/-- The first half of `SwapOnDeposit`: spend `token0` on `token1` offers that
the deposit would cross.  The flag is `swappedToken0`. -/
def swapOnDepositToken0 (book : OrderBook) (blockTime : Time) (pairID : PairID)
    (tickIndex : Int) (fee : Nat) (amount0 amount1 : PrecDec) :
    Outcome (SwapOnDepositResult × Bool) :=
  if amount0.IsPositive then do
    let depositTickToken0 := -tickIndex + fee
    let limitPrice0 ← mustCalcPrice (-depositTickToken0 - 1)
    let result ← swap book blockTime pairID.takerToken0 amount0 none (some limitPrice0)
    let swapAmountIn0 := result.totalTakerCoin.amount
    let swapAmountOut1 := result.totalMakerCoin.amount
    if swapAmountIn0.IsPositive then
      let inAmount0 := swapOnDepositInAmount result.orderFilled swapAmountIn0 amount0
      pure (⟨result.writes, inAmount0, amount1, inAmount0 - swapAmountIn0,
        amount1 + swapAmountOut1⟩, true)
    else
      pure (⟨result.writes, amount0, amount1, amount0, amount1⟩, false)
  else
    pure (⟨[], amount0, amount1, amount0, amount1⟩, false)

def swapOnDeposit (book : OrderBook) (blockTime : Time) (pairID : PairID)
    (tickIndex : Int) (fee : Nat) (amount0 amount1 : PrecDec) :
    Outcome SwapOnDepositResult := do
  let (first, swappedToken0) ← swapOnDepositToken0 book blockTime pairID tickIndex
    fee amount0 amount1
  if amount1.IsPositive then do
    let depositTickToken1 := tickIndex + fee
    let limitPrice1 ← mustCalcPrice (-depositTickToken1 - 1)
    let result ← swap (book.writeAll first.writes) blockTime pairID.takerToken1
      amount1 none (some limitPrice1)
    let swapAmountIn1 := result.totalTakerCoin.amount
    let swapAmountOut0 := result.totalMakerCoin.amount
    let writes := first.writes ++ result.writes
    if swapAmountIn1.IsPositive then
      if swappedToken0 then
        fail .doubleSidedSwapOnDeposit
      else
        let inAmount1 := swapOnDepositInAmount result.orderFilled swapAmountIn1
          first.inAmount1
        pure ⟨writes, amount0, inAmount1, amount0 + swapAmountOut0,
          inAmount1 - swapAmountIn1⟩
    else
      pure { first with writes := writes }
  else
    pure first

structure FailedDeposit where
  depositIdx : Nat
  error : DexError

/-- The variables of the loop in `ExecuteDeposit`. -/
structure DepositState where
  dex : DexState
  amounts0Deposited : List PrecDec
  amounts1Deposited : List PrecDec
  totalInAmount0 : PrecDec
  totalInAmount1 : PrecDec
  sharesIssued : List Coin
  failedDeposits : List FailedDeposit

def depositLegSwap (book : OrderBook) (blockTime : Time) (pairID : PairID)
    (leg : DepositLeg) : Outcome SwapOnDepositResult :=
  let amount0 := newPrecDecFromInt leg.amount0
  let amount1 := newPrecDecFromInt leg.amount1
  if leg.options.swapOnDeposit then
    swapOnDeposit book blockTime pairID leg.tickIndex leg.fee amount0 amount1
  else
    pure ⟨[], amount0, amount1, amount0, amount1⟩

/-- What a leg is charged for one token: with autoswap all that was offered, and
without it what the pool took. -/
def DepositOptions.charged (options : DepositOptions) (deposited offered : PrecDec) :
    PrecDec :=
  if options.disableAutoswap then deposited else offered

/-- The rest of a leg, once it is known not to cross the book. -/
def depositLegPool (supply : String → Nat) (pairID : PairID) (leg : DepositLeg)
    (swapped : SwapOnDepositResult) (state : DepositState) : Outcome DepositState := do
  let (pool, dex) ← state.dex.getOrInitPool pairID leg.tickIndex leg.fee
  let existingShares := supply pool.getPoolDenom
  let deposited ← pool.deposit swapped.depositAmount0 swapped.depositAmount1
    existingShares (¬ leg.options.disableAutoswap)
  let inAmount0 := leg.options.charged deposited.inAmount0 swapped.inAmount0
  let inAmount1 := leg.options.charged deposited.inAmount1 swapped.inAmount1
  if inAmount0.IsZero ∧ inAmount1.IsZero then
    fail .zeroTrueDeposit
  else if deposited.outShares.amount = 0 then
    fail .depositShareUnderflow
  else
    pure { state with
      dex := dex.updateBook (updatePool deposited.pool)
      amounts0Deposited := state.amounts0Deposited ++ [deposited.inAmount0]
      amounts1Deposited := state.amounts1Deposited ++ [deposited.inAmount1]
      totalInAmount0 := state.totalInAmount0 + inAmount0
      totalInAmount1 := state.totalInAmount1 + inAmount1
      sharesIssued := state.sharesIssued ++ [deposited.outShares] }

/-- One turn of the loop in `ExecuteDeposit`. -/
def depositLeg (supply : String → Nat) (blockTime : Time) (pairID : PairID)
    (isWhitelistedLP : Bool) (state : DepositState) (leg : DepositLeg) :
    Outcome DepositState := do
  ensure (isWhitelistedLP ∨ leg.fee ∈ state.dex.params.feeTiers)
    (.invalidFee state.dex.params.feeTiers)
  let swapped ← depositLegSwap state.dex.book blockTime pairID leg
  let state := { state with dex := state.dex.updateBook swapped.writes }
  if IsPoolBehindEnemyLines state.dex.book blockTime pairID leg.tickIndex leg.fee
      swapped.depositAmount0 swapped.depositAmount1 then
    let error := DexError.depositBehindEnemyLines leg.tickIndex leg.fee
    if leg.options.failTxOnBel ∨ leg.options.swapOnDeposit then
      fail error
    else
      pure { state with
        amounts0Deposited := state.amounts0Deposited ++ [zeroPrecDec]
        amounts1Deposited := state.amounts1Deposited ++ [zeroPrecDec]
        failedDeposits := state.failedDeposits ++
          [⟨state.amounts0Deposited.length, error⟩] }
  else
    depositLegPool supply pairID leg swapped state

/-- `ExecuteDeposit`; the shares are still to be sanitized and minted. -/
def executeDeposit (world : World) (pairID : PairID) (callerAddr : String)
    (legs : List DepositLeg) : Outcome DepositState :=
  let isWhitelistedLP := decide (callerAddr ∈ world.dex.params.whitelistedLps)
  legs.foldlM (depositLeg world.bank.supply world.blockTime pairID isWhitelistedLP) {
    dex := world.dex
    amounts0Deposited := []
    amounts1Deposited := []
    totalInAmount0 := zeroPrecDec
    totalInAmount1 := zeroPrecDec
    sharesIssued := []
    failedDeposits := [] }

def mintShares (bank : Bank) (address : String) (sharesCoins : Coins) :
    Outcome Bank := do
  let minted ← bank.mintCoins sharesCoins
  minted.sendCoinsFromModuleToAccount address sharesCoins

structure DepositOutput where
  amounts0Deposited : List PrecDec
  amounts1Deposited : List PrecDec
  sharesIssued : Coins
  failedDeposits : List FailedDeposit

def depositCore (world : World) (pairID : PairID) (callerAddr receiverAddr : String)
    (legs : List DepositLeg) : Outcome (DepositOutput × World) := do
  let executed ← executeDeposit world pairID callerAddr legs
  let sharesIssued := sanitizeCoins executed.sharesIssued
  let coin0 ← newPrecDecCoin pairID.token0 executed.totalInAmount0
  let coin1 ← newPrecDecCoin pairID.token1 executed.totalInAmount1
  let coinsToSend ← newPrecDecCoins [coin0, coin1]
  let deposited := { world with dex := executed.dex }
  let paid ← unlessEmpty coinsToSend deposited
    (sendFractionalCoinsFromAccountToDex deposited callerAddr coinsToSend)
  let bank ← mintShares paid.bank receiverAddr sharesIssued
  pure ({
    amounts0Deposited := executed.amounts0Deposited
    amounts1Deposited := executed.amounts1Deposited
    sharesIssued := sharesIssued
    failedDeposits := executed.failedDeposits }, { paid with bank := bank })

end Neutron.Dex
