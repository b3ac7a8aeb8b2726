import Neutron.Dex.Bank
import Neutron.Dex.Price

namespace Neutron.Dex

open Library PrecDec

/-! Liquidity pools (`x/dex/types/pool.go`, `pool_reserves.go`). -/

/-- One side of a pool.  Only the decimal reserves are kept: the source derives
its deprecated integer and inverse-price fields from these. -/
structure PoolReserves where
  key : PoolReservesKey
  decReservesMakerDenom : PrecDec
  makerPrice : PrecDec
  deriving DecidableEq

namespace PoolReserves

def HasToken (reserves : PoolReserves) : Prop :=
  reserves.decReservesMakerDenom.IsPositive

instance (reserves : PoolReserves) : Decidable reserves.HasToken :=
  inferInstanceAs (Decidable (PrecDec.IsPositive _))

def setMakerReserves (reserves : PoolReserves) (amount : PrecDec) :
    Outcome PoolReserves :=
  amount.unlessNegative .reservesNegative
    { reserves with decReservesMakerDenom := amount }

end PoolReserves

/-- `NewPoolReserves`; the price of the other side is computed as well, so that
both ticks have to be in range. -/
def newPoolReserves (poolReservesID : PoolReservesKey) : Outcome PoolReserves := do
  let makerPrice ← calcPrice poolReservesID.tickIndexTakerToMaker
  let _ ← calcPrice (-poolReservesID.counterpart.tickIndexTakerToMaker)
  pure ⟨poolReservesID, zeroPrecDec, makerPrice⟩

def newPoolReservesFromCounterpart (counterpart : PoolReserves) :
    Outcome PoolReserves := do
  let thisID := counterpart.key.counterpart
  let makerPrice ← mustCalcPrice thisID.tickIndexTakerToMaker
  pure ⟨thisID, zeroPrecDec, makerPrice⟩

structure Pool where
  lowerTick0 : PoolReserves
  upperTick1 : PoolReserves
  id : Nat
  deriving DecidableEq

def upperTickKey (pairID : PairID) (centerTickIndexNormalized : Int) (fee : Nat) :
    PoolReservesKey where
  tradePairID := newTradePairIDFromMaker pairID pairID.token1
  tickIndexTakerToMaker := centerTickIndexNormalized + fee
  fee := fee

def newPool (pairID : PairID) (centerTickIndexNormalized : Int) (fee id : Nat) :
    Outcome Pool := do
  let upperTick ← newPoolReserves
    (upperTickKey pairID centerTickIndexNormalized fee)
  let lowerTick ← newPoolReservesFromCounterpart upperTick
  pure ⟨lowerTick, upperTick, id⟩

/-- What a taker gives to and takes from one offer.  `Pool.Swap` and
`LimitOrderTranche.Swap` compute their amounts in the same way. -/
def calcSwapAmounts (makerReserves makerPrice maxAmountTakerIn : PrecDec)
    (maxAmountMakerOut : Option PrecDec) : Outcome (PrecDec × PrecDec) := do
  let maxOutGivenIn ← maxAmountTakerIn.quo makerPrice
  let outAmount := minPrecDecArr makerReserves
    (maxOutGivenIn :: maxAmountMakerOut.toList)
  -- the product can exceed what the division was made from, hence the cap
  let inAmount := minPrecDec (makerPrice.mul outAmount) maxAmountTakerIn
  pure (inAmount, outAmount)

def calcAmountAsToken0 (amount0 amount1 price1To0 : PrecDec) : Outcome PrecDec := do
  let converted ← amount1.quo price1To0
  pure (amount0 + converted)

/-- One side of `CalcGreatestMatchingRatio`: `amount` capped so that it matches
`otherAmount` in the ratio of the targets. -/
def calcMatchingAmount (target otherTarget amount otherAmount : PrecDec) :
    Outcome PrecDec :=
  if otherTarget.IsPositive then do
    let matched ← (otherAmount.mul target).quo otherTarget
    pure (minPrecDec amount matched)
  else
    pure amount

def calcGreatestMatchingRatio (targetAmount0 targetAmount1 amount0 amount1 : PrecDec) :
    Outcome (PrecDec × PrecDec) := do
  let resultAmount0 ← calcMatchingAmount targetAmount0 targetAmount1 amount0 amount1
  let resultAmount1 ← calcMatchingAmount targetAmount1 targetAmount0 amount1 amount0
  pure (resultAmount0, resultAmount1)

def calcAutoswapAmount (reserves0 reserves1 depositAmount0 depositAmount1
    price1To0 : PrecDec) : Outcome (PrecDec × PrecDec) :=
  if reserves0.IsZero ∧ reserves1.IsZero then
    pure (zeroPrecDec, zeroPrecDec)
  else do
    let reserves1As0 ← reserves1.quo price1To0
    let swapAmount ← (reserves0.mul depositAmount1 - reserves1.mul depositAmount0).quo
      (reserves0 + reserves1As0)
    if swapAmount.IsZero then
      pure (zeroPrecDec, zeroPrecDec)
    else if swapAmount.IsPositive then
      pure (zeroPrecDec, swapAmount.ceil)
    else do
      let amountSwappedAs1 := -swapAmount
      let amountSwapped0 ← amountSwappedAs1.quo price1To0
      pure (amountSwapped0, zeroPrecDec)

namespace Pool

variable (pool : Pool)

def fee : Nat := pool.upperTick1.key.fee

def centerTickIndexToken1 : Int :=
  pool.upperTick1.key.tickIndexTakerToMaker - pool.fee

def getPoolDenom : String := newPoolDenom pool.id

def pairID : PairID := pool.lowerTick0.key.tradePairID.pairID

def price (tradePairID : TradePairID) : PrecDec :=
  if tradePairID.IsTakerDenomToken0 then
    pool.upperTick1.makerPrice
  else
    pool.lowerTick0.makerPrice

def swap (tradePairID : TradePairID) (maxAmountTakerIn : PrecDec)
    (maxAmountMakerOut : Option PrecDec) : Outcome (PrecDec × PrecDec × Pool) :=
  let makerReserves :=
    if tradePairID.IsMakerDenomToken0 then pool.lowerTick0 else pool.upperTick1
  let takerReserves :=
    if tradePairID.IsMakerDenomToken0 then pool.upperTick1 else pool.lowerTick0
  if maxAmountTakerIn.IsZero ∨ makerReserves.decReservesMakerDenom.IsZero then
    pure (zeroPrecDec, zeroPrecDec, pool)
  else do
    let (amountTakerIn, amountMakerOut) ← calcSwapAmounts
      makerReserves.decReservesMakerDenom makerReserves.makerPrice
      maxAmountTakerIn maxAmountMakerOut
    let takerReserves ← takerReserves.setMakerReserves
      (takerReserves.decReservesMakerDenom + amountTakerIn)
    let makerReserves ← makerReserves.setMakerReserves
      (makerReserves.decReservesMakerDenom - amountMakerOut)
    let swapped :=
      if tradePairID.IsMakerDenomToken0 then
        { pool with lowerTick0 := makerReserves, upperTick1 := takerReserves }
      else
        { pool with lowerTick0 := takerReserves, upperTick1 := makerReserves }
    pure (amountTakerIn, amountMakerOut, swapped)

def mustCalcPrice1To0Center : Outcome PrecDec :=
  mustCalcPrice (-1 * pool.centerTickIndexToken1)

def calcAutoswapFee (depositValueAsToken0 : PrecDec) : Outcome PrecDec := do
  let feeAsPrice ← mustCalcPrice (-(pool.fee : Int))
  pure ((onePrecDec - feeAsPrice).mul depositValueAsToken0)

/-- Shares in proportion to the value of the pool, or at par if it has none. -/
def calcSharesMintedAmount (depositValueAsToken0 : PrecDec) (existingShares : Int)
    (valueExistingToken0 totalValueWithAutoswapFeeToken0 : PrecDec) : Outcome Int :=
  if zeroPrecDec < valueExistingToken0 then do
    let shares ← (depositValueAsToken0.mulInt existingShares).quo
      totalValueWithAutoswapFeeToken0
    pure shares.truncateInt
  else
    pure depositValueAsToken0.truncateInt

def calcSharesMinted (depositValueAsToken0 : PrecDec) (existingShares : Int)
    (autoswapFee : PrecDec) : Outcome Coin := do
  let price1To0Center ← pool.mustCalcPrice1To0Center
  let valueExistingToken0 ← calcAmountAsToken0
    pool.lowerTick0.decReservesMakerDenom pool.upperTick1.decReservesMakerDenom
    price1To0Center
  let totalValueWithAutoswapFeeToken0 := valueExistingToken0 + autoswapFee
  let sharesMintedAmount ← calcSharesMintedAmount depositValueAsToken0 existingShares
    valueExistingToken0 totalValueWithAutoswapFeeToken0
  pure ⟨pool.getPoolDenom, sharesMintedAmount⟩

/-- What `Deposit` takes into the pool, the value it counts for in `token0` and
the fee that is kept from it. -/
def calcDepositAmounts (maxAmount0 maxAmount1 : PrecDec) (autoswap : Bool) :
    Outcome (PrecDec × PrecDec × PrecDec × PrecDec) := do
  let lowerReserve0 := pool.lowerTick0.decReservesMakerDenom
  let upperReserve1 := pool.upperTick1.decReservesMakerDenom
  let centerPrice1To0 ← pool.mustCalcPrice1To0Center
  if autoswap then do
    let (residualAmount0, residualAmount1) ← calcAutoswapAmount lowerReserve0
      upperReserve1 maxAmount0 maxAmount1 centerPrice1To0
    let residualDepositValueAsToken0 ← calcAmountAsToken0 residualAmount0
      residualAmount1 centerPrice1To0
    let autoswapFee ← pool.calcAutoswapFee residualDepositValueAsToken0
    let fullDepositValueAsToken0 ← calcAmountAsToken0 maxAmount0 maxAmount1
      centerPrice1To0
    pure (maxAmount0, maxAmount1, fullDepositValueAsToken0 - autoswapFee, autoswapFee)
  else do
    let (inAmount0, inAmount1) ← calcGreatestMatchingRatio lowerReserve0
      upperReserve1 maxAmount0 maxAmount1
    let depositValueAsToken0 ← calcAmountAsToken0 inAmount0 inAmount1 centerPrice1To0
    pure (inAmount0, inAmount1, depositValueAsToken0, zeroPrecDec)

/-- `Pool.Deposit`: amounts in, shares out and the pool afterwards. -/
structure DepositResult where
  inAmount0 : PrecDec
  inAmount1 : PrecDec
  outShares : Coin
  pool : Pool

def deposit (maxAmount0 maxAmount1 : PrecDec) (existingShares : Int)
    (autoswap : Bool) : Outcome DepositResult := do
  let (inAmount0, inAmount1, depositValueAsToken0, autoswapFee) ←
    pool.calcDepositAmounts maxAmount0 maxAmount1 autoswap
  let outShares ← pool.calcSharesMinted depositValueAsToken0 existingShares autoswapFee
  let lowerTick0 ← pool.lowerTick0.setMakerReserves
    (pool.lowerTick0.decReservesMakerDenom + inAmount0)
  let upperTick1 ← pool.upperTick1.setMakerReserves
    (pool.upperTick1.decReservesMakerDenom + inAmount1)
  pure ⟨inAmount0, inAmount1, outShares,
    { pool with lowerTick0 := lowerTick0, upperTick1 := upperTick1 }⟩

/-- One side of `RedeemValue`. -/
def redeemSide (reserves : PrecDec) (sharesToRemove totalShares : Int) :
    Outcome PrecDec := do
  let value ← (reserves.mulInt sharesToRemove).quoInt totalShares
  pure (minPrecDec value reserves)

def redeemValue (sharesToRemove totalShares : Int) : Outcome (PrecDec × PrecDec) := do
  let outAmount1 ← redeemSide pool.upperTick1.decReservesMakerDenom
    sharesToRemove totalShares
  let outAmount0 ← redeemSide pool.lowerTick0.decReservesMakerDenom
    sharesToRemove totalShares
  pure (outAmount0, outAmount1)

def withdraw (sharesToRemove totalShares : Int) :
    Outcome (PrecDec × PrecDec × Pool) := do
  let (outAmount0, outAmount1) ← pool.redeemValue sharesToRemove totalShares
  let lowerTick0 ← pool.lowerTick0.setMakerReserves
    (pool.lowerTick0.decReservesMakerDenom - outAmount0)
  let upperTick1 ← pool.upperTick1.setMakerReserves
    (pool.upperTick1.decReservesMakerDenom - outAmount1)
  pure (outAmount0, outAmount1,
    { pool with lowerTick0 := lowerTick0, upperTick1 := upperTick1 })

end Pool

end Neutron.Dex
