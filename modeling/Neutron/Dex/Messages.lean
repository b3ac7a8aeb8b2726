import Neutron.Dex.Deposit
import Neutron.Dex.Withdraw
import Neutron.Dex.LimitOrder
import Neutron.Dex.Multihop

namespace Neutron.Dex

open Library PrecDec

/-! The messages of the module and their stateless checks
(`x/dex/types/message_*.go`).  Addresses are taken to be well formed. -/

/-- An account that signs messages.  Nobody holds a key of the dex account. -/
structure Signer where
  address : String
  external : address ≠ moduleName

def validateDenom (label denom : String) : Outcome Unit :=
  ensure (ValidDenom denom)
    (.invalidDenom (label ++ " (invalid denom: " ++ denom ++ ")"))

structure MsgDeposit where
  creator : Signer
  receiver : String
  tokenA : String
  tokenB : String
  amountsA : List Int
  amountsB : List Int
  tickIndexesAToB : List Int
  fees : List Nat
  options : List (Option DepositOptions)

/-- The entries of parallel lists; the lengths are checked beforehand. -/
def zipDeposits : List Int → List Int → List Int → List Nat →
    List (Option DepositOptions) → List DepositLeg
  | amount0 :: amounts0, amount1 :: amounts1, tickIndex :: tickIndexes, fee :: fees,
      options :: rest =>
      ⟨amount0, amount1, tickIndex, fee, options.getD {}⟩ ::
        zipDeposits amounts0 amounts1 tickIndexes fees rest
  | _, _, _, _, _ => []

/-- The loop in `MsgDeposit.Validate` over deposits in the message's own token
order. -/
def validateDeposits : List (Int × Nat) → List DepositLeg → Outcome Unit
  | _, [] => pure ()
  | poolsDeposited, leg :: rest => do
      ensure ((leg.tickIndex, leg.fee) ∉ poolsDeposited) .duplicatePoolDeposit
      ensure (¬ (leg.amount0 < 0 ∨ leg.amount1 < 0)) .zeroDeposit
      ensure (¬ (leg.amount0 = 0 ∧ leg.amount1 = 0)) .zeroDeposit
      validateTickFee leg.tickIndex leg.fee
      ensure (¬ (leg.options.disableAutoswap ∧ leg.options.swapOnDeposit))
        .swapOnDepositWithoutAutoswap
      validateDeposits ((leg.tickIndex, leg.fee) :: poolsDeposited) rest

def MsgDeposit.validate (msg : MsgDeposit) : Outcome Unit := do
  validateDenom "TokenA denom" msg.tokenA
  validateDenom "TokenB denom" msg.tokenB
  ensure (msg.tokenA ≠ msg.tokenB) (.invalidDenom "tokenA cannot equal tokenB")
  let numDeposits := msg.amountsA.length
  ensure (numDeposits = msg.fees.length ∧ numDeposits = msg.tickIndexesAToB.length ∧
    numDeposits = msg.amountsB.length ∧ numDeposits = msg.options.length)
    .unbalancedTxArray
  ensure (numDeposits ≠ 0) .zeroDeposit
  validateDeposits [] (zipDeposits msg.amountsA msg.amountsB msg.tickIndexesAToB
    msg.fees msg.options)

structure MsgWithdrawal where
  creator : Signer
  receiver : String
  tokenA : String
  tokenB : String
  sharesToRemove : List Int
  tickIndexesAToB : List Int
  fees : List Nat

/-- The first loop in `MsgWithdrawal.Validate`. -/
def validateRemovals : List Int → List (Int × Nat) → Outcome Unit
  | shares :: sharesToRemove, pool :: pools => do
      ensure (0 < shares) .zeroWithdraw
      validateTickFee pool.1 pool.2
      validateRemovals sharesToRemove pools
  | _, _ => pure ()

/-- The second loop in `MsgWithdrawal.Validate`. -/
def validateDistinctPools : List (Int × Nat) → List (Int × Nat) → Outcome Unit
  | _, [] => pure ()
  | poolsSeen, pool :: rest => do
      ensure (pool ∉ poolsSeen) (.wrapped ("pool with tickindex " ++ toString pool.1 ++
        ", fee " ++ toString pool.2 ++ " is duplicated") .duplicatePoolWithdraw)
      validateDistinctPools (pool :: poolsSeen) rest

def MsgWithdrawal.validate (msg : MsgWithdrawal) : Outcome Unit := do
  validateDenom "TokenA denom" msg.tokenA
  validateDenom "TokenB denom" msg.tokenB
  ensure (msg.tokenA ≠ msg.tokenB) (.invalidDenom "tokenA cannot equal tokenB")
  ensure (msg.fees.length = msg.tickIndexesAToB.length ∧
    msg.sharesToRemove.length = msg.tickIndexesAToB.length) .unbalancedTxArray
  ensure (msg.fees ≠ []) .zeroWithdraw
  let pools := msg.tickIndexesAToB.zip msg.fees
  validateRemovals msg.sharesToRemove pools
  validateDistinctPools [] pools

structure MsgWithdrawalWithShares where
  creator : Signer
  receiver : String
  sharesToRemove : List Coin

/-- The loop in `MsgWithdrawalWithShares.Validate`. -/
def validateShares : List Nat → List Coin → Outcome Unit
  | _, [] => pure ()
  | poolsSeen, share :: rest => do
      ensure (0 < share.amount)
        (.wrapped ("share amount is zero for share " ++ share.denom) .zeroWithdraw)
      let poolID ← wrapError "invalid share denom" (parsePoolIDFromDenom share.denom)
      ensure (poolID ∉ poolsSeen) (.wrapped
        ("pool with denom " ++ share.denom ++ " is duplicated") .duplicatePoolWithdraw)
      validateShares (poolID :: poolsSeen) rest

def MsgWithdrawalWithShares.validate (msg : MsgWithdrawalWithShares) :
    Outcome Unit := do
  ensure (msg.sharesToRemove ≠ [])
    (.wrapped "shares to remove is empty" .zeroWithdraw)
  validateShares [] msg.sharesToRemove

structure MsgPlaceLimitOrder where
  creator : Signer
  receiver : String
  tokenIn : String
  tokenOut : String
  tickIndexInToOut : Int
  amountIn : Int
  orderType : LimitOrderType
  expirationTime : Option Timestamp
  maxAmountOut : Option Int
  limitSellPrice : Option PrecDec
  minAverageSellPrice : Option PrecDec

namespace MsgPlaceLimitOrder

variable (msg : MsgPlaceLimitOrder)

def validateMaxAmountOut : Outcome Unit :=
  match msg.maxAmountOut with
  | none => pure ()
  | some maxAmountOut => do
      ensure (0 < maxAmountOut) .zeroMaxAmountOut
      ensure msg.orderType.IsTakerOnly .invalidMaxAmountOutForMaker

def validateLimitSellPrice : Outcome Unit :=
  match msg.limitSellPrice with
  | none => pure ()
  | some limitSellPrice => do
      ensure (¬ IsPriceOutOfRange limitSellPrice) .priceOutsideRange
      ensure (msg.tickIndexInToOut = 0) .invalidPriceAndTick

def validateMinAverageSellPrice : Outcome Unit :=
  match msg.minAverageSellPrice with
  | none => pure ()
  | some minAverageSellPrice =>
      ensure (¬ minAverageSellPrice.IsZero) .zeroMinAverageSellPrice

def validate : Outcome Unit := do
  validateDenom "Error TokenIn denom" msg.tokenIn
  validateDenom "Error TokenOut denom" msg.tokenOut
  ensure (msg.tokenIn ≠ msg.tokenOut) (.invalidDenom "tokenIn cannot equal tokenOut")
  ensure (0 < msg.amountIn) .zeroLimitOrder
  ensure (msg.orderType.IsGoodTil → msg.expirationTime.isSome)
    .goodTilOrderWithoutExpiration
  ensure (¬ msg.orderType.IsGoodTil → msg.expirationTime.isNone)
    .expirationOnWrongOrderType
  msg.validateMaxAmountOut
  ensure (¬ IsTickOutOfRange msg.tickIndexInToOut) .tickOutsideRange
  msg.validateLimitSellPrice
  msg.validateMinAverageSellPrice

def validateGoodTilExpiration (blockTime : Time) : Outcome Unit :=
  if msg.orderType.IsGoodTil then
    match msg.expirationTime with
    | none => abort .nilExpirationTime
    | some expirationTime =>
        ensure (blockTime < expirationTime.time)
          (.expirationTimeInPast blockTime expirationTime.time)
  else
    pure ()

def tickIndex : Outcome Int :=
  match msg.limitSellPrice with
  | none => pure msg.tickIndexInToOut
  | some limitSellPrice => do
      let limitBuyPrice ← onePrecDec.quo limitSellPrice
      wrapError "invalid LimitSellPrice" (calcTickIndexFromPrice limitBuyPrice)

end MsgPlaceLimitOrder

/-- `MsgCancelLimitOrder` and `MsgWithdrawFilledLimitOrder` have the same
fields, and nothing to check besides the address. -/
structure MsgTranche where
  creator : Signer
  trancheKey : String

structure MsgMultiHopSwap where
  creator : Signer
  receiver : String
  routes : List (List String)
  amountIn : Int
  exitLimitPrice : PrecDec
  pickBestRoute : Bool

def maxRoutesPerRequest : Nat := 16

def maxHopsPerRoute : Nat := 16

/-- The loop in `validateHops`. -/
def validateDistinctHops : List String → List String → Outcome Unit
  | _, [] => pure ()
  | existingHops, hop :: rest => do
      ensure (hop ∉ existingHops) .cycleInHops
      validateDenom "invalid denom in route:" hop
      validateDistinctHops (hop :: existingHops) rest

def validateHops (hops : List String) : Outcome Unit := do
  ensure (2 ≤ hops.length) .routeWithoutExitToken
  ensure (hops.length ≤ maxHopsPerRoute) .maxHopsPerRouteReached
  validateDistinctHops [] hops

/-- The loop in `validateRoutes`, with the expected exit and entry tokens. -/
def validateRouteEnds : Option (Option String × Option String) → List (List String) →
    Outcome Unit
  | _, [] => pure ()
  | none, hops :: rest => do
      validateHops hops
      validateRouteEnds (some (hops.getLast?, hops.head?)) rest
  | some (exitToken, entryToken), hops :: rest => do
      validateHops hops
      ensure (hops.getLast? = exitToken) .multihopExitTokensMismatch
      ensure (hops.head? = entryToken) .multihopEntryTokensMismatch
      validateRouteEnds (some (exitToken, entryToken)) rest

def validateRoutes (routes : List (List String)) : Outcome Unit := do
  ensure (routes ≠ []) .missingMultihopRoute
  ensure (routes.length ≤ maxRoutesPerRequest) .maxRoutesPerRequestReached
  validateRouteEnds none routes

def MsgMultiHopSwap.validate (msg : MsgMultiHopSwap) : Outcome Unit := do
  validateRoutes msg.routes
  ensure (0 < msg.amountIn) .zeroSwap
  ensure msg.exitLimitPrice.IsPositive .zeroExitPrice

structure MsgUpdateParams where
  authority : String
  params : Params

def validateFeeTiers (feeTiers : List Nat) : Outcome Unit :=
  ensure feeTiers.Nodup
    (.invalidParams "invalid fee tiers: duplicate fee tier found")

def Params.validate (params : Params) : Outcome Unit :=
  validateFeeTiers params.feeTiers

end Neutron.Dex
