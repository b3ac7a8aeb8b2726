import Neutron.Library.Outcome

namespace Neutron.Dex

/-- The sentinel errors of `types/errors.go` that the modelled paths return.
What the source formats into the message is kept as arguments. -/
inductive DexError where
  | invalidTradingPair (tokenA tokenB : String)
  | insufficientShares (address : String) (shares : Int) (denom : String)
  | unbalancedTxArray
  | validLimitOrderTrancheNotFound (trancheKey : String)
  | cancelEmptyLimitOrder (trancheKey : String)
  | tickOutsideRange
  | invalidPoolDenom (denom : String)
  | zeroDeposit
  | zeroTrueDeposit
  | withdrawEmptyLimitOrder
  | zeroSwap
  | zeroWithdraw
  | zeroLimitOrder
  | depositShareUnderflow
  | foKLimitOrderNotFilled
  | goodTilOrderWithoutExpiration
  | expirationOnWrongOrderType
  | expirationTimeInPast (blockTime expirationTime : Int)
  | allMultiHopRoutesFailed (routeErrors : List DexError)
  | multihopExitTokensMismatch
  | missingMultihopRoute
  | zeroMaxAmountOut
  | invalidMaxAmountOutForMaker
  | invalidFee (validFees : List Nat)
  | routeWithoutExitToken
  | cycleInHops
  | zeroExitPrice
  | duplicatePoolDeposit
  | limitPriceNotSatisfied
  | dexPaused
  | overJITPerBlockLimit
  | invalidDenom (detail : String)
  | multihopEntryTokensMismatch
  | tradeTooSmall
  | priceOutsideRange
  | invalidPriceAndTick
  | depositBehindEnemyLines (tickIndex : Int) (fee : Nat)
  | noLiquidity
  | zeroMinAverageSellPrice
  | doubleSidedSwapOnDeposit
  | swapOnDepositWithoutAutoswap
  | insufficientReserves (trancheKey : String)
  | duplicateTrancheKey
  | duplicatePoolWithdraw
  | canOnlyWithdrawFromSamePair (poolID : Nat) (pairID : String)
  | poolNotFound
  | maxRoutesPerRequestReached
  | maxHopsPerRouteReached
  | dexWithdrawOnly
  | dustCoinsNegative
  | invalidParams (detail : String)
  | invalidAuthority
  | insufficientFunds (address : String)
  | unauthorizedRecipient (address : String)
  | invalidCoins
  | wrapped (detail : String) (cause : DexError)
  deriving Repr

inductive Panic where
  | divisionByZero
  | reservesNegative
  | totalTakerDenomNegative
  | tickOutsideRange
  | priceBelowOne
  | invalidCoin (denom : String)
  | invalidCoinSet
  | negativeCoinAmount
  | nilExpirationTime
  | nilAmount
  | indexOutOfRange
  | nilFunction
  deriving DecidableEq, Repr

inductive Failure where
  | error (cause : DexError)
  | panic (cause : Panic)
  deriving Repr

abbrev Outcome (Result : Type) := Except Failure Result

def fail {Result : Type} (cause : DexError) : Outcome Result :=
  throw (.error cause)

def abort {Result : Type} (cause : Panic) : Outcome Result :=
  throw (.panic cause)

def ensure (condition : Prop) [Decidable condition] (cause : DexError) :
    Outcome Unit :=
  Library.Outcome.require condition (.error cause)

theorem ensure_eq_ok_iff {condition : Prop} [Decidable condition]
    {cause : DexError} {result : Unit} :
    ensure condition cause = .ok result ↔ condition :=
  Library.Outcome.require_eq_ok_iff condition (Failure.error cause) result

def wrapError {Result : Type} (detail : String) : Outcome Result → Outcome Result
  | .ok result => .ok result
  | .error (.error cause) => .error (.error (.wrapped detail cause))
  | .error (.panic cause) => .error (.panic cause)

theorem wrapError_eq_ok_iff {Result : Type} {detail : String}
    {outcome : Outcome Result} {result : Result} :
    wrapError detail outcome = .ok result ↔ outcome = .ok result := by
  rcases outcome with (_ | _) | _ <;> simp [wrapError]

end Neutron.Dex
