import Neutron.Dex.Pool

namespace Neutron.Dex

open Library PrecDec

/-! Limit order tranches and their users (`x/dex/types/limit_order_tranche.go`,
`limit_order_tranche_user.go`, `limit_order_type.go`). -/

/-- `LimitOrderType`; the wire format also admits numbers without a name. -/
inductive LimitOrderType where
  | goodTilCancelled
  | fillOrKill
  | immediateOrCancel
  | justInTime
  | goodTilTime
  | unrecognized (value : Nat)
  deriving DecidableEq, Repr

namespace LimitOrderType

variable (orderType : LimitOrderType)

def IsGTC : Prop := orderType = goodTilCancelled

def IsFoK : Prop := orderType = fillOrKill

def IsIoC : Prop := orderType = immediateOrCancel

def IsJIT : Prop := orderType = justInTime

def IsGoodTil : Prop := orderType = goodTilTime

def IsTakerOnly : Prop := orderType.IsIoC ∨ orderType.IsFoK

def HasExpiration : Prop := orderType.IsGoodTil ∨ orderType.IsJIT

instance : Decidable orderType.IsGTC := inferInstanceAs (Decidable (_ = _))

instance : Decidable orderType.IsFoK := inferInstanceAs (Decidable (_ = _))

instance : Decidable orderType.IsIoC := inferInstanceAs (Decidable (_ = _))

instance : Decidable orderType.IsJIT := inferInstanceAs (Decidable (_ = _))

instance : Decidable orderType.IsGoodTil := inferInstanceAs (Decidable (_ = _))

instance : Decidable orderType.IsTakerOnly := inferInstanceAs (Decidable (_ ∨ _))

instance : Decidable orderType.HasExpiration := inferInstanceAs (Decidable (_ ∨ _))

end LimitOrderType

/-- A tranche; the deprecated integer and inverse-price fields, which the
source derives from these, are left out. -/
structure LimitOrderTranche where
  key : LimitOrderTrancheKey
  decReservesMakerDenom : PrecDec
  decReservesTakerDenom : PrecDec
  totalMakerDenom : Int
  decTotalTakerDenom : PrecDec
  expirationTime : Option Time
  makerPrice : PrecDec
  deriving DecidableEq

structure LimitOrderTrancheUser where
  tradePairID : TradePairID
  tickIndexTakerToMaker : Int
  trancheKey : String
  address : String
  sharesOwned : Int
  decSharesWithdrawn : PrecDec
  orderType : LimitOrderType
  deriving DecidableEq

namespace LimitOrderTrancheUser

def key (user : LimitOrderTrancheUser) : String ×ₗ String :=
  toLex (user.address, user.trancheKey)

def limitOrderTrancheKey (user : LimitOrderTrancheUser) : LimitOrderTrancheKey :=
  ⟨user.tradePairID, user.tickIndexTakerToMaker, user.trancheKey⟩

def IsEmpty (user : LimitOrderTrancheUser) : Prop :=
  user.decSharesWithdrawn = newPrecDecFromInt user.sharesOwned

instance (user : LimitOrderTrancheUser) : Decidable user.IsEmpty :=
  inferInstanceAs (Decidable (_ = _))

end LimitOrderTrancheUser

def newLimitOrderTranche (key : LimitOrderTrancheKey) (goodTil : Option Time) :
    Outcome LimitOrderTranche := do
  let price ← calcPrice key.tickIndexTakerToMaker
  pure {
    key := key
    decReservesMakerDenom := zeroPrecDec
    decReservesTakerDenom := zeroPrecDec
    totalMakerDenom := 0
    decTotalTakerDenom := zeroPrecDec
    expirationTime := goodTil
    makerPrice := price }

namespace LimitOrderTranche

variable (tranche : LimitOrderTranche)

def IsPlaceTranche : Prop :=
  tranche.decReservesMakerDenom = newPrecDecFromInt tranche.totalMakerDenom

def HasExpiration : Prop := tranche.expirationTime ≠ none

def IsJIT : Prop := tranche.expirationTime = some jitGoodTilTime

/-- A good-til order is expired from its expiration time on; JIT orders never
count as expired. -/
def IsExpired (blockTime : Time) : Prop :=
  match tranche.expirationTime with
  | none => False
  | some expirationTime =>
      expirationTime ≠ jitGoodTilTime ∧ expirationTime ≤ blockTime

def HasTokenIn : Prop := tranche.decReservesMakerDenom.IsPositive

def HasTokenOut : Prop := tranche.decReservesTakerDenom.IsPositive

instance : Decidable tranche.IsPlaceTranche := inferInstanceAs (Decidable (_ = _))

instance : Decidable tranche.HasExpiration := inferInstanceAs (Decidable (_ ≠ _))

instance : Decidable tranche.IsJIT := inferInstanceAs (Decidable (_ = _))

instance (blockTime : Time) : Decidable (tranche.IsExpired blockTime) :=
  match expiration : tranche.expirationTime with
  | none => isFalse (by simp [IsExpired, expiration])
  | some expirationTime =>
      decidable_of_iff
        (expirationTime ≠ jitGoodTilTime ∧ expirationTime ≤ blockTime)
        (by simp [IsExpired, expiration])

instance : Decidable tranche.HasTokenIn :=
  inferInstanceAs (Decidable (PrecDec.IsPositive _))

instance : Decidable tranche.HasTokenOut :=
  inferInstanceAs (Decidable (PrecDec.IsPositive _))

def setMakerReserves (reserves : PrecDec) : Outcome LimitOrderTranche :=
  reserves.unlessNegative .reservesNegative
    { tranche with decReservesMakerDenom := reserves }

def setTakerReserves (reserves : PrecDec) : Outcome LimitOrderTranche :=
  reserves.unlessNegative .reservesNegative
    { tranche with decReservesTakerDenom := reserves }

def setTotalTakerDenom (reserves : PrecDec) : Outcome LimitOrderTranche :=
  reserves.unlessNegative .totalTakerDenomNegative
    { tranche with decTotalTakerDenom := reserves }

def ratioFilled : Outcome PrecDec := do
  let amountFilled ← tranche.decTotalTakerDenom.quo tranche.makerPrice
  let ratioFilled ← amountFilled.quoInt tranche.totalMakerDenom
  pure (minPrecDec ratioFilled onePrecDec)

def amountUnfilled : Outcome PrecDec := do
  let amountFilled ← tranche.decTotalTakerDenom.quo tranche.makerPrice
  let trueAmountUnfilled := newPrecDecFromInt tranche.totalMakerDenom - amountFilled
  pure (maxPrecDec zeroPrecDec trueAmountUnfilled)

/-- `RemoveTokenIn`: the user's part of what is not filled. -/
def removeTokenIn (trancheUser : LimitOrderTrancheUser) :
    Outcome (PrecDec × LimitOrderTranche) := do
  let amountUnfilled ← tranche.amountUnfilled
  let userAmount ← (amountUnfilled.mulInt trancheUser.sharesOwned).quoInt
    tranche.totalMakerDenom
  let amountToRemove := minPrecDec userAmount tranche.decReservesMakerDenom
  let removed ← tranche.setMakerReserves
    (tranche.decReservesMakerDenom - amountToRemove)
  if removed.decReservesMakerDenom.IsNegative then
    fail (.insufficientReserves tranche.key.trancheKey)
  else
    pure (amountToRemove, removed)

def calcWithdrawAmount (trancheUser : LimitOrderTrancheUser) :
    Outcome (PrecDec × PrecDec) := do
  let ratioFilled ← tranche.ratioFilled
  let maxAllowedToWithdraw := ratioFilled.mulInt trancheUser.sharesOwned
  let sharesToWithdrawDec := maxAllowedToWithdraw - trancheUser.decSharesWithdrawn
  if ¬ sharesToWithdrawDec.IsPositive then
    pure (zeroPrecDec, zeroPrecDec)
  else
    pure (sharesToWithdrawDec,
      minPrecDec (sharesToWithdrawDec.mul tranche.makerPrice)
        tranche.decReservesTakerDenom)

/-- `Withdraw`: the user's part of what was filled since the last withdrawal,
in shares and in the taker token. -/
def withdraw (trancheUser : LimitOrderTrancheUser) :
    Outcome (PrecDec × PrecDec × LimitOrderTranche) := do
  let (amountOutTokenIn, amountOutTokenOut) ← tranche.calcWithdrawAmount trancheUser
  let withdrawn ← tranche.setTakerReserves
    (tranche.decReservesTakerDenom - amountOutTokenOut)
  if withdrawn.decReservesTakerDenom.IsNegative then
    fail (.insufficientReserves tranche.key.trancheKey)
  else
    pure (amountOutTokenIn, amountOutTokenOut, withdrawn)

def swap (maxAmountTakerIn : PrecDec) (maxAmountMakerOut : Option PrecDec) :
    Outcome (PrecDec × PrecDec × LimitOrderTranche) := do
  let (inAmount, outAmount) ← calcSwapAmounts tranche.decReservesMakerDenom
    tranche.makerPrice maxAmountTakerIn maxAmountMakerOut
  let filled ← tranche.setTakerReserves (tranche.decReservesTakerDenom + inAmount)
  let drained ← filled.setMakerReserves (tranche.decReservesMakerDenom - outAmount)
  let counted ← drained.setTotalTakerDenom (tranche.decTotalTakerDenom + inAmount)
  pure (inAmount, outAmount, counted)

def placeMakerLimitOrder (amountIn : Int) : Outcome LimitOrderTranche := do
  let placed ← tranche.setMakerReserves
    (tranche.decReservesMakerDenom + newPrecDecFromInt amountIn)
  pure { placed with totalMakerDenom := tranche.totalMakerDenom + amountIn }

end LimitOrderTranche

structure LimitOrderExpiration where
  trancheRef : LimitOrderTrancheKey
  expirationTime : Time
  deriving DecidableEq

namespace LimitOrderExpiration

def key (expiration : LimitOrderExpiration) : LimitOrderExpirationKey :=
  toLex (timeBytes expiration.expirationTime, expiration.trancheRef)

end LimitOrderExpiration

def newLimitOrderExpiration (tranche : LimitOrderTranche) :
    Outcome LimitOrderExpiration :=
  match tranche.expirationTime with
  | none => abort .nilExpirationTime
  | some expirationTime => pure ⟨tranche.key, expirationTime⟩

inductive TickLiquidity where
  | poolReserves (reserves : PoolReserves)
  | limitOrderTranche (tranche : LimitOrderTranche)
  deriving DecidableEq

namespace TickLiquidity

def key : TickLiquidity → TickLiquidityKey
  | poolReserves reserves => .poolReserves reserves.key
  | limitOrderTranche tranche => .limitOrderTranche tranche.key

def price : TickLiquidity → PrecDec
  | poolReserves reserves => reserves.makerPrice
  | limitOrderTranche tranche => tranche.makerPrice

def tickIndex : TickLiquidity → Int
  | poolReserves reserves => reserves.key.tickIndexTakerToMaker
  | limitOrderTranche tranche => tranche.key.tickIndexTakerToMaker

def HasToken : TickLiquidity → Prop
  | poolReserves reserves => reserves.HasToken
  | limitOrderTranche tranche => tranche.HasTokenIn

/-- Expired tranches are skipped by takers; pools never expire. -/
def IsExpired (blockTime : Time) : TickLiquidity → Prop
  | poolReserves _ => False
  | limitOrderTranche tranche => tranche.IsExpired blockTime

instance : (tick : TickLiquidity) → Decidable tick.HasToken
  | poolReserves reserves => inferInstanceAs (Decidable reserves.HasToken)
  | limitOrderTranche tranche => inferInstanceAs (Decidable tranche.HasTokenIn)

instance (blockTime : Time) :
    (tick : TickLiquidity) → Decidable (tick.IsExpired blockTime)
  | poolReserves _ => inferInstanceAs (Decidable False)
  | limitOrderTranche tranche =>
      inferInstanceAs (Decidable (tranche.IsExpired blockTime))

@[simp] theorem key_tickIndexTakerToMaker (tick : TickLiquidity) :
    tick.key.tickIndexTakerToMaker = tick.tickIndex := by
  cases tick <;> rfl

end TickLiquidity

end Neutron.Dex
