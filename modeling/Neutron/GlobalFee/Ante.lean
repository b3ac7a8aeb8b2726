import Mathlib.Data.List.Sort
import Neutron.Library.BinarySearch
import Neutron.Dex.Bank

namespace Neutron.GlobalFee

open Library
open Neutron.Dex (Coin ValidDenom)

/-! Minimum fees of transactions (`x/globalfee`): the parameters, the fees that a
transaction is required to pay and the checks of the ante handler. -/

/-- `math.LegacyDec`, a number of units of `10 ^ -18`. -/
structure LegacyDec where
  i : Int
  deriving DecidableEq

inductive Panic where
  | intOverflow
  | invalidDenom (denom : String)
  | negativeCoinAmount
  deriving DecidableEq

/-- The errors of the module's own checks, with what they print. -/
inductive Failure where
  | panic (cause : Panic)
  | globalFeeEmpty
  | invalidCoins (got required : List Coin)
  | notSubset (got required : List Coin)
  | insufficientFees (got required : List Coin)
  | bypassGasExceeded (gas maximum : Nat)
  deriving DecidableEq

namespace LegacyDec

def precisionReuse : Nat := 10 ^ 18

def ofInt (amount : Int) : LegacyDec := ⟨amount * precisionReuse⟩

def mul (left right : LegacyDec) : Except Failure LegacyDec := do
  let product := Rounding.halfEven precisionReuse (precisionReuse / 2) (left.i * right.i)
  Outcome.require (product.natAbs < 2 ^ 315) (.panic .intOverflow)
  .ok ⟨product⟩

def ceil (amount : LegacyDec) : LegacyDec :=
  let quo := amount.i.tdiv precisionReuse
  if amount.i.tmod precisionReuse ≤ 0 then ofInt quo else ofInt (quo + 1)

def roundInt (amount : LegacyDec) : Except Failure Int := do
  let rounded := Rounding.halfEven precisionReuse (precisionReuse / 2) amount.i
  Outcome.require (rounded.natAbs < 2 ^ 256) (.panic .intOverflow)
  .ok rounded

end LegacyDec

structure DecCoin where
  denom : String
  amount : LegacyDec
  deriving DecidableEq

def newCoin (denom : String) (amount : Int) : Except Failure Coin := do
  Outcome.require (ValidDenom denom) (.panic (.invalidDenom denom))
  Outcome.require (0 ≤ amount) (.panic .negativeCoinAmount)
  .ok ⟨denom, amount⟩

def sortCoins (coins : List Coin) : List Coin :=
  coins.insertionSort fun left right => left.denom ≤ right.denom

/-- `Coins.Find` of the SDK, and `Find` of the module. -/
def find (coins : List Coin) (denom : String) : Option Coin :=
  BinarySearch.find Coin.denom denom coins

def amountOf (coins : List Coin) (denom : String) : Except Failure Int := do
  Outcome.require (ValidDenom denom) (.panic (.invalidDenom denom))
  .ok ((find coins denom).elim 0 Coin.amount)

/-- `Coins.DenomsSubsetOf` past the comparison of lengths. -/
def allDenomsIn (required : List Coin) : List Coin → Except Failure Bool
  | [] => .ok true
  | coin :: rest => do
      let amount ← amountOf required coin.denom
      if amount = 0 then .ok false else allDenomsIn required rest

def denomsSubsetOf (coins required : List Coin) : Except Failure Bool :=
  if required.length < coins.length then .ok false else allDenomsIn required coins

/-- `Coins.IsAnyGTE` of requirements that are not empty. -/
def anyGTE (required : List Coin) : List Coin → Except Failure Bool
  | [] => .ok false
  | coin :: rest => do
      let amount ← amountOf required coin.denom
      if amount ≤ coin.amount ∧ amount ≠ 0 then .ok true else anyGTE required rest

def isAnyGTE (coins required : List Coin) : Except Failure Bool :=
  if required = [] then .ok false else anyGTE required coins

structure Params where
  minimumGasPrices : List DecCoin
  bypassMinFeeMsgTypes : List String
  maxTotalBypassMinFeeMsgGasUsage : Nat

inductive ParamsError where
  | duplicateDenomination (denom : String)
  | invalidDenom (denom : String)
  | notSorted (denom : String)
  | negativeAmount (amount : LegacyDec)
  | emptyMsgType
  | invalidMsgType (msgType : String)
  deriving DecidableEq

/-- The loop of `DecCoins.Validate`, with the last denom and those seen before. -/
def validateCoins (lowDenom : Option String) (seenDenoms : List String) :
    List DecCoin → Except ParamsError Unit
  | [] => .ok ()
  | coin :: rest => do
      Outcome.require (coin.denom ∉ seenDenoms) (.duplicateDenomination coin.denom)
      Outcome.require (ValidDenom coin.denom) (.invalidDenom coin.denom)
      -- the order of the first denom is not checked
      Outcome.require (∀ low ∈ lowDenom, ¬ coin.denom ≤ low) (.notSorted coin.denom)
      Outcome.require (0 ≤ coin.amount.i) (.negativeAmount coin.amount)
      validateCoins (some coin.denom) (coin.denom :: seenDenoms) rest

def validateMsgTypes : List String → Except ParamsError Unit
  | [] => .ok ()
  | msgType :: rest => do
      Outcome.require (msgType ≠ "") .emptyMsgType
      Outcome.require (msgType.toList.head? = some '/') (.invalidMsgType msgType)
      validateMsgTypes rest

def Params.validateBasic (params : Params) : Except ParamsError Unit := do
  validateCoins none [] params.minimumGasPrices
  validateMsgTypes params.bypassMinFeeMsgTypes

/-- The parameters in the store, unless none were written yet. -/
structure Keeper where
  authority : String
  stored : Option Params

inductive UpdateError where
  | invalidSigner (expected got : String)
  | invalidParams (error : ParamsError)
  deriving DecidableEq

namespace Keeper

def setParams (keeper : Keeper) (params : Params) : Except ParamsError Keeper := do
  params.validateBasic
  .ok { keeper with stored := some params }

def getParams (keeper : Keeper) : Params := keeper.stored.getD ⟨[], [], 0⟩

def updateParams (keeper : Keeper) (authority : String) (params : Params) :
    Except UpdateError Keeper := do
  Outcome.require (keeper.authority = authority) (.invalidSigner keeper.authority authority)
  (keeper.setParams params).mapError .invalidParams

end Keeper

structure FeeTx where
  fee : List Coin
  gas : Nat
  msgs : List String

structure Context where
  isCheckTx : Bool
  minGasPrices : List DecCoin
  params : Params

def defaultDenom : String := "untrn"

def toInt64 (number : Nat) : Int :=
  if number % 2 ^ 64 < 2 ^ 63 then number % 2 ^ 64 else number % 2 ^ 64 - 2 ^ 64

/-- `ceil(minGasPrice * gasLimit)` of each price, sorted. -/
def requiredFees (gasLimit : Int) (prices : List DecCoin) : Except Failure (List Coin) := do
  let glDec := LegacyDec.ofInt gasLimit
  let required ← prices.mapM fun gp => do
    let fee ← gp.amount.mul glDec
    let amount ← fee.ceil.roundInt
    newCoin gp.denom amount
  .ok (sortCoins required)

def getGlobalFee (params : Params) (tx : FeeTx) : Except Failure (List Coin) :=
  let globalMinGasPrices :=
    if params.minimumGasPrices = [] then [⟨defaultDenom, .ofInt 0⟩]
    else params.minimumGasPrices
  requiredFees (toInt64 tx.gas) globalMinGasPrices

def getMinGasPrice (minGasPrices : List DecCoin) (gasLimit : Int) :
    Except Failure (List Coin) :=
  if ∀ price ∈ minGasPrices, price.amount.i = 0 then .ok []
  else requiredFees gasLimit minGasPrices

/-- The greater of a global fee and the local fee of the same denom. -/
def combineFee (minGasPrices : List Coin) (fee : Coin) : Coin :=
  match find minGasPrices fee.denom with
  | some localFee => if fee.amount < localFee.amount then localFee else fee
  | none => fee

def combinedFeeRequirement (globalFees minGasPrices : List Coin) :
    Except Failure (List Coin) :=
  if globalFees = [] then
    .error .globalFeeEmpty
  else if minGasPrices = [] then
    .ok globalFees
  else
    .ok (sortCoins (globalFees.map (combineFee minGasPrices)))

def getTxFeeRequired (context : Context) (tx : FeeTx) : Except Failure (List Coin) := do
  let globalFees ← getGlobalFee context.params tx
  if ¬ context.isCheckTx then
    .ok globalFees
  else do
    let localFees ← getMinGasPrice context.minGasPrices (toInt64 tx.gas)
    combinedFeeRequirement globalFees localFees

/-- `getNonZeroFees`: the fees that are not zero, and the denoms of those that are. -/
def getNonZeroFees (fees : List Coin) : List Coin × List String :=
  let (zero, nonZero) := fees.partition fun fee => fee.amount = 0
  (sortCoins nonZero, zero.map Coin.denom)

def splitCoinsByDenoms (feeCoins : List Coin) (denoms : List String) :
    List Coin × List Coin :=
  let (zeroDenom, nonZeroDenom) := feeCoins.partition fun coin => coin.denom ∈ denoms
  (sortCoins nonZeroDenom, sortCoins zeroDenom)

def containsOnlyBypassMinFeeMsgs (params : Params) (msgs : List String) : Bool :=
  msgs.all fun msg => msg ∈ params.bypassMinFeeMsgTypes

/-- `AnteHandle` once the required fees are known. -/
def checkFees (params : Params) (tx : FeeTx) (feeRequired : List Coin) :
    Except Failure Unit := do
  Outcome.require (tx.fee.length ≤ feeRequired.length) (.invalidCoins tx.fee feeRequired)
  let feeCoins := sortCoins tx.fee
  let (nonZeroCoinFeesReq, zeroCoinFeesDenomReq) := getNonZeroFees feeRequired
  let (feeCoinsNonZeroDenom, feeCoinsZeroDenom) :=
    splitCoinsByDenoms feeCoins zeroCoinFeesDenomReq
  let isSubset ← denomsSubsetOf feeCoinsNonZeroDenom nonZeroCoinFeesReq
  Outcome.require isSubset (.notSubset feeCoins feeRequired)
  let doesNotExceedMaxGasUsage := tx.gas ≤ params.maxTotalBypassMinFeeMsgGasUsage
  let allBypassMsgs := containsOnlyBypassMinFeeMsgs params tx.msgs
  if allBypassMsgs ∧ doesNotExceedMaxGasUsage then
    .ok ()
  else if feeCoins = [] then
    Outcome.require (zeroCoinFeesDenomReq ≠ []) (.insufficientFees feeCoins feeRequired)
  else if feeCoinsZeroDenom ≠ [] then
    .ok ()
  else do
    let isEnough ← isAnyGTE feeCoinsNonZeroDenom nonZeroCoinFeesReq
    Outcome.require isEnough
      (if allBypassMsgs ∧ ¬ doesNotExceedMaxGasUsage then
        .bypassGasExceeded tx.gas params.maxTotalBypassMinFeeMsgGasUsage
      else
        .insufficientFees feeCoins feeRequired)

/-- `FeeDecorator.AnteHandle`; a transaction that is accepted is passed on. -/
def anteHandle (context : Context) (tx : FeeTx) (simulate : Bool) : Except Failure Unit :=
  if simulate then
    .ok ()
  else do
    let feeRequired ← getTxFeeRequired context tx
    checkFees context.params tx feeRequired

end Neutron.GlobalFee
