import Neutron.Dex.State

namespace Neutron.Dex

open Library PrecDec

/-! Fractional balances (`x/dex/keeper/fractional_banker.go`): the bank only
moves whole coins, and the dex keeps the fractions it owes each account. -/

abbrev BalanceMap := SortedStore String PrecDec

/-- One turn of the loop in `GetFractionalBalances`. -/
def addFractionalBalance (dex : DexState) (address : String) (balance : PrecDecCoins)
    (denom : String) : Outcome PrecDecCoins :=
  match dex.fractionalBalances.get? (toLex (address, denom)) with
  | none => pure balance
  | some amount => do
      let coin ← newPrecDecCoin denom amount
      pure (Tally.add balance (PrecDecCoins.single coin))

def getFractionalBalances (dex : DexState) (address : String)
    (denoms : List String) : Outcome PrecDecCoins :=
  denoms.foldlM (addFractionalBalance dex address) SortedStore.empty

/-- One store write of `SetFractionalBalance`. -/
def setFractionalEntry (balances : FractionalBalances) (address denom : String)
    (amount : PrecDec) : FractionalBalances :=
  if amount.IsPositive then
    balances.set (toLex (address, denom)) amount
  else
    balances.delete (toLex (address, denom))

def setFractionalBalance (dex : DexState) (address : String)
    (balances : BalanceMap) : DexState :=
  let stored := balances.entries.foldl
    (fun stored entry => setFractionalEntry stored address entry.1 entry.2)
    dex.fractionalBalances
  { dex with fractionalBalances := stored }

def roundDownToWholeTokenAmounts (tokens : PrecDecCoins) : Coins × BalanceMap :=
  (Tally.ofList (tokens.entries.map fun token => (token.1, token.2.truncateInt)),
    tokens.mapValues fun _ amount => amount - newPrecDecFromInt amount.truncateInt)

/-- What an account pays in whole coins for an amount, after using up the
fraction it is owed, and the fraction it is owed then. -/
def settleDebt (amount debtAmount : PrecDec) : Int × PrecDec :=
  if amount ≤ debtAmount then
    (0, debtAmount - amount)
  else
    let userPaysRaw := amount - debtAmount
    (userPaysRaw.ceil.truncateInt, userPaysRaw.ceil - userPaysRaw)

def calcUserSendMinusDebts (amountToSend debts : PrecDecCoins) :
    Outcome (Coins × BalanceMap) := do
  let coins ← amountToSend.entries.mapM fun coinToPay =>
    newCoin coinToPay.1
      (settleDebt coinToPay.2 (Tally.amountOf debts coinToPay.1)).1
  pure (Tally.ofList (coins.map fun coin => (coin.denom, coin.amount)),
    amountToSend.mapValues fun denom amount =>
      (settleDebt amount (Tally.amountOf debts denom)).2)

def sendFractionalCoinsFromDexToAccount (world : World) (address : String)
    (tokens : PrecDecCoins) : Outcome World := do
  let relevantDenoms := tokens.entries.map Prod.fst
  let balance ← getFractionalBalances world.dex address relevantDenoms
  let newBalance := Tally.add balance tokens
  let (wholeTokens, fractionalDebts) := roundDownToWholeTokenAmounts newBalance
  let bank ← unlessEmpty wholeTokens world.bank
    (world.bank.sendCoinsFromModuleToAccount address wholeTokens)
  pure { world with
    bank := bank
    dex := setFractionalBalance world.dex address fractionalDebts }

def sendFractionalCoinsFromAccountToDex (world : World) (address : String)
    (tokens : PrecDecCoins) : Outcome World := do
  let relevantDenoms := tokens.entries.map Prod.fst
  let balances ← getFractionalBalances world.dex address relevantDenoms
  let (coinsToSend, newBalance) ← calcUserSendMinusDebts tokens balances
  let bank ← unlessEmpty coinsToSend world.bank
    (world.bank.sendCoinsFromAccountToModule address coinsToSend)
  pure { world with
    bank := bank
    dex := setFractionalBalance world.dex address newBalance }

end Neutron.Dex
