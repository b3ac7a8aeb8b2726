import Neutron.Library.Tally
import Neutron.Dex.Keys
import Neutron.Dex.PrecDec

namespace Neutron.Dex

open Library

structure Coin where
  denom : String
  amount : Int
  deriving DecidableEq, Repr

/-- `sdk.Coins`: kept sorted by denom, one amount per denom. -/
abbrev Coins := Tally String Int

structure PrecDecCoin where
  denom : String
  amount : PrecDec
  deriving DecidableEq, Repr

/-- `PrecDecCoins`: kept sorted by denom, one amount per denom. -/
abbrev PrecDecCoins := Tally String PrecDec

def newCoin (denom : String) (amount : Int) : Outcome Coin :=
  if ¬ ValidDenom denom then
    abort (.invalidCoin denom)
  else if amount < 0 then
    abort .negativeCoinAmount
  else
    pure ⟨denom, amount⟩

def newPrecDecCoin (denom : String) (amount : PrecDec) : Outcome PrecDecCoin :=
  if ¬ ValidDenom denom then
    abort (.invalidCoin denom)
  else if amount.IsNegative then
    abort .negativeCoinAmount
  else
    pure ⟨denom, amount⟩

namespace PrecDecCoin

def entry (coin : PrecDecCoin) : String × PrecDec := (coin.denom, coin.amount)

def truncateToCoin (coin : PrecDecCoin) : Coin :=
  ⟨coin.denom, coin.amount.truncateInt⟩

def ceilToCoin (coin : PrecDecCoin) : Coin :=
  ⟨coin.denom, coin.amount.ceil.truncateInt⟩

end PrecDecCoin

/-- `NewPrecDecCoins`: zero amounts are removed, what is left must be a valid
set of coins. -/
def newPrecDecCoins (coins : List PrecDecCoin) : Outcome PrecDecCoins :=
  let newCoins := coins.filter fun coin => ¬ coin.amount.IsZero
  if (newCoins.map PrecDecCoin.denom).Nodup ∧
      ∀ coin ∈ newCoins, ValidDenom coin.denom ∧ coin.amount.IsPositive then
    pure (Tally.ofList (newCoins.map PrecDecCoin.entry))
  else
    abort .invalidCoinSet

def PrecDecCoins.single (coin : PrecDecCoin) : PrecDecCoins :=
  SortedStore.empty.set coin.denom coin.amount

def PrecDecCoins.truncateToCoins (coins : PrecDecCoins) : List Coin :=
  coins.entries.map fun entry => ⟨entry.1, entry.2.truncateInt⟩

/-- `SanitizeCoins`: sorts, drops zero coins and merges equal denoms. -/
def sanitizeCoins (coins : List Coin) : Coins :=
  coins.foldl (fun cleanCoins coin =>
      if coin.amount = 0 then cleanCoins
      else cleanCoins.set coin.denom
        (Tally.amountOf cleanCoins coin.denom + coin.amount))
    SortedStore.empty

/-- `sdk.Coins.IsValid`; the order is part of the type. -/
def Coins.IsValid (coins : Coins) : Prop :=
  ∀ entry ∈ coins.entries, ValidDenom entry.1 ∧ 0 < entry.2

instance (coins : Coins) : Decidable coins.IsValid :=
  inferInstanceAs (Decidable (∀ entry ∈ coins.entries, _))

def unlessEmpty {Amount Result : Type} (coins : Tally String Amount)
    (unchanged : Result) (transfer : Outcome Result) : Outcome Result :=
  if coins.entries = [] then pure unchanged else transfer

/-- The dex module account, named as the bank keeper is called with it. -/
def moduleName : String := "dex"

/-- Balances and supplies.  `blockedAddr` is the app's list of addresses that
may not receive coins, which holds every module account. -/
theorem moduleName_blocked : decide (moduleName = moduleName) = true :=
  decide_eq_true rfl

structure Bank where
  balance : String → String → Nat
  supply : String → Nat
  blockedAddr : String → Bool
  moduleBlocked : blockedAddr moduleName = true

namespace Bank

variable (bank : Bank)

/-- `SendCoins` moves exactly the coins it is asked to, or fails. -/
def sendCoins (sender recipient : String) (coins : Coins) : Outcome Bank :=
  if ¬ coins.IsValid then
    fail .invalidCoins
  else if ∀ entry ∈ coins.entries, entry.2 ≤ bank.balance sender entry.1 then
    let amount denom := (Tally.amountOf coins denom).toNat
    pure { bank with
      balance := fun address denom =>
        bank.balance address denom - (if address = sender then amount denom else 0) +
          (if address = recipient then amount denom else 0) }
  else
    fail (.insufficientFunds sender)

def sendCoinsFromModuleToAccount (recipient : String) (coins : Coins) :
    Outcome Bank :=
  if bank.blockedAddr recipient then
    fail (.unauthorizedRecipient recipient)
  else
    bank.sendCoins moduleName recipient coins

def sendCoinsFromAccountToModule (sender : String) (coins : Coins) :
    Outcome Bank :=
  bank.sendCoins sender moduleName coins

def mintCoins (coins : Coins) : Outcome Bank :=
  if ¬ coins.IsValid then
    fail .invalidCoins
  else
    let amount denom := (Tally.amountOf coins denom).toNat
    pure { bank with
      balance := fun address denom =>
        bank.balance address denom +
          (if address = moduleName then amount denom else 0)
      supply := fun denom => bank.supply denom + amount denom }

def burnCoins (coins : Coins) : Outcome Bank :=
  if ¬ coins.IsValid then
    fail .invalidCoins
  else if ∀ entry ∈ coins.entries, entry.2 ≤ bank.balance moduleName entry.1 then
    if ∀ entry ∈ coins.entries, entry.2 ≤ bank.supply entry.1 then
      let amount denom := (Tally.amountOf coins denom).toNat
      pure { bank with
        balance := fun address denom =>
          bank.balance address denom -
            (if address = moduleName then amount denom else 0)
        supply := fun denom => bank.supply denom - amount denom }
    else
      abort .negativeCoinAmount
  else
    fail (.insufficientFunds moduleName)

end Bank

theorem newPrecDecCoin_eq_ok_iff {denom : String} {amount : PrecDec}
    {coin : PrecDecCoin} :
    newPrecDecCoin denom amount = .ok coin ↔
      ValidDenom denom ∧ 0 ≤ amount.i ∧ coin = ⟨denom, amount⟩ := by
  unfold newPrecDecCoin
  split
  · rename_i invalid
    exact ⟨fun impossible => (nomatch impossible),
      fun both => absurd both.1 invalid⟩
  · rename_i valid
    split
    · rename_i negative
      exact ⟨fun impossible => (nomatch impossible),
        fun both => absurd negative (not_lt.mpr both.2.1)⟩
    · rename_i nonneg
      rw [Outcome.pure_eq_ok_iff]
      exact ⟨fun equal => ⟨not_not.mp valid, not_lt.mp nonneg, equal.symm⟩,
        fun both => both.2.2.symm⟩

theorem newCoin_eq_ok {denom : String} {amount : Int} {coin : Coin}
    (ok : newCoin denom amount = .ok coin) : coin = ⟨denom, amount⟩ := by
  unfold newCoin at ok
  split at ok
  · cases ok
  · split at ok
    · cases ok
    · exact (Except.ok.inj ok).symm

variable {coins : Coins}

theorem Coins.IsValid.amountOf_nonneg (valid : coins.IsValid)
    (denom : String) : 0 ≤ Tally.amountOf coins denom := by
  unfold Tally.amountOf
  cases found : coins.get? denom with
  | none => exact le_refl _
  | some amount =>
      exact le_of_lt (valid (denom, amount)
        ((coins.mem_entries_iff denom amount).mpr found)).2

theorem Coins.amountOf_le {bound : String → Nat}
    (within : ∀ entry ∈ coins.entries, entry.2 ≤ bound entry.1)
    (denom : String) : Tally.amountOf coins denom ≤ bound denom := by
  unfold Tally.amountOf
  cases found : coins.get? denom with
  | none => exact Int.natCast_nonneg _
  | some amount =>
      exact within (denom, amount)
        ((coins.mem_entries_iff denom amount).mpr found)

namespace Bank

variable {bank final : Bank}

variable {sender recipient : String}

theorem sendCoins_balance
    (sent : bank.sendCoins sender recipient coins = .ok final)
    (address denom : String) :
    (final.balance address denom : Int) =
      bank.balance address denom -
        (if address = sender then Tally.amountOf coins denom else 0) +
        (if address = recipient then Tally.amountOf coins denom else 0) := by
  unfold sendCoins at sent
  split at sent
  · cases sent
  · rename_i invalid
    split at sent
    · rename_i funded
      have valid : coins.IsValid := not_not.mp invalid
      have nonneg := valid.amountOf_nonneg denom
      have covered := Coins.amountOf_le funded denom
      cases sent
      dsimp only
      split_ifs with isSender isRecipient isRecipient
      · subst isSender
        omega
      · subst isSender
        omega
      · omega
      · omega
    · cases sent

theorem sendCoins_valid
    (sent : bank.sendCoins sender recipient coins = .ok final) : coins.IsValid := by
  unfold sendCoins at sent
  split at sent
  · cases sent
  · rename_i invalid
    exact not_not.mp invalid

theorem sendCoins_total
    (valid : coins.IsValid)
    (funded : ∀ denom, Tally.amountOf coins denom ≤ bank.balance sender denom) :
    ∃ final, bank.sendCoins sender recipient coins = .ok final := by
  have covered : ∀ entry ∈ coins.entries, entry.2 ≤ bank.balance sender entry.1 := by
    rintro ⟨denom, amount⟩ member
    have found := (coins.mem_entries_iff denom amount).mp member
    exact Tally.amountOf_of_get? found ▸ funded denom
  unfold sendCoins
  rw [if_neg (not_not.mpr valid), if_pos covered]
  exact ⟨_, rfl⟩

theorem sendCoins_supply
    (sent : bank.sendCoins sender recipient coins = .ok final) :
    final.supply = bank.supply ∧ final.blockedAddr = bank.blockedAddr := by
  unfold sendCoins at sent
  split at sent
  · cases sent
  · split at sent
    · cases sent
      exact ⟨rfl, rfl⟩
    · cases sent

theorem sendCoinsFromModuleToAccount_eq_ok
    (sent : bank.sendCoinsFromModuleToAccount recipient coins = .ok final) :
    recipient ≠ moduleName ∧
      bank.sendCoins moduleName recipient coins = .ok final := by
  unfold sendCoinsFromModuleToAccount at sent
  split at sent
  · cases sent
  · rename_i allowed
    refine ⟨?_, sent⟩
    intro isModule
    rw [isModule, bank.moduleBlocked] at allowed
    exact allowed rfl

theorem mintCoins_eq_ok
    (minted : bank.mintCoins coins = .ok final) :
    coins.IsValid ∧
      (∀ address denom, (final.balance address denom : Int) =
        bank.balance address denom +
          (if address = moduleName then Tally.amountOf coins denom else 0)) ∧
      ∀ denom, (final.supply denom : Int) =
        bank.supply denom + Tally.amountOf coins denom := by
  unfold mintCoins at minted
  split at minted
  · cases minted
  · rename_i invalid
    have valid : coins.IsValid := not_not.mp invalid
    cases minted
    refine ⟨valid, ?_, ?_⟩
    · intro address denom
      have nonneg := valid.amountOf_nonneg denom
      dsimp only
      split_ifs <;> omega
    · intro denom
      have nonneg := valid.amountOf_nonneg denom
      dsimp only
      omega

theorem burnCoins_eq_ok
    (burned : bank.burnCoins coins = .ok final) :
    coins.IsValid ∧
      (∀ address denom, (final.balance address denom : Int) =
        bank.balance address denom -
          (if address = moduleName then Tally.amountOf coins denom else 0)) ∧
      ∀ denom, (final.supply denom : Int) =
        bank.supply denom - Tally.amountOf coins denom := by
  unfold burnCoins at burned
  split at burned
  · cases burned
  · rename_i invalid
    have valid : coins.IsValid := not_not.mp invalid
    split at burned
    · rename_i funded
      split at burned
      · rename_i supplied
        cases burned
        refine ⟨valid, ?_, ?_⟩
        · intro address denom
          have nonneg := valid.amountOf_nonneg denom
          have covered := Coins.amountOf_le funded denom
          dsimp only
          split_ifs with isModule
          · subst isModule
            omega
          · omega
        · intro denom
          have nonneg := valid.amountOf_nonneg denom
          have covered := Coins.amountOf_le supplied denom
          dsimp only
          omega
      · cases burned
    · cases burned

end Bank

end Neutron.Dex
