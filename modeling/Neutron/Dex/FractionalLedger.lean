import Mathlib.Algebra.Order.Floor.Ring
import Mathlib.Data.Rat.Floor
import Neutron.Dex.TransferSpec

namespace Neutron.Dex

open Library PrecDec

/-! Payments through the fractional banker, from the side of one account. -/

inductive Payment where
  /-- `SendFractionalCoinsFromAccountToDex`. -/
  | toDex (address : String) (tokens : PrecDecCoins)
  /-- `SendFractionalCoinsFromDexToAccount`. -/
  | toAccount (address : String) (tokens : PrecDecCoins)

namespace Payment

variable (world : World) (denom : String)

def address : Payment → String
  | .toDex address _ | .toAccount address _ => address

def tokens : Payment → PrecDecCoins
  | .toDex _ tokens | .toAccount _ tokens => tokens

def Nonneg (payment : Payment) : Prop := ∀ entry ∈ payment.tokens.entries, 0 ≤ entry.2.i

instance (payment : Payment) : Decidable payment.Nonneg :=
  inferInstanceAs (Decidable (∀ entry ∈ payment.tokens.entries, 0 ≤ entry.2.i))

def send : Payment → Outcome World
  | .toDex address tokens => sendFractionalCoinsFromAccountToDex world address tokens
  | .toAccount address tokens => sendFractionalCoinsFromDexToAccount world address tokens

def quote : Payment → Outcome Quote
  | .toDex address tokens => quoteIn world.dex address tokens
  | .toAccount address tokens => quoteOut world.dex address tokens

def sign : Payment → Int
  | .toDex _ _ => 1
  | .toAccount _ _ => -1

def exact (payment : Payment) : Int :=
  payment.sign * (Tally.amountOf payment.tokens denom).i

def whole (payment : Payment) : Int :=
  payment.sign * match payment.quote world with
    | .error _ => 0
    | .ok quote => Tally.amountOf quote.coins denom

end Payment

/-- The world, with what one account has paid of one denom less what it has received:
in whole coins, and exactly. -/
structure Ledger where
  world : World
  paid : Int
  due : Int

def Ledger.pay (address denom : String) (ledger : Ledger) (payment : Payment) : Ledger :=
  match payment.send ledger.world with
  | .error _ => ledger
  | .ok next =>
      if payment.address = address then
        ⟨next, ledger.paid + payment.whole ledger.world denom,
          ledger.due + payment.exact denom⟩
      else { ledger with world := next }

variable {dex : DexState}

section Stored

variable {address other denom otherDenom : String} {amount : PrecDec}

theorem of_setFractionalEntry_of_ne (balances : FractionalBalances)
    (different : toLex (other, otherDenom) ≠ toLex (address, denom)) :
    FractionalBalances.of (setFractionalEntry balances address denom amount) other
      otherDenom = balances.of other otherDenom := by
  unfold setFractionalEntry FractionalBalances.of Tally.amountOf
  split
  · rw [SortedStore.get?_set_of_ne _ _ different]
  · rw [SortedStore.get?_delete_of_ne _ different]

theorem of_foldl_setFractionalEntry {entries : List (String × PrecDec)}
    (increasing : Entries.Increasing entries) (nonneg : ∀ entry ∈ entries, 0 ≤ entry.2.i)
    (balances : FractionalBalances) :
    FractionalBalances.of (entries.foldl
      (fun stored entry => setFractionalEntry stored address entry.1 entry.2) balances)
      address denom = (Entries.lookup denom entries).getD (balances.of address denom) := by
  induction entries generalizing balances with
  | nil => rfl
  | cons entry rest ih =>
      obtain ⟨headBelow, restIncreasing⟩ := List.pairwise_cons.mp increasing
      have head := nonneg entry List.mem_cons_self
      rw [List.foldl_cons, ih restIncreasing
        (fun later member => nonneg later (List.mem_cons_of_mem _ member)),
        of_setFractionalEntry head, Entries.lookup]
      by_cases same : denom = entry.1
      · subst same
        rw [Entries.lookup_eq_none_of_lt headBelow, if_pos rfl, if_pos rfl]
        rfl
      · rw [if_neg same, if_neg same]

variable {new : BalanceMap}

theorem of_setFractionalBalance {dex : DexState} {new : BalanceMap}
    (nonneg : ∀ {denom amount}, new.get? denom = some amount → 0 ≤ amount.i) :
    (setFractionalBalance dex address new).fractionalBalances.of address denom =
      (new.get? denom).getD (dex.fractionalBalances.of address denom) := by
  refine of_foldl_setFractionalEntry new.increasing ?_ _
  rintro ⟨denom, amount⟩ member
  exact nonneg ((new.mem_entries_iff denom amount).mp member)

theorem of_setFractionalBalance_of_ne {dex : DexState} {new : BalanceMap}
    (different : other ≠ address) :
    (setFractionalBalance dex address new).fractionalBalances.of other denom =
      dex.fractionalBalances.of other denom := by
  unfold setFractionalBalance
  dsimp only
  generalize dex.fractionalBalances = balances
  induction new.entries generalizing balances with
  | nil => rfl
  | cons entry rest ih =>
      rw [List.foldl_cons, ih, of_setFractionalEntry_of_ne]
      exact fun same => different (congrArg Prod.fst (toLex_inj.mp same))

end Stored

theorem ceil_lt (amount : PrecDec) : amount.ceil.i < amount.i + precisionReuse := by
  have split := Int.mul_tdiv_add_tmod amount.i precisionReuse
  have remainder := Int.lt_tmod_of_pos amount.i (by decide : (0 : Int) < precisionReuse)
  rw [mul_comm] at split
  unfold ceil
  dsimp only
  split_ifs with whole
  · rw [newPrecDecFromInt_i]
    have positive : (0 : Int) < precisionReuse := by decide
    omega
  · rw [newPrecDecFromInt_i, Int.add_mul]
    omega

theorem settleDebt_lt {amount debt : PrecDec} (nonneg : 0 ≤ amount.i)
    (fraction : debt.i < precisionReuse) : (settleDebt amount debt).2.i < precisionReuse := by
  unfold settleDebt
  split
  · dsimp only
    rw [sub_i]
    omega
  · have below := ceil_lt (amount - debt)
    dsimp only
    rw [sub_i]
    omega

/-- What a quote says of one denom: the stored fraction it starts from and the new one,
which differ by what is paid in whole coins and not owed. -/
structure Quote.Exact (quote : Quote) (sign : Int) (tokens : PrecDecCoins)
    (fraction : PrecDec) (denom : String) : Prop where
  nonneg : ∀ {denom amount}, quote.newBalance.get? denom = some amount → 0 ≤ amount.i
  below : ∀ {amount}, quote.newBalance.get? denom = some amount → amount.i < precisionReuse
  balanced : ((quote.newBalance.get? denom).getD fraction).i =
    fraction.i + (sign * Tally.amountOf quote.coins denom) * precisionReuse -
      sign * (Tally.amountOf tokens denom).i

variable {sign : Int} {tokens : PrecDecCoins}

theorem Quote.Exact.fraction {quote : Quote}
    {fraction : PrecDec} {denom : String} (exact : quote.Exact sign tokens fraction denom)
    (nonneg : 0 ≤ fraction.i) (below : fraction.i < precisionReuse) :
    0 ≤ ((quote.newBalance.get? denom).getD fraction).i ∧
      ((quote.newBalance.get? denom).getD fraction).i < precisionReuse := by
  cases found : quote.newBalance.get? denom with
  | none => exact ⟨nonneg, below⟩
  | some amount => exact ⟨exact.nonneg found, exact.below found⟩

theorem Quote.Settles.balanced {quote : Quote} {moved flow : Flow}
    (settles : quote.Settles tokens moved flow) {balances : FractionalBalances}
    {address denom : String} (reads : quote.Reads balances address)
    (isMoved : moved denom = sign * Tally.amountOf quote.coins denom * precisionReuse)
    (isFlow : flow denom = sign * (Tally.amountOf tokens denom).i) :
    ((quote.newBalance.get? denom).getD (balances.of address denom)).i =
      (balances.of address denom).i +
        (sign * Tally.amountOf quote.coins denom) * precisionReuse -
          sign * (Tally.amountOf tokens denom).i := by
  have covered := settles.covered denom
  rw [isMoved, isFlow] at covered
  cases found : quote.newBalance.get? denom with
  | none =>
      rw [found, Option.elim_none] at covered
      rw [Option.getD_none]
      omega
  | some amount =>
      rw [found, Option.elim_some, reads found] at covered
      rw [Option.getD_some]
      omega

theorem quoteIn_below {address denom : String}
    {quote : Quote} (nonneg : 0 ≤ (Tally.amountOf tokens denom).i)
    (fraction : (dex.fractionalBalances.of address denom).i < precisionReuse)
    (ok : quoteIn dex address tokens = .ok quote) {amount : PrecDec}
    (found : quote.newBalance.get? denom = some amount) : amount.i < precisionReuse := by
  have read := (quoteIn_settles ok).2 found
  obtain ⟨balance, _, ok⟩ := of_bind ok
  obtain ⟨⟨coins, new⟩, settle, ok⟩ := of_bind ok
  cases ok
  rw [(calcUserSendMinusDebts_eq_ok settle denom).2, Option.map_eq_some_iff] at found
  obtain ⟨token, isToken, rfl⟩ := found
  rw [Tally.amountOf_of_get? isToken] at nonneg
  exact settleDebt_lt nonneg (read ▸ fraction)

theorem quoteOut_below {address denom : String}
    {quote : Quote} (ok : quoteOut dex address tokens = .ok quote) {amount : PrecDec}
    (found : quote.newBalance.get? denom = some amount) : amount.i < precisionReuse := by
  obtain ⟨balance, _, ok⟩ := of_bind ok
  obtain ⟨_, _, isNew⟩ := Quote.mk.inj (Except.ok.inj ok)
  rw [← isNew, SortedStore.get?_mapValues, Option.map_eq_some_iff] at found
  obtain ⟨sum, _, rfl⟩ := found
  have split := Int.mul_tdiv_add_tmod sum.i precisionReuse
  have remainder := Int.tmod_lt_of_pos sum.i (by decide : (0 : Int) < precisionReuse)
  rw [mul_comm] at split
  rw [sub_i, newPrecDecFromInt_i, truncateInt]
  omega

namespace Payment

variable {payment : Payment} {world next : World} {denom : String}

theorem Nonneg.amountOf (nonneg : payment.Nonneg) (denom : String) :
    0 ≤ (Tally.amountOf payment.tokens denom).i := by
  unfold Tally.amountOf
  cases found : payment.tokens.get? denom with
  | none => exact le_refl _
  | some amount => exact nonneg _ ((payment.tokens.mem_entries_iff denom amount).mpr found)

theorem quote_nonneg (nonneg : payment.Nonneg) {quote : Quote}
    (quoted : payment.quote world = .ok quote) {amount : PrecDec}
    (found : quote.newBalance.get? denom = some amount) : 0 ≤ amount.i := by
  cases payment with
  | toDex address tokens => exact (quoteIn_settles quoted).1.nonneg found
  | toAccount address tokens =>
      exact (quoteOut_settles nonneg.amountOf quoted).1.nonneg found

theorem quote_balanced (nonneg : payment.Nonneg) {quote : Quote}
    (quoted : payment.quote world = .ok quote) (denom : String) :
    ((quote.newBalance.get? denom).getD
        (world.dex.fractionalBalances.of payment.address denom)).i =
      (world.dex.fractionalBalances.of payment.address denom).i +
        (payment.sign * Tally.amountOf quote.coins denom) * precisionReuse -
          payment.exact denom := by
  cases payment with
  | toDex address tokens =>
      obtain ⟨settles, reads⟩ := quoteIn_settles quoted
      refine settles.balanced reads ?_ ?_
      · rw [sign, one_mul, Coins.flow]
      · rw [sign, one_mul]
        rfl
  | toAccount address tokens =>
      obtain ⟨settles, reads⟩ := quoteOut_settles nonneg.amountOf quoted
      refine settles.balanced reads ?_ ?_
      · rw [sign, Pi.neg_apply, Coins.flow, neg_one_mul, neg_mul]
      · rw [sign, Pi.neg_apply, neg_one_mul]
        rfl

theorem quote_below (nonneg : payment.Nonneg) {quote : Quote}
    (quoted : payment.quote world = .ok quote)
    (fraction : (world.dex.fractionalBalances.of payment.address denom).i < precisionReuse)
    {amount : PrecDec} (found : quote.newBalance.get? denom = some amount) :
    amount.i < precisionReuse := by
  cases payment with
  | toDex address tokens =>
      exact quoteIn_below (nonneg.amountOf denom) fraction quoted found
  | toAccount address tokens => exact quoteOut_below quoted found

theorem quote_exact (nonneg : payment.Nonneg) {quote : Quote}
    (quoted : payment.quote world = .ok quote)
    (fraction : (world.dex.fractionalBalances.of payment.address denom).i < precisionReuse) :
    quote.Exact payment.sign payment.tokens
      (world.dex.fractionalBalances.of payment.address denom) denom :=
  ⟨quote_nonneg nonneg quoted, quote_below nonneg quoted fraction,
    quote_balanced nonneg quoted denom⟩

theorem send_eq_ok (ok : payment.send world = .ok next) :
    ∃ quote bank, payment.quote world = .ok quote ∧
      next = { world with
        bank := bank
        dex := setFractionalBalance world.dex payment.address quote.newBalance } ∧
      ∀ other, other ≠ moduleName → (bank.balance other denom : Int) =
        world.bank.balance other denom -
          if payment.address = other then
            payment.sign * Tally.amountOf quote.coins denom else 0 := by
  cases payment with
  | toDex address tokens =>
      rw [send, ← Transfer.run_payIn] at ok
      obtain ⟨⟨pending, begun⟩, began, ok⟩ := of_bind ok
      obtain ⟨quote, quoted, began⟩ := of_bind began
      cases began
      obtain ⟨bank, sent, ok⟩ := of_bind ok
      cases ok
      refine ⟨quote, bank, quoted, rfl, fun other external => ?_⟩
      unfold unlessEmpty at sent
      split at sent
      · rename_i empty
        cases sent
        rw [← Tally.listed_entries, empty, Tally.listed_nil, mul_zero, ite_self, sub_zero]
      · rw [Bank.sendCoins_balance sent, if_neg external, add_zero]
        simp only [Payment.address, sign, one_mul, eq_comm]
  | toAccount address tokens =>
      rw [send, ← Transfer.run_payOut] at ok
      obtain ⟨⟨pending, begun⟩, began, ok⟩ := of_bind ok
      obtain ⟨quote, quoted, began⟩ := of_bind began
      cases began
      obtain ⟨bank, sent, ok⟩ := of_bind ok
      cases ok
      refine ⟨quote, bank, quoted, rfl, fun other external => ?_⟩
      unfold unlessEmpty at sent
      split at sent
      · rename_i empty
        cases sent
        rw [← Tally.listed_entries, empty, Tally.listed_nil, mul_zero, ite_self, sub_zero]
      · obtain ⟨_, sent⟩ := Bank.sendCoinsFromModuleToAccount_eq_ok sent
        rw [Bank.sendCoins_balance sent, if_neg external, sub_zero]
        by_cases same : address = other
        · simp [Payment.address, sign, same]
        · simp [Payment.address, same, Ne.symm same]

end Payment

/-- What an account owns of a denom, in units of `10^-27`: its coins, and the fraction
that the module owes it. -/
def World.wealth (world : World) (address denom : String) : Int :=
  world.bank.balance address denom * precisionReuse +
    (world.dex.fractionalBalances.of address denom).i

theorem Payment.send_wealth {payment : Payment} {world next : World}
    (nonneg : payment.Nonneg) (ok : payment.send world = .ok next) {address : String}
    (external : address ≠ moduleName) (denom : String) :
    next.wealth address denom = world.wealth address denom -
      if payment.address = address then payment.exact denom else 0 := by
  obtain ⟨quote, bank, quoted, rfl, moved⟩ := @send_eq_ok _ _ _ denom ok
  unfold World.wealth
  dsimp only
  rw [moved address external]
  split
  · rename_i same
    subst same
    rw [of_setFractionalBalance (quote_nonneg nonneg quoted),
      quote_balanced nonneg quoted denom, Int.sub_mul]
    omega
  · rename_i different
    rw [of_setFractionalBalance_of_ne (Ne.symm different), sub_zero, sub_zero]

/-- A ledger that started from a zero fraction: the fraction stored is what was paid
too much, and less than one coin. -/
structure Ledger.Exact (address denom : String) (start : Nat) (ledger : Ledger) : Prop where
  nonneg : 0 ≤ (ledger.world.dex.fractionalBalances.of address denom).i
  below : (ledger.world.dex.fractionalBalances.of address denom).i < precisionReuse
  balanced : (ledger.world.dex.fractionalBalances.of address denom).i =
    ledger.paid * precisionReuse - ledger.due
  bank : address ≠ moduleName →
    (start : Int) - ledger.world.bank.balance address denom = ledger.paid

namespace Ledger

variable {address denom : String} {start : Nat} {ledger : Ledger} {payment : Payment}

theorem pay_exact (exact : ledger.Exact address denom start) (nonneg : payment.Nonneg) :
    (ledger.pay address denom payment).Exact address denom start := by
  unfold Ledger.pay
  cases sent : payment.send ledger.world with
  | error failure => exact exact
  | ok next =>
      obtain ⟨quote, bank, quoted, rfl, moved⟩ := @Payment.send_eq_ok _ _ _ denom sent
      dsimp only
      split
      · rename_i same
        subst same
        have quoteExact := Payment.quote_exact nonneg quoted exact.below
        have stored := @of_setFractionalBalance payment.address denom ledger.world.dex
          quote.newBalance quoteExact.nonneg
        have whole : payment.whole ledger.world denom =
            payment.sign * Tally.amountOf quote.coins denom := by
          rw [Payment.whole, quoted]
        obtain ⟨newNonneg, newBelow⟩ := quoteExact.fraction exact.nonneg exact.below
        refine ⟨stored ▸ newNonneg, stored ▸ newBelow, ?_, fun external => ?_⟩ <;> dsimp only
        · rw [stored, quoteExact.balanced, exact.balanced, whole, Payment.exact, Int.add_mul]
          omega
        · have paid := exact.bank external
          rw [moved _ external, if_pos rfl, whole]
          omega
      · rename_i different
        have stored := @of_setFractionalBalance_of_ne payment.address address denom
          ledger.world.dex quote.newBalance (Ne.symm different)
        refine ⟨stored ▸ exact.nonneg, stored ▸ exact.below, stored ▸ exact.balanced,
          fun external => ?_⟩
        dsimp only
        rw [moved _ external, if_neg different, sub_zero]
        exact exact.bank external

end Ledger

theorem eq_ceil_of_fraction {paid due : Int} (nonneg : 0 ≤ paid * precisionReuse - due)
    (below : paid * precisionReuse - due < precisionReuse) :
    paid = ⌈(due : ℚ) / precisionReuse⌉ := by
  have positive : (0 : ℚ) < precisionReuse := by
    exact_mod_cast (by decide : 0 < precisionReuse)
  symm
  rw [Int.ceil_eq_iff, lt_div_iff₀ positive, div_le_iff₀ positive]
  constructor
  · have scaled : (paid - 1) * precisionReuse < due := by
      rw [Int.sub_mul]
      omega
    exact_mod_cast scaled
  · have scaled : due ≤ paid * precisionReuse := by omega
    exact_mod_cast scaled

/-- Payments in any order, of any accounts and denoms, of which some fail: an account that
starts without a fraction of a denom has paid, in whole coins less those it has received,
the exact amount rounded up, and its fraction is the difference. -/
theorem fractionalBanking_exact {start : World} {address denom : String}
    (zero : start.dex.fractionalBalances.of address denom = 0) {payments : List Payment}
    (nonneg : ∀ payment ∈ payments, payment.Nonneg) :
    let final := Machine.run (Ledger.pay address denom) ⟨start, 0, 0⟩ payments
    let fraction := (final.world.dex.fractionalBalances.of address denom).i
    (0 ≤ fraction ∧ fraction < precisionReuse) ∧
      final.paid = ⌈(final.due : ℚ) / precisionReuse⌉ ∧
      fraction = final.paid * precisionReuse - final.due ∧
      (address ≠ moduleName → (start.bank.balance address denom : Int) -
        final.world.bank.balance address denom = final.paid) := by
  have begins : Ledger.Exact address denom (start.bank.balance address denom)
      ⟨start, 0, 0⟩ := by
    refine ⟨?_, ?_, ?_, fun _ => sub_self _⟩ <;> dsimp only <;> rw [zero]
    · exact le_refl _
    · decide
    · rfl
  have exact := @Machine.Allowed.invariant _ _ (Ledger.pay address denom) _
    (Ledger.Exact address denom (start.bank.balance address denom))
    (fun _ _ exact nonneg => Ledger.pay_exact exact nonneg) _ _ begins
    (Machine.allowed_of_forall nonneg)
  have below := exact.balanced ▸ exact.below
  have above := exact.balanced ▸ exact.nonneg
  exact ⟨⟨exact.nonneg, exact.below⟩, eq_ceil_of_fraction above below, exact.balanced,
    exact.bank⟩

def paidAndReturned : List Payment :=
  [.toDex "alice" (PrecDecCoins.single ⟨"uatom", ⟨15 * 10 ^ 26⟩⟩),
    .toAccount "alice" (PrecDecCoins.single ⟨"uatom", ⟨7 * 10 ^ 26⟩⟩)]

theorem fractionalBanking_exact_paidAndReturned :
    let final := Machine.run (Ledger.pay "alice" "uatom") ⟨openWorld, 0, 0⟩ paidAndReturned
    (final.paid = 1 ∧ final.due = 8 * 10 ^ 26) ∧
      final.paid = ⌈(final.due : ℚ) / precisionReuse⌉ :=
  ⟨by decide +kernel, (fractionalBanking_exact rfl (by decide)).2.1⟩

end Neutron.Dex
