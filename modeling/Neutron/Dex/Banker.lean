import Neutron.Dex.MoveInvariant
import Neutron.Dex.Settlement

namespace Neutron.Dex

open Library PrecDec

/-! What the module account holds beyond the fractions it owes, and how payments change it. -/

namespace FractionalBalances

variable (balances : FractionalBalances) (address denom : String)

def owed : Int :=
  balances.total fun key amount => if (ofLex key).2 = denom then amount.i else 0

def of : PrecDec := Tally.amountOf balances (toLex (address, denom))

end FractionalBalances

variable {entries : List (String × PrecDec)} {new : BalanceMap}

section SetBalance

variable {balances : FractionalBalances} {address denom other : String} {amount : PrecDec}

theorem owed_setFractionalEntry (nonneg : 0 ≤ amount.i) :
    (setFractionalEntry balances address denom amount).owed other =
      balances.owed other +
        if denom = other then amount.i - (balances.of address denom).i else 0 := by
  have share : Entries.share
      (fun (key : String ×ₗ String) (amount : PrecDec) =>
        if (ofLex key).2 = other then amount.i else 0)
      (toLex (address, denom)) (balances.get? (toLex (address, denom))) =
      if denom = other then (balances.of address denom).i else 0 := by
    unfold FractionalBalances.of Tally.amountOf Entries.share
    by_cases same : denom = other <;>
      cases balances.get? (toLex (address, denom)) <;> simp [same]
  unfold setFractionalEntry FractionalBalances.owed
  split
  · rw [SortedStore.total_set, share]
    split_ifs <;> simp_all
    omega
  · rename_i notPositive
    have zero : amount.i = 0 := le_antisymm (not_lt.mp notPositive) nonneg
    rw [SortedStore.total_delete, share, zero]
    split_ifs <;> omega

theorem of_setFractionalEntry (nonneg : 0 ≤ amount.i) :
    (FractionalBalances.of (setFractionalEntry balances address denom amount)
      address other) =
      if other = denom then amount else balances.of address other := by
  have sameKey : toLex (address, other) = toLex (address, denom) ↔ other = denom := by
    simp
  unfold setFractionalEntry FractionalBalances.of Tally.amountOf
  split
  · rw [SortedStore.get?_set]
    by_cases same : other = denom <;> simp [same]
  · rename_i notPositive
    have zero : amount = 0 := PrecDec.ext (le_antisymm (not_lt.mp notPositive) nonneg)
    rw [SortedStore.get?_delete]
    by_cases same : other = denom <;> simp [same, zero]

theorem owed_foldl_setFractionalEntry
    (increasing : Entries.Increasing entries) (nonneg : ∀ entry ∈ entries, 0 ≤ entry.2.i)
    (balances : FractionalBalances) :
    FractionalBalances.owed (entries.foldl
      (fun stored entry => setFractionalEntry stored address entry.1 entry.2) balances)
      other = balances.owed other + (Entries.lookup other entries).elim 0
        fun amount => amount.i - (balances.of address other).i := by
  induction entries generalizing balances with
  | nil => simp [Entries.lookup]
  | cons entry rest ih =>
      obtain ⟨headBelow, restIncreasing⟩ := List.pairwise_cons.mp increasing
      have head := nonneg entry List.mem_cons_self
      rw [List.foldl_cons, ih restIncreasing
        (fun later member => nonneg later (List.mem_cons_of_mem _ member)),
        owed_setFractionalEntry head, of_setFractionalEntry head, Entries.lookup]
      by_cases same : other = entry.1
      · subst same
        rw [Entries.lookup_eq_none_of_lt headBelow]
        simp
      · rw [if_neg same, if_neg same, if_neg (Ne.symm same), add_zero]

theorem owed_setFractionalBalance (dex : DexState) (address other : String)
    (nonneg : ∀ {denom amount}, new.get? denom = some amount → 0 ≤ amount.i) :
    (setFractionalBalance dex address new).fractionalBalances.owed other =
      dex.fractionalBalances.owed other + (new.get? other).elim 0
        fun amount => amount.i - (dex.fractionalBalances.of address other).i := by
  refine owed_foldl_setFractionalEntry new.increasing ?_ _
  rintro ⟨denom, amount⟩ member
  exact nonneg ((new.mem_entries_iff denom amount).mp member)

end SetBalance

variable {balance : PrecDecCoins}

section GetBalance

variable {dex : DexState} {address : String} (denom : String)

variable {start : PrecDecCoins}

theorem addFractionalBalance_eq_ok {head : String}
    (ok : addFractionalBalance dex address start head = .ok balance) :
    0 ≤ (dex.fractionalBalances.of address head).i ∧
      Tally.amountOf balance denom = Tally.amountOf start denom +
        if denom = head then dex.fractionalBalances.of address denom else 0 := by
  unfold addFractionalBalance at ok
  split at ok
  · rename_i absent
    cases ok
    have zero : dex.fractionalBalances.of address head = 0 := by
      rw [FractionalBalances.of, Tally.amountOf, absent, Option.getD_none]
    refine ⟨by rw [zero]; exact le_refl 0, ?_⟩
    split_ifs with same
    · rw [same, zero, add_zero]
    · rw [add_zero]
  · rename_i stored found
    obtain ⟨coin, isCoin, ok⟩ := of_bind ok
    obtain ⟨_, nonneg, rfl⟩ := newPrecDecCoin_eq_ok_iff.mp isCoin
    cases ok
    have value : dex.fractionalBalances.of address head = stored :=
      Tally.amountOf_of_get? found
    refine ⟨value ▸ nonneg, ?_⟩
    rw [Tally.amountOf_add, PrecDecCoins.single, Tally.amountOf_set_empty]
    split_ifs with same
    · rw [same, value]
    · rfl

theorem foldlM_addFractionalBalance_eq_ok {denoms : List String} (nodup : denoms.Nodup)
    (ok : denoms.foldlM (addFractionalBalance dex address) start = .ok balance) :
    Tally.amountOf balance denom = Tally.amountOf start denom +
        (if denom ∈ denoms then dex.fractionalBalances.of address denom else 0) ∧
      (denom ∈ denoms → 0 ≤ (dex.fractionalBalances.of address denom).i) := by
  induction denoms generalizing start with
  | nil =>
      cases ok
      simp
  | cons head rest ih =>
      obtain ⟨notInRest, restNodup⟩ := List.nodup_cons.mp nodup
      rw [List.foldlM_cons] at ok
      obtain ⟨middle, first, ok⟩ := of_bind ok
      obtain ⟨amount, bound⟩ := ih restNodup ok
      obtain ⟨nonneg, turn⟩ := addFractionalBalance_eq_ok denom first
      rw [amount, turn]
      by_cases same : denom = head
      · subst same
        simp [notInRest, nonneg]
      · simpa [same] using bound

theorem getFractionalBalances_eq_ok {tokens : PrecDecCoins}
    (ok : getFractionalBalances dex address (tokens.entries.map Prod.fst) = .ok balance) :
    (∃ amount, tokens.get? denom = some amount ∧
      Tally.amountOf balance denom = dex.fractionalBalances.of address denom ∧
      0 ≤ (dex.fractionalBalances.of address denom).i) ∨
    (tokens.get? denom = none ∧ Tally.amountOf balance denom = 0) := by
  have nodup : (tokens.entries.map Prod.fst).Nodup := by
    rw [List.Nodup, List.pairwise_map]
    exact tokens.increasing.imp ne_of_lt
  obtain ⟨amount, bound⟩ := foldlM_addFractionalBalance_eq_ok denom nodup ok
  have listed : denom ∈ tokens.entries.map Prod.fst ↔
      ∃ amount, tokens.get? denom = some amount := by
    simp [← tokens.mem_entries_iff]
  rw [Tally.amountOf_empty, zero_add] at amount
  cases found : tokens.get? denom with
  | none =>
      have absent : denom ∉ tokens.entries.map Prod.fst := by
        rw [listed, found]
        simp
      exact .inr ⟨rfl, by rw [amount, if_neg absent]⟩
  | some token =>
      have present := listed.mpr ⟨token, found⟩
      exact .inl ⟨token, rfl, by rw [amount, if_pos present], bound present⟩

end GetBalance

def World.held (world : World) : Flow := fun denom =>
  world.bank.balance moduleName denom * precisionReuse -
    world.dex.fractionalBalances.owed denom

def PrecDecCoins.flow (tokens : PrecDecCoins) : Flow := fun denom =>
  (Tally.amountOf tokens denom).i

def PrecDecCoin.flow (coin : PrecDecCoin) : Flow := Flow.coin coin.denom coin.amount

theorem listed_entry_i (coins : List PrecDecCoin) (denom : String) :
    (Tally.listed denom (coins.map PrecDecCoin.entry)).i =
      (coins.map PrecDecCoin.flow).sum denom := by
  induction coins with
  | nil => rfl
  | cons coin rest ih =>
      rw [List.map_cons, List.map_cons, Tally.listed_cons, List.sum_cons, add_i, ih]
      by_cases same : coin.denom = denom
      · simp [PrecDecCoin.entry, PrecDecCoin.flow, Flow.coin, same]
      · simp [PrecDecCoin.entry, PrecDecCoin.flow, Flow.coin, same, Ne.symm same]

theorem sum_flow_filter_nonzero (coins : List PrecDecCoin) :
    ((coins.filter fun coin => ¬ coin.amount.IsZero).map PrecDecCoin.flow).sum =
      (coins.map PrecDecCoin.flow).sum := by
  induction coins with
  | nil => rfl
  | cons coin rest ih =>
      by_cases zero : coin.amount.IsZero
      · have nothing : coin.flow = 0 := by
          have isZero : coin.amount = zeroPrecDec := PrecDec.ext zero
          rw [PrecDecCoin.flow, isZero, Flow.coin_zero]
        simpa [zero, nothing] using ih
      · simpa [zero] using ih

theorem sum_flow_nonneg {coins : List PrecDecCoin}
    (nonneg : ∀ coin ∈ coins, 0 ≤ coin.amount.i) (denom : String) :
    0 ≤ (coins.map PrecDecCoin.flow).sum denom := by
  induction coins with
  | nil => exact le_refl 0
  | cons coin rest ih =>
      rw [List.map_cons, List.sum_cons]
      exact Int.add_nonneg (Flow.coin_nonneg (nonneg coin List.mem_cons_self) _ _)
        (ih fun other member => nonneg other (List.mem_cons_of_mem _ member))

theorem newPrecDecCoins_eq_ok {coins : List PrecDecCoin} {tokens : PrecDecCoins}
    (ok : newPrecDecCoins coins = .ok tokens) :
    tokens.flow = (coins.map PrecDecCoin.flow).sum ∧
      ∀ denom, 0 ≤ (Tally.amountOf tokens denom).i := by
  unfold newPrecDecCoins at ok
  dsimp only at ok
  split at ok
  · rename_i valid
    cases ok
    refine ⟨?_, fun denom => ?_⟩
    · funext denom
      rw [PrecDecCoins.flow, Tally.amountOf_ofList, listed_entry_i,
        sum_flow_filter_nonzero]
    · rw [Tally.amountOf_ofList, listed_entry_i]
      exact sum_flow_nonneg (fun coin member => le_of_lt (valid.2 coin member).2) denom
  · cases ok

theorem flow_single (coin : PrecDecCoin) : (PrecDecCoins.single coin).flow = coin.flow := by
  funext denom
  rw [PrecDecCoins.flow, PrecDecCoins.single, Tally.amountOf_set_empty]
  unfold PrecDecCoin.flow Flow.coin
  split <;> rfl

def Coins.flow (coins : Coins) : Flow := fun denom =>
  Tally.amountOf coins denom * precisionReuse

namespace Quote

/-- A quote for tokens: with `moved` of coins and the new fractions for those it has
read, what is held changes by `flow`. -/
structure Settles (quote : Quote) (tokens : PrecDecCoins) (moved flow : Flow) : Prop where
  nonneg : ∀ {denom amount}, quote.newBalance.get? denom = some amount → 0 ≤ amount.i
  listed : ∀ {denom amount}, quote.newBalance.get? denom = some amount →
    ∃ token, tokens.get? denom = some token
  covered : ∀ denom, moved denom - ((quote.newBalance.get? denom).elim 0 fun amount =>
    amount.i - (Tally.amountOf quote.read denom).i) = flow denom

variable (quote : Quote) (balances : FractionalBalances) (address : String)

def Reads : Prop :=
  ∀ {denom amount}, quote.newBalance.get? denom = some amount →
    Tally.amountOf quote.read denom = balances.of address denom

def Unspent (tokens : PrecDecCoins) : Prop :=
  ∀ entry ∈ tokens.entries,
    (Tally.amountOf quote.read entry.1).i ≤ (balances.of address entry.1).i

instance (tokens : PrecDecCoins) : Decidable (quote.Unspent balances address tokens) :=
  inferInstanceAs (Decidable (∀ entry ∈ tokens.entries, _))

end Quote

namespace Bank

variable {bank final : Bank} {coins : Coins}

theorem of_unlessEmpty_payOut {recipient : String}
    (ok : unlessEmpty coins bank (bank.sendCoinsFromModuleToAccount recipient coins) =
      .ok final) :
    final.supply = bank.supply ∧ ∀ denom, (final.balance moduleName denom : Int) =
      bank.balance moduleName denom - Tally.amountOf coins denom := by
  unfold unlessEmpty at ok
  split at ok
  · rename_i empty
    cases ok
    refine ⟨rfl, fun denom => ?_⟩
    rw [← Tally.listed_entries, empty, Tally.listed_nil, sub_zero]
  · obtain ⟨external, sent⟩ := sendCoinsFromModuleToAccount_eq_ok ok
    refine ⟨(sendCoins_supply sent).1, fun denom => ?_⟩
    rw [sendCoins_balance sent, if_pos rfl, if_neg external.symm, add_zero]

theorem of_unlessEmpty_payIn {sender : String} (external : sender ≠ moduleName)
    (ok : unlessEmpty coins bank (bank.sendCoinsFromAccountToModule sender coins) =
      .ok final) :
    final.supply = bank.supply ∧ ∀ denom, (final.balance moduleName denom : Int) =
      bank.balance moduleName denom + Tally.amountOf coins denom := by
  unfold unlessEmpty at ok
  split at ok
  · rename_i empty
    cases ok
    refine ⟨rfl, fun denom => ?_⟩
    rw [← Tally.listed_entries, empty, Tally.listed_nil, add_zero]
  · refine ⟨(sendCoins_supply ok).1, fun denom => ?_⟩
    rw [sendCoins_balance ok, if_pos rfl, if_neg external.symm, sub_zero]

end Bank

theorem amountOf_roundDownToWholeTokenAmounts (tokens : PrecDecCoins) (denom : String) :
    Tally.amountOf (roundDownToWholeTokenAmounts tokens).1 denom =
      (tokens.get? denom).elim 0 truncateInt := by
  have entries := Tally.listed_entries
    (tokens.mapValues fun _ amount => amount.truncateInt) denom
  refine (Tally.amountOf_ofList _ _).trans (entries.trans ?_)
  rw [Tally.amountOf, SortedStore.get?_mapValues]
  cases tokens.get? denom <;> rfl

theorem truncateInt_mul_le {amount : PrecDec} (nonneg : 0 ≤ amount.i) :
    amount.truncateInt * precisionReuse ≤ amount.i := by
  unfold truncateInt
  rw [Int.tdiv_eq_ediv_of_nonneg nonneg]
  exact Int.ediv_mul_le _ (by decide)

variable {dex : DexState}

theorem get?_add_fractionalBalances {address : String}
    {tokens : PrecDecCoins}
    (read : getFractionalBalances dex address (tokens.entries.map Prod.fst) =
      .ok balance) {denom : String} {amount : PrecDec}
    (found : (Tally.add balance tokens).get? denom = some amount) :
    (∃ token, tokens.get? denom = some token) ∧
      Tally.amountOf balance denom = dex.fractionalBalances.of address denom ∧
      0 ≤ (Tally.amountOf balance denom).i ∧
      amount = Tally.amountOf balance denom + Tally.amountOf tokens denom := by
  have nonzero := Tally.ofList_get?_ne_zero found
  have sum := Tally.amountOf_of_get? found
  rw [Tally.amountOf_add] at sum
  rcases getFractionalBalances_eq_ok denom read with
    ⟨token, isToken, isBalance, stored⟩ | ⟨absent, zero⟩
  · exact ⟨⟨token, isToken⟩, isBalance, isBalance ▸ stored, sum.symm⟩
  · have noToken : Tally.amountOf tokens denom = 0 := by
      rw [Tally.amountOf, absent, Option.getD_none]
    rw [zero, noToken, add_zero] at sum
    exact absurd sum.symm nonzero

theorem amountOf_eq_zero_of_add {address : String}
    {tokens : PrecDecCoins}
    (nonneg : ∀ denom, 0 ≤ (Tally.amountOf tokens denom).i)
    (read : getFractionalBalances dex address (tokens.entries.map Prod.fst) =
      .ok balance) {denom : String}
    (absent : (Tally.add balance tokens).get? denom = none) :
    (Tally.amountOf tokens denom).i = 0 := by
  have sum := Tally.amountOf_add balance tokens denom
  rw [Tally.amountOf, absent, Option.getD_none] at sum
  have units := congrArg PrecDec.i sum
  rw [zero_i, add_i] at units
  have token := nonneg denom
  rcases getFractionalBalances_eq_ok denom read with
    ⟨_, _, isBalance, stored⟩ | ⟨_, zero⟩
  · rw [isBalance] at units
    omega
  · rw [zero, zero_i] at units
    omega

theorem quoteOut_settles {address : String} {tokens : PrecDecCoins}
    (nonneg : ∀ denom, 0 ≤ (Tally.amountOf tokens denom).i) {quote : Quote}
    (ok : quoteOut dex address tokens = .ok quote) :
    quote.Settles tokens (-quote.coins.flow) (-tokens.flow) ∧
      quote.Reads dex.fractionalBalances address := by
  obtain ⟨balance, read, ok⟩ := of_bind ok
  obtain ⟨quoteRead, coins, newBalance⟩ := quote
  obtain ⟨rfl, isCoins, isNew⟩ := Quote.mk.inj (Except.ok.inj ok)
  have fraction (denom : String) : newBalance.get? denom =
      ((Tally.add balance tokens).get? denom).map fun amount =>
        amount - newPrecDecFromInt amount.truncateInt :=
    isNew ▸ SortedStore.get?_mapValues _ _ _
  refine ⟨⟨?_, ?_, ?_⟩, ?_⟩
  · intro denom amount found
    rw [fraction, Option.map_eq_some_iff] at found
    obtain ⟨sum, foundSum, rfl⟩ := found
    obtain ⟨_, _, stored, isSum⟩ := get?_add_fractionalBalances read foundSum
    have token := nonneg denom
    have sumNonneg : 0 ≤ sum.i := by
      rw [isSum, add_i]
      omega
    have below := truncateInt_mul_le sumNonneg
    rw [sub_i, newPrecDecFromInt_i]
    omega
  · intro denom amount found
    rw [fraction, Option.map_eq_some_iff] at found
    obtain ⟨sum, foundSum, _⟩ := found
    exact (get?_add_fractionalBalances read foundSum).1
  · intro denom
    have whole := (congrArg (Tally.amountOf · denom) isCoins.symm).trans
      (amountOf_roundDownToWholeTokenAmounts (Tally.add balance tokens) denom)
    simp only [Pi.neg_apply, Coins.flow, PrecDecCoins.flow]
    rw [fraction, whole]
    cases found : (Tally.add balance tokens).get? denom with
    | none =>
        have zero := amountOf_eq_zero_of_add nonneg read found
        simp [zero]
    | some sum =>
        have units := congrArg PrecDec.i (get?_add_fractionalBalances read found).2.2.2
        rw [add_i] at units
        simp only [Option.elim_some, Option.map_some, sub_i, newPrecDecFromInt_i]
        omega
  · intro denom amount found
    rw [fraction, Option.map_eq_some_iff] at found
    obtain ⟨sum, foundSum, _⟩ := found
    exact (get?_add_fractionalBalances read foundSum).2.1

theorem ceil_eq (amount : PrecDec) :
    amount.ceil.truncateInt * precisionReuse = amount.ceil.i ∧
      amount.i ≤ amount.ceil.i := by
  have unit : (precisionReuse : Int) ≠ 0 := by decide
  have split := Int.mul_tdiv_add_tmod amount.i precisionReuse
  have remainder := Int.tmod_lt_of_pos amount.i (by decide : (0 : Int) < precisionReuse)
  unfold ceil
  dsimp only
  split_ifs with whole
  · rw [truncateInt, newPrecDecFromInt_i, Int.mul_tdiv_cancel _ unit]
    rw [mul_comm] at split
    omega
  · rw [truncateInt, newPrecDecFromInt_i, Int.mul_tdiv_cancel _ unit, Int.add_mul]
    rw [mul_comm] at split
    omega

theorem settleDebt_spec {amount debt : PrecDec} :
    0 ≤ (settleDebt amount debt).2.i ∧
      (settleDebt amount debt).1 * precisionReuse - (settleDebt amount debt).2.i =
        amount.i - debt.i := by
  unfold settleDebt
  split
  · rename_i covered
    rw [le_def] at covered
    dsimp only
    rw [sub_i]
    omega
  · rename_i uncovered
    rw [le_def] at uncovered
    obtain ⟨whole, above⟩ := ceil_eq (amount - debt)
    dsimp only
    rw [sub_i, whole]
    rw [sub_i] at above ⊢
    omega

theorem mapM_newCoin_eq_ok
    {pays : String × PrecDec → Int} {coins : List Coin}
    (ok : (entries.mapM fun entry => newCoin entry.1 (pays entry)) = .ok coins) :
    (coins.map fun coin => (coin.denom, coin.amount)) =
      entries.map fun entry => (entry.1, pays entry) := by
  have turns := Outcome.forall₂_of_mapM_eq_ok ok
  clear ok
  induction turns with
  | nil => rfl
  | cons first _ ih => rw [List.map_cons, List.map_cons, newCoin_eq_ok first, ih]

theorem calcUserSendMinusDebts_eq_ok {amountToSend debts : PrecDecCoins} {coins : Coins}
    (ok : calcUserSendMinusDebts amountToSend debts = .ok (coins, new))
    (denom : String) :
    Tally.amountOf coins denom = ((amountToSend.get? denom).elim 0 fun amount =>
        (settleDebt amount (Tally.amountOf debts denom)).1) ∧
      new.get? denom = (amountToSend.get? denom).map fun amount =>
        (settleDebt amount (Tally.amountOf debts denom)).2 := by
  obtain ⟨paid, pays, ok⟩ := of_bind ok
  cases ok
  refine ⟨?_, SortedStore.get?_mapValues _ _ _⟩
  have listed := Tally.listed_entries (amountToSend.mapValues fun denom amount =>
    (settleDebt amount (Tally.amountOf debts denom)).1) denom
  rw [Tally.amountOf_ofList, mapM_newCoin_eq_ok pays]
  refine listed.trans ?_
  rw [Tally.amountOf, SortedStore.get?_mapValues]
  cases amountToSend.get? denom <;> rfl

theorem quoteIn_settles {address : String} {tokens : PrecDecCoins}
    {quote : Quote} (ok : quoteIn dex address tokens = .ok quote) :
    quote.Settles tokens quote.coins.flow tokens.flow ∧
      quote.Reads dex.fractionalBalances address := by
  obtain ⟨balance, read, ok⟩ := of_bind ok
  obtain ⟨⟨coins, new⟩, settle, ok⟩ := of_bind ok
  cases ok
  refine ⟨⟨?_, ?_, ?_⟩, ?_⟩
  · intro denom amount found
    rw [(calcUserSendMinusDebts_eq_ok settle denom).2, Option.map_eq_some_iff] at found
    obtain ⟨token, _, rfl⟩ := found
    exact settleDebt_spec.1
  · intro denom amount found
    rw [(calcUserSendMinusDebts_eq_ok settle denom).2, Option.map_eq_some_iff] at found
    obtain ⟨token, isToken, _⟩ := found
    exact ⟨token, isToken⟩
  · intro denom
    obtain ⟨pays, newBalance⟩ := calcUserSendMinusDebts_eq_ok settle denom
    simp only [Coins.flow, PrecDecCoins.flow]
    rw [pays, newBalance]
    cases found : tokens.get? denom with
    | none =>
        have noToken : Tally.amountOf tokens denom = 0 := by
          rw [Tally.amountOf, found, Option.getD_none]
        simp [noToken]
    | some token =>
        have settled := (@settleDebt_spec token (Tally.amountOf balance denom)).2
        rw [Tally.amountOf_of_get? found]
        simp only [Option.elim_some, Option.map_some]
        omega
  · intro denom amount found
    rw [(calcUserSendMinusDebts_eq_ok settle denom).2, Option.map_eq_some_iff] at found
    obtain ⟨token, isToken, _⟩ := found
    rcases getFractionalBalances_eq_ok denom read with
      ⟨_, _, isBalance, _⟩ | ⟨absent, _⟩
    · exact isBalance
    · rw [absent] at isToken
      cases isToken

namespace Quote.Settles

variable {quote : Quote} {tokens : PrecDecCoins} {moved flow : Flow} {world : World}
  {address : String} {bank : Bank}

theorem held (settles : quote.Settles tokens moved flow)
    (credited : ∀ denom, (bank.balance moduleName denom * precisionReuse : Int) =
      world.bank.balance moduleName denom * precisionReuse + moved denom)
    (denom : String) :
    World.held { world with
        bank := bank
        dex := setFractionalBalance world.dex address quote.newBalance } denom =
      world.held denom + flow denom + (quote.newBalance.get? denom).elim 0 fun _ =>
        (world.dex.fractionalBalances.of address denom).i -
          (Tally.amountOf quote.read denom).i := by
  have owed := owed_setFractionalBalance world.dex address denom settles.nonneg
  have covered := settles.covered denom
  unfold World.held
  rw [owed, credited]
  cases found : quote.newBalance.get? denom with
  | none =>
      rw [found] at covered
      simp only [Option.elim_none] at covered ⊢
      omega
  | some amount =>
      rw [found] at covered
      simp only [Option.elim_some] at covered ⊢
      omega

theorem held_of_reads (settles : quote.Settles tokens moved flow)
    (reads : quote.Reads world.dex.fractionalBalances address)
    (credited : ∀ denom, (bank.balance moduleName denom * precisionReuse : Int) =
      world.bank.balance moduleName denom * precisionReuse + moved denom) :
    World.held { world with
        bank := bank
        dex := setFractionalBalance world.dex address quote.newBalance } =
      world.held + flow := by
  funext denom
  rw [settles.held credited denom, Pi.add_apply]
  cases found : quote.newBalance.get? denom with
  | none => exact add_zero _
  | some amount =>
      rw [Option.elim_some, reads found, sub_self, add_zero]

theorem held_of_unspent (settles : quote.Settles tokens moved flow)
    (unspent : quote.Unspent world.dex.fractionalBalances address tokens)
    (credited : ∀ denom, (bank.balance moduleName denom * precisionReuse : Int) =
      world.bank.balance moduleName denom * precisionReuse + moved denom) :
    world.held + flow ≤ World.held { world with
        bank := bank
        dex := setFractionalBalance world.dex address quote.newBalance } := by
  intro denom
  rw [settles.held credited denom, Pi.add_apply]
  cases found : quote.newBalance.get? denom with
  | none => exact (add_zero _).ge
  | some amount =>
      obtain ⟨token, isToken⟩ := settles.listed found
      have kept := unspent _ ((tokens.mem_entries_iff denom token).mpr isToken)
      rw [Option.elim_some]
      exact le_add_of_nonneg_right (sub_nonneg.mpr kept)

end Quote.Settles

theorem burnShares_eq_ok {bank final : Bank} {address : String} {shares : Coins}
    (external : address ≠ moduleName)
    (ok : burnShares bank address shares = .ok final) :
    (∀ denom, final.balance moduleName denom = bank.balance moduleName denom) ∧
      ∀ denom, (final.supply denom : Int) =
        bank.supply denom - Tally.amountOf shares denom := by
  obtain ⟨collected, sent, ok⟩ := of_bind ok
  obtain ⟨_, debited, supplied⟩ := Bank.burnCoins_eq_ok ok
  refine ⟨fun denom => ?_, fun denom => ?_⟩
  · have balance := debited moduleName denom
    rw [if_pos rfl, Bank.sendCoins_balance sent, if_pos rfl, if_neg external.symm] at balance
    omega
  · rw [supplied, (Bank.sendCoins_supply sent).1]

end Neutron.Dex
