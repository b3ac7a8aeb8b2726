import Mathlib.Data.List.Nodup
import Neutron.Dex.Banker

namespace Neutron.Dex

open Library PrecDec

/-! Fractional balances under the texts of their keys. -/

/-- An account address; its text is bech32, which has no separators in it. -/
structure AccAddress where
  text : String
  noSlash : '/' ∉ text.toList

abbrev RawBalances := SortedStore String PrecDec

def fractionalBalanceKey (address denom : String) : String :=
  address ++ "/" ++ denom ++ "/"

/-- One store write of `SetFractionalBalance`. -/
def setRawEntry (raw : RawBalances) (address denom : String) (amount : PrecDec) :
    RawBalances :=
  if amount.IsPositive then
    raw.set (fractionalBalanceKey address denom) amount
  else
    raw.delete (fractionalBalanceKey address denom)

def setRawBalance (raw : RawBalances) (address : String) (balances : BalanceMap) :
    RawBalances :=
  balances.entries.foldl (fun raw entry => setRawEntry raw address entry.1 entry.2) raw

/-- `strings.Split(key, "/")[1]`. -/
def denomOfKey (key : String) : Outcome String :=
  match (key.toList.splitOn '/')[1]? with
  | none => abort .indexOutOfRange
  | some denom => pure (String.ofList denom)

/-- One turn of the loop in `GetAllFractionalBalances`. -/
def addRawBalance (balances : PrecDecCoins) (record : String × PrecDec) :
    Outcome PrecDecCoins := do
  let denom ← denomOfKey record.1
  let coin ← newPrecDecCoin denom record.2
  pure (Tally.add balances (PrecDecCoins.single coin))

def getAllFractionalBalances (raw : RawBalances) : Outcome PrecDecCoins :=
  raw.entries.foldlM addRawBalance SortedStore.empty

theorem toList_fractionalBalanceKey (address denom : String) :
    (fractionalBalanceKey address denom).toList =
      address.toList ++ '/' :: (denom.toList ++ ['/']) := by
  simp [fractionalBalanceKey]

theorem fractionalBalanceKey_inj {address other denom otherDenom : String}
    (noSlash : '/' ∉ address.toList) (otherNoSlash : '/' ∉ other.toList) :
    fractionalBalanceKey address denom = fractionalBalanceKey other otherDenom ↔
      toLex (address, denom) = toLex (other, otherDenom) := by
  rw [toLex_inj, Prod.mk.injEq]
  constructor
  · intro same
    have texts := congrArg String.toList same
    rw [toList_fractionalBalanceKey, toList_fractionalBalanceKey] at texts
    have segments := congrArg (List.splitOn '/') texts
    rw [List.splitOn_append_cons_self_of_not_mem noSlash,
      List.splitOn_append_cons_self_of_not_mem otherNoSlash] at segments
    have sameAddress := String.toList_inj.mp (List.cons_eq_cons.mp segments).1
    rw [sameAddress] at texts
    have rest := (List.cons_eq_cons.mp (List.append_cancel_left texts)).2
    exact ⟨sameAddress, String.toList_inj.mp (List.append_cancel_right rest)⟩
  · rintro ⟨rfl, rfl⟩
    rfl

theorem denomOfKey_fractionalBalanceKey {address : String} (noSlash : '/' ∉ address.toList)
    (denom : String) :
    ∃ read, denomOfKey (fractionalBalanceKey address denom) = .ok read ∧
      '/' ∉ read.toList ∧ ('/' ∉ denom.toList → read = denom) := by
  unfold denomOfKey
  rw [toList_fractionalBalanceKey, List.splitOn_append_cons_self_of_not_mem noSlash]
  by_cases separated : '/' ∈ denom.toList
  · obtain ⟨before, after, isDenom, unseparated⟩ := List.eq_append_cons_of_mem separated
    rw [isDenom, List.append_assoc, List.cons_append,
      List.splitOn_append_cons_self_of_not_mem unseparated]
    exact ⟨String.ofList before, rfl, by rwa [String.toList_ofList],
      fun absent => absurd (isDenom ▸ separated) absent⟩
  · rw [List.splitOn_append_cons_self_of_not_mem separated]
    exact ⟨denom, congrArg Except.ok String.ofList_toList, separated, fun _ => rfl⟩

/-- The store holds balances under their keys and nothing else; the balances are
positive, and those of accounts in valid denoms. -/
structure Encodes (raw : RawBalances) (balances : FractionalBalances) : Prop where
  stored : ∀ {address} denom, '/' ∉ address.toList →
    raw.get? (fractionalBalanceKey address denom) = balances.get? (toLex (address, denom))
  keys : ∀ {key amount}, raw.get? key = some amount →
    ∃ address denom, '/' ∉ address.toList ∧ key = fractionalBalanceKey address denom
  sound : ∀ {address denom amount}, balances.get? (toLex (address, denom)) = some amount →
    '/' ∉ address.toList ∧ ValidDenom denom ∧ 0 < amount.i

theorem encodes_empty : Encodes SortedStore.empty SortedStore.empty where
  stored _ _ := rfl
  keys impossible := nomatch impossible
  sound impossible := nomatch impossible

namespace Encodes

variable {raw : RawBalances} {balances : FractionalBalances}

theorem setEntry (encodes : Encodes raw balances) {address denom : String}
    (noSlash : '/' ∉ address.toList) (valid : ValidDenom denom) (amount : PrecDec) :
    Encodes (setRawEntry raw address denom amount)
      (setFractionalEntry balances address denom amount) := by
  unfold setRawEntry setFractionalEntry
  split
  · rename_i positive
    constructor
    · intro other otherDenom otherNoSlash
      simp only [SortedStore.get?_set, fractionalBalanceKey_inj otherNoSlash noSlash,
        encodes.stored otherDenom otherNoSlash]
    · intro key value found
      rw [SortedStore.get?_set] at found
      split at found
      · rename_i isKey
        exact ⟨address, denom, noSlash, isKey⟩
      · exact encodes.keys found
    · intro other otherDenom value found
      rw [SortedStore.get?_set] at found
      split at found
      · rename_i isKey
        obtain ⟨rfl, rfl⟩ := Prod.mk.inj (toLex_inj.mp isKey)
        exact ⟨noSlash, valid, Option.some.inj found ▸ positive⟩
      · exact encodes.sound found
  · constructor
    · intro other otherDenom otherNoSlash
      simp only [SortedStore.get?_delete, fractionalBalanceKey_inj otherNoSlash noSlash,
        encodes.stored otherDenom otherNoSlash]
    · intro key value found
      exact encodes.keys (SortedStore.of_get?_delete found)
    · intro other otherDenom value found
      exact encodes.sound (SortedStore.of_get?_delete found)

theorem setBalance {dex : DexState} (encodes : Encodes raw dex.fractionalBalances)
    {address : String} (noSlash : '/' ∉ address.toList) {new : BalanceMap}
    (valid : ∀ entry ∈ new.entries, ValidDenom entry.1) :
    Encodes (setRawBalance raw address new)
      (setFractionalBalance dex address new).fractionalBalances := by
  unfold setRawBalance setFractionalBalance
  dsimp only
  generalize dex.fractionalBalances = balances at encodes ⊢
  generalize new.entries = entries at valid ⊢
  induction entries generalizing raw balances with
  | nil => exact encodes
  | cons entry rest ih =>
      obtain ⟨head, rest⟩ := List.forall_mem_cons.mp valid
      exact ih _ (encodes.setEntry noSlash head entry.2) rest

theorem perm (encodes : Encodes raw balances) :
    raw.entries.Perm (balances.entries.map fun entry =>
      (fractionalBalanceKey (ofLex entry.1).1 (ofLex entry.1).2, entry.2)) := by
  have rawNodup : raw.entries.Nodup :=
    raw.increasing.imp fun below equal => ne_of_lt below (congrArg Prod.fst equal)
  have nodup : balances.entries.Nodup :=
    balances.increasing.imp fun below equal => ne_of_lt below (congrArg Prod.fst equal)
  have slashless : ∀ entry ∈ balances.entries, '/' ∉ (ofLex entry.1).1.toList := by
    rintro ⟨key, amount⟩ member
    exact (encodes.sound ((balances.mem_entries_iff key amount).mp member)).1
  refine (List.perm_ext_iff_of_nodup rawNodup (List.Nodup.map_on ?_ nodup)).mpr ?_
  · rintro ⟨key, amount⟩ member ⟨other, otherAmount⟩ otherMember same
    obtain ⟨sameKey, rfl⟩ := Prod.mk.inj same
    have equal := (fractionalBalanceKey_inj (slashless _ member)
      (slashless _ otherMember)).mp sameKey
    exact congrArg (·, amount) equal
  · rintro ⟨text, amount⟩
    rw [raw.mem_entries_iff, List.mem_map]
    constructor
    · intro found
      obtain ⟨address, denom, noSlash, rfl⟩ := encodes.keys found
      rw [encodes.stored denom noSlash] at found
      exact ⟨(toLex (address, denom), amount), (balances.mem_entries_iff _ _).mpr found, rfl⟩
    · rintro ⟨⟨key, value⟩, member, same⟩
      obtain ⟨rfl, rfl⟩ := Prod.mk.inj same
      rw [encodes.stored _ (slashless _ member)]
      exact (balances.mem_entries_iff _ _).mp member

end Encodes

def readShare (denom : String) (record : String × PrecDec) : Int :=
  if (denomOfKey record.1).toOption = some denom then record.2.i else 0

theorem addRawBalance_eq_ok {balances next : PrecDecCoins} {record : String × PrecDec}
    (ok : addRawBalance balances record = .ok next) (denom : String) :
    (Tally.amountOf next denom).i =
      (Tally.amountOf balances denom).i + readShare denom record := by
  obtain ⟨read, isRead, ok⟩ := of_bind ok
  obtain ⟨coin, new, ok⟩ := of_bind ok
  obtain ⟨_, _, rfl⟩ := newPrecDecCoin_eq_ok_iff.mp new
  cases ok
  rw [Tally.amountOf_add, add_i, PrecDecCoins.single, Tally.amountOf_set_empty, readShare,
    isRead]
  have isDenom : (Except.ok read : Outcome String).toOption = some denom ↔ denom = read :=
    Option.some_inj.trans eq_comm
  by_cases same : denom = read
  · rw [if_pos same, if_pos (isDenom.mpr same)]
  · rw [if_neg same, if_neg (mt isDenom.mp same)]
    rfl

variable {records : List (String × PrecDec)}

theorem foldlM_addRawBalance
    {balances final : PrecDecCoins} (ok : records.foldlM addRawBalance balances = .ok final)
    (denom : String) :
    (Tally.amountOf final denom).i =
      (Tally.amountOf balances denom).i + (records.map (readShare denom)).sum := by
  induction records generalizing balances with
  | nil =>
      cases ok
      simp
  | cons record rest ih =>
      rw [List.foldlM_cons] at ok
      obtain ⟨next, first, ok⟩ := of_bind ok
      rw [ih ok, addRawBalance_eq_ok first, List.map_cons, List.sum_cons, add_assoc]

theorem foldlM_addRawBalance_total {records : List (String × PrecDec)}
    (readable : ∀ record ∈ records, ∃ denom, denomOfKey record.1 = .ok denom ∧
      ValidDenom denom ∧ 0 ≤ record.2.i) (balances : PrecDecCoins) :
    ∃ final, records.foldlM addRawBalance balances = .ok final := by
  induction records generalizing balances with
  | nil => exact ⟨balances, rfl⟩
  | cons record rest ih =>
      obtain ⟨⟨denom, isRead, valid, nonneg⟩, rest⟩ := List.forall_mem_cons.mp readable
      have added : addRawBalance balances record =
          .ok (Tally.add balances (PrecDecCoins.single ⟨denom, record.2⟩)) := by
        unfold addRawBalance
        rw [isRead, Outcome.ok_bind, newPrecDecCoin_eq_ok_iff.mpr ⟨valid, nonneg, rfl⟩]
        rfl
      rw [List.foldlM_cons]
      exact Outcome.bind_total added (ih rest _)

namespace Encodes

variable {raw : RawBalances} {balances : FractionalBalances}

theorem amountOf_getAll (encodes : Encodes raw balances) {coins : PrecDecCoins}
    (ok : getAllFractionalBalances raw = .ok coins) (denom : String) :
    (Tally.amountOf coins denom).i = balances.total fun key amount =>
      readShare denom (fractionalBalanceKey (ofLex key).1 (ofLex key).2, amount) := by
  rw [foldlM_addRawBalance ok, (encodes.perm.map (readShare denom)).sum_eq, List.map_map]
  exact zero_add _

theorem amountOf_getAll_separated (encodes : Encodes raw balances) {coins : PrecDecCoins}
    (ok : getAllFractionalBalances raw = .ok coins) {denom : String}
    (separated : '/' ∈ denom.toList) : (Tally.amountOf coins denom).i = 0 := by
  rw [encodes.amountOf_getAll ok]
  refine (@SortedStore.total_congr _ _ _ balances _ _ _ (fun _ _ => 0) ?_).trans (by simp [SortedStore.total,
    Entries.total])
  rintro ⟨address, stored⟩ amount found
  obtain ⟨read, isRead, noSlash, _⟩ :=
    denomOfKey_fractionalBalanceKey (encodes.sound found).1 stored
  change readShare denom (fractionalBalanceKey address stored, amount) = 0
  rw [readShare, isRead, if_neg]
  intro same
  exact noSlash (Option.some.inj same ▸ separated)

theorem getAll_unseparated (encodes : Encodes raw balances)
    (unseparated : ∀ address denom amount,
      balances.get? (toLex (address, denom)) = some amount → '/' ∉ denom.toList) :
    ∃ coins, getAllFractionalBalances raw = .ok coins ∧
      ∀ denom, (Tally.amountOf coins denom).i = balances.owed denom := by
  have reads : ∀ {address denom amount},
      balances.get? (toLex (address, denom)) = some amount →
        denomOfKey (fractionalBalanceKey address denom) = .ok denom := by
    intro address denom amount found
    obtain ⟨read, isRead, _, same⟩ :=
      denomOfKey_fractionalBalanceKey (encodes.sound found).1 denom
    rw [isRead, same (unseparated address denom amount found)]
  obtain ⟨coins, ok⟩ := @foldlM_addRawBalance_total raw.entries (by
    rintro ⟨text, amount⟩ member
    have found := (raw.mem_entries_iff text amount).mp member
    obtain ⟨address, denom, noSlash, rfl⟩ := encodes.keys found
    rw [encodes.stored denom noSlash] at found
    obtain ⟨_, valid, positive⟩ := encodes.sound found
    exact ⟨denom, reads found, valid, le_of_lt positive⟩) SortedStore.empty
  refine ⟨coins, ok, fun denom => ?_⟩
  rw [encodes.amountOf_getAll ok, FractionalBalances.owed]
  refine balances.total_congr ?_
  rintro ⟨address, stored⟩ amount found
  have same : (Except.ok stored : Outcome String).toOption = some denom ↔ stored = denom :=
    Option.some_inj
  change readShare denom (fractionalBalanceKey address stored, amount) = _
  rw [readShare, reads found]
  exact if_congr same rfl rfl

end Encodes

structure SetBalanceCall where
  address : AccAddress
  balances : BalanceMap
  valid : ∀ entry ∈ balances.entries, ValidDenom entry.1

def rawAfter (calls : List SetBalanceCall) : RawBalances :=
  calls.foldl (fun raw call => setRawBalance raw call.address.text call.balances)
    SortedStore.empty

def dexAfter (calls : List SetBalanceCall) : DexState :=
  calls.foldl (fun dex call => setFractionalBalance dex call.address.text call.balances)
    (DexState.empty defaultParams)

theorem encodes_after (calls : List SetBalanceCall) :
    Encodes (rawAfter calls) (dexAfter calls).fractionalBalances := by
  unfold rawAfter dexAfter
  have start : Encodes SortedStore.empty (DexState.empty defaultParams).fractionalBalances :=
    encodes_empty
  generalize (SortedStore.empty : RawBalances) = raw at start ⊢
  generalize DexState.empty defaultParams = dex at start ⊢
  induction calls generalizing raw dex with
  | nil => exact start
  | cons call rest ih => exact ih _ _ (start.setBalance call.address.noSlash call.valid)

/-- `GetAllFractionalBalances` returns, for every denom, the sum of what the accounts
have stored, exactly when no account has a fraction of a denom with a separator in it. -/
theorem getAllFractionalBalances_total_iff (calls : List SetBalanceCall) :
    (∃ coins, getAllFractionalBalances (rawAfter calls) = .ok coins ∧
      ∀ denom, (Tally.amountOf coins denom).i =
        (dexAfter calls).fractionalBalances.owed denom) ↔
    ∀ address denom amount,
      (dexAfter calls).fractionalBalances.get? (toLex (address, denom)) = some amount →
        '/' ∉ denom.toList := by
  have encodes := encodes_after calls
  generalize rawAfter calls = raw at encodes ⊢
  generalize (dexAfter calls).fractionalBalances = balances at encodes ⊢
  constructor
  · rintro ⟨coins, ok, totals⟩ address denom amount found separated
    obtain ⟨_, _, positive⟩ := encodes.sound found
    have part : amount.i ≤ balances.owed denom := by
      have nonneg : ∀ key stored, balances.get? key = some stored →
          0 ≤ if (ofLex key).2 = denom then stored.i else 0 := by
        intro key stored present
        split
        · exact le_of_lt (encodes.sound present).2.2
        · exact le_refl _
      exact (if_pos rfl).symm.trans_le (balances.le_total nonneg found)
    have read := encodes.amountOf_getAll_separated ok separated
    rw [totals] at read
    omega
  · exact encodes.getAll_unseparated

def ibcFraction : List SetBalanceCall :=
  [⟨⟨"neutron1alice", by decide⟩, SortedStore.empty.set "ibc/AB12" ⟨5⟩, by decide⟩]

/-- A fraction of an ibc denom is reported under the denom `ibc`, and missing from the
denom it was stored for. -/
theorem getAllFractionalBalances_ibc :
    ∃ coins, getAllFractionalBalances (rawAfter ibcFraction) = .ok coins ∧
      (Tally.amountOf coins "ibc").i = 5 ∧ (Tally.amountOf coins "ibc/AB12").i = 0 ∧
      (dexAfter ibcFraction).fractionalBalances.owed "ibc" = 0 ∧
      (dexAfter ibcFraction).fractionalBalances.owed "ibc/AB12" = 5 := by
  obtain ⟨coins, ok, amounts⟩ := @Outcome.eq_ok_of_map_toOption _ _ _
    (getAllFractionalBalances (rawAfter ibcFraction))
    (fun coins => ((Tally.amountOf coins "ibc").i, (Tally.amountOf coins "ibc/AB12").i))
    (5, 0) (by decide +kernel)
  obtain ⟨short, full⟩ := Prod.mk.inj amounts
  exact ⟨coins, ok, short, full, by decide +kernel, by decide +kernel⟩

end Neutron.Dex
