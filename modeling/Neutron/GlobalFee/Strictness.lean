import Neutron.Library.Machine
import Neutron.GlobalFee.Ante

namespace Neutron.GlobalFee

open Library
open Neutron.Dex (Coin ValidDenom)

/-! What a transaction must pay in the mempool and in a block. -/

def Sorted (coins : List Coin) : Prop :=
  coins.Pairwise fun left right => left.denom < right.denom

structure ValidCoins (coins : List Coin) : Prop where
  sorted : Sorted coins
  denoms : ∀ coin ∈ coins, ValidDenom coin.denom
  positive : ∀ coin ∈ coins, 0 < coin.amount

variable {coins : List Coin}

theorem Sorted.filter (sorted : Sorted coins) (keep : Coin → Bool) :
    Sorted (coins.filter keep) :=
  List.Pairwise.filter keep sorted

theorem sortCoins_eq (sorted : Sorted coins) : sortCoins coins = coins :=
  (sorted.imp fun less => le_of_lt less).insertionSort_eq

theorem Sorted.eq_of_denom_eq (sorted : Sorted coins) {left right : Coin}
    (leftMember : left ∈ coins) (rightMember : right ∈ coins)
    (same : left.denom = right.denom) : left = right := by
  have foundLeft := BinarySearch.find_complete sorted leftMember same
  rw [BinarySearch.find_complete sorted rightMember rfl] at foundLeft
  exact (Option.some.inj foundLeft).symm

theorem Sorted.nodup_denoms (sorted : Sorted coins) :
    (coins.map Coin.denom).Nodup :=
  List.pairwise_map.mpr (sorted.imp fun less => ne_of_lt less)

theorem Sorted.length_le {others : List Coin} (sorted : Sorted coins)
    (among : ∀ coin ∈ coins, ∃ other ∈ others, other.denom = coin.denom) :
    coins.length ≤ others.length := by
  have subset : coins.map Coin.denom ⊆ others.map Coin.denom := by
    intro denom member
    obtain ⟨coin, coinMember, rfl⟩ := List.mem_map.mp member
    obtain ⟨other, otherMember, same⟩ := among coin coinMember
    exact List.mem_map.mpr ⟨other, otherMember, same⟩
  have shorter := (List.subperm_of_subset sorted.nodup_denoms subset).length_le
  rwa [List.length_map, List.length_map] at shorter

theorem amountOf_of_mem (sorted : Sorted coins) {coin : Coin}
    (member : coin ∈ coins) (valid : ValidDenom coin.denom) :
    amountOf coins coin.denom = .ok coin.amount := by
  have found : find coins coin.denom = some coin :=
    BinarySearch.find_complete sorted member rfl
  rw [amountOf, found]
  exact Outcome.bind_ok ((Outcome.require_eq_ok_iff _ _ ⟨⟩).mpr valid) rfl

variable {denom : String}

theorem amountOf_of_not_mem
    (absent : ∀ coin ∈ coins, coin.denom ≠ denom) (valid : ValidDenom denom) :
    amountOf coins denom = .ok 0 := by
  have missing : find coins denom = none := by
    refine Option.eq_none_iff_forall_ne_some.mpr fun coin found => ?_
    obtain ⟨member, same⟩ := BinarySearch.find_sound found
    exact absent coin member same
  rw [amountOf, missing]
  exact Outcome.bind_ok ((Outcome.require_eq_ok_iff _ _ ⟨⟩).mpr valid) rfl

section Requirement

variable {required : List Coin} (sorted : Sorted required)
  (nonzero : ∀ need ∈ required, need.amount ≠ 0)
include sorted nonzero

theorem allDenomsIn_eq_ok_iff
    (valid : ∀ coin ∈ coins, ValidDenom coin.denom) :
    allDenomsIn required coins = .ok true ↔
      ∀ coin ∈ coins, ∃ need ∈ required, need.denom = coin.denom := by
  induction coins with
  | nil => exact ⟨fun _ _ member => (nomatch member), fun _ => rfl⟩
  | cons coin rest ih =>
      rw [List.forall_mem_cons] at valid ⊢
      rw [allDenomsIn]
      by_cases known : ∃ need ∈ required, need.denom = coin.denom
      · obtain ⟨need, member, same⟩ := known
        have amount := amountOf_of_mem sorted member (same ▸ valid.1)
        rw [← same, amount, Outcome.ok_bind, if_neg (nonzero need member), ih valid.2]
        exact ⟨fun others => ⟨⟨need, member, rfl⟩, others⟩, fun all => all.2⟩
      · have absent : ∀ need ∈ required, need.denom ≠ coin.denom :=
          fun need member same => known ⟨need, member, same⟩
        rw [amountOf_of_not_mem absent valid.1, Outcome.ok_bind, if_pos rfl]
        exact ⟨fun impossible => (nomatch impossible), fun all => absurd all.1 known⟩

theorem denomsSubsetOf_eq_ok_iff (coinsSorted : Sorted coins)
    (valid : ∀ coin ∈ coins, ValidDenom coin.denom) :
    denomsSubsetOf coins required = .ok true ↔
      ∀ coin ∈ coins, ∃ need ∈ required, need.denom = coin.denom := by
  rw [denomsSubsetOf]
  split
  · rename_i longer
    refine ⟨fun impossible => (nomatch impossible), fun among => ?_⟩
    exact absurd (coinsSorted.length_le among) (Nat.not_le_of_lt longer)
  · exact allDenomsIn_eq_ok_iff sorted nonzero valid

theorem anyGTE_eq_ok_iff
    (valid : ∀ coin ∈ coins, ValidDenom coin.denom) :
    anyGTE required coins = .ok true ↔
      ∃ coin ∈ coins, ∃ need ∈ required,
        need.denom = coin.denom ∧ need.amount ≤ coin.amount := by
  induction coins with
  | nil => exact ⟨fun impossible => (nomatch impossible), fun ⟨_, member, _⟩ => (nomatch member)⟩
  | cons coin rest ih =>
      rw [List.forall_mem_cons] at valid
      rw [List.exists_mem_cons_iff, anyGTE]
      by_cases known : ∃ need ∈ required, need.denom = coin.denom
      · obtain ⟨need, member, same⟩ := known
        have amount := amountOf_of_mem sorted member (same ▸ valid.1)
        rw [same] at amount
        rw [amount, Outcome.ok_bind]
        split
        · rename_i enough
          exact ⟨fun _ => .inl ⟨need, member, same, enough.1⟩, fun _ => rfl⟩
        · rename_i less
          rw [ih valid.2]
          refine ⟨.inr, fun paid => paid.resolve_left ?_⟩
          rintro ⟨other, otherMember, otherSame, enough⟩
          rw [sorted.eq_of_denom_eq otherMember member (otherSame.trans same.symm)] at enough
          exact less ⟨enough, nonzero need member⟩
      · have absent : ∀ need ∈ required, need.denom ≠ coin.denom :=
          fun need member same => known ⟨need, member, same⟩
        rw [amountOf_of_not_mem absent valid.1, Outcome.ok_bind, if_neg fun both => both.2 rfl,
          ih valid.2]
        refine ⟨.inr, fun paid => paid.resolve_left ?_⟩
        rintro ⟨other, member, same, _⟩
        exact absent other member same

theorem isAnyGTE_eq_ok_iff
    (valid : ∀ coin ∈ coins, ValidDenom coin.denom) :
    isAnyGTE coins required = .ok true ↔
      ∃ coin ∈ coins, ∃ need ∈ required,
        need.denom = coin.denom ∧ need.amount ≤ coin.amount := by
  rw [isAnyGTE]
  split
  · rename_i nothing
    rw [nothing]
    exact ⟨fun impossible => (nomatch impossible),
      fun ⟨_, _, _, member, _⟩ => (nomatch member)⟩
  · exact anyGTE_eq_ok_iff sorted nonzero valid

end Requirement

def Bypasses (params : Params) (tx : FeeTx) : Prop :=
  containsOnlyBypassMinFeeMsgs params tx.msgs ∧
    tx.gas ≤ params.maxTotalBypassMinFeeMsgGasUsage

def Pays (fee required : List Coin) : Prop :=
  ∃ coin ∈ fee, ∃ need ∈ required, need.denom = coin.denom ∧ need.amount ≤ coin.amount

/-- The fee is in denoms that are required and, unless the messages are exempt,
pays one of the requirements. -/
structure Sufficient (params : Params) (tx : FeeTx) (required : List Coin) : Prop where
  denoms : ∀ coin ∈ tx.fee, ∃ need ∈ required, need.denom = coin.denom
  paid : Bypasses params tx ∨ (tx.fee = [] ∧ ∃ need ∈ required, need.amount = 0) ∨
    Pays tx.fee required

def nonZero (required : List Coin) : List Coin :=
  required.filter fun need => ¬ need.amount = 0

def zeroDenoms (required : List Coin) : List String :=
  (required.filter fun need => need.amount = 0).map Coin.denom

theorem mem_nonZero_iff {required : List Coin} {need : Coin} :
    need ∈ nonZero required ↔ need ∈ required ∧ need.amount ≠ 0 := by
  rw [nonZero, List.mem_filter, decide_eq_true_iff]

theorem mem_zeroDenoms_iff {required : List Coin} :
    denom ∈ zeroDenoms required ↔ ∃ need ∈ required, need.amount = 0 ∧ need.denom = denom := by
  simp only [zeroDenoms, List.mem_map, List.mem_filter, decide_eq_true_iff, and_assoc]

theorem nonZero_sorted {required : List Coin} (sorted : Sorted required) :
    Sorted (nonZero required) :=
  sorted.filter _

theorem getNonZeroFees_eq {required : List Coin} (sorted : Sorted required) :
    getNonZeroFees required = (nonZero required, zeroDenoms required) := by
  rw [getNonZeroFees, List.partition_eq_filter_filter]
  have same : (required.filter (not ∘ fun fee => decide (fee.amount = 0))) = nonZero required :=
    List.filter_congr fun need _ => (decide_not).symm
  dsimp only
  rw [same, sortCoins_eq (nonZero_sorted sorted), zeroDenoms]

section Fee

variable {fee required : List Coin}

def inNonZero (fee required : List Coin) : List Coin :=
  fee.filter fun coin => coin.denom ∉ zeroDenoms required

def inZero (fee required : List Coin) : List Coin :=
  fee.filter fun coin => coin.denom ∈ zeroDenoms required

theorem mem_inNonZero_iff {coin : Coin} :
    coin ∈ inNonZero fee required ↔ coin ∈ fee ∧ coin.denom ∉ zeroDenoms required := by
  rw [inNonZero, List.mem_filter, decide_eq_true_iff]

theorem mem_inZero_iff {coin : Coin} :
    coin ∈ inZero fee required ↔ coin ∈ fee ∧ coin.denom ∈ zeroDenoms required := by
  rw [inZero, List.mem_filter, decide_eq_true_iff]

theorem inNonZero_sorted (sorted : Sorted fee) : Sorted (inNonZero fee required) :=
  sorted.filter _

theorem splitCoinsByDenoms_eq (sorted : Sorted fee) :
    splitCoinsByDenoms fee (zeroDenoms required) = (inNonZero fee required, inZero fee required) := by
  rw [splitCoinsByDenoms, List.partition_eq_filter_filter]
  have same : (fee.filter (not ∘ fun coin => decide (coin.denom ∈ zeroDenoms required))) =
      inNonZero fee required :=
    List.filter_congr fun coin _ => (decide_not).symm
  dsimp only
  rw [same, sortCoins_eq (inNonZero_sorted sorted), sortCoins_eq (sorted.filter _), inZero]

theorem inNonZero_valid (valid : ValidCoins fee) :
    ∀ coin ∈ inNonZero fee required, ValidDenom coin.denom :=
  fun coin member => valid.denoms coin (mem_inNonZero_iff.mp member).1

theorem denomsSubsetOf_split_iff (valid : ValidCoins fee) (sorted : Sorted required) :
    denomsSubsetOf (inNonZero fee required) (nonZero required) = .ok true ↔
      ∀ coin ∈ fee, ∃ need ∈ required, need.denom = coin.denom := by
  rw [denomsSubsetOf_eq_ok_iff (nonZero_sorted sorted)
    (fun need member => (mem_nonZero_iff.mp member).2) (inNonZero_sorted valid.sorted)
    (inNonZero_valid valid)]
  constructor
  · intro among coin member
    by_cases free : coin.denom ∈ zeroDenoms required
    · obtain ⟨need, needMember, _, same⟩ := mem_zeroDenoms_iff.mp free
      exact ⟨need, needMember, same⟩
    · obtain ⟨need, needMember, same⟩ := among coin (mem_inNonZero_iff.mpr ⟨member, free⟩)
      exact ⟨need, (mem_nonZero_iff.mp needMember).1, same⟩
  · intro among coin member
    obtain ⟨inFee, notFree⟩ := mem_inNonZero_iff.mp member
    obtain ⟨need, needMember, same⟩ := among coin inFee
    refine ⟨need, mem_nonZero_iff.mpr ⟨needMember, fun zero => notFree ?_⟩, same⟩
    exact mem_zeroDenoms_iff.mpr ⟨need, needMember, zero, same⟩

theorem pays_iff (valid : ValidCoins fee) (sorted : Sorted required) :
    Pays fee required ↔ inZero fee required ≠ [] ∨
      isAnyGTE (inNonZero fee required) (nonZero required) = .ok true := by
  rw [isAnyGTE_eq_ok_iff (nonZero_sorted sorted)
    (fun need member => (mem_nonZero_iff.mp member).2) (inNonZero_valid valid)]
  constructor
  · rintro ⟨coin, member, need, needMember, same, enough⟩
    by_cases free : coin.denom ∈ zeroDenoms required
    · exact .inl (List.ne_nil_of_mem (mem_inZero_iff.mpr ⟨member, free⟩))
    · refine .inr ⟨coin, mem_inNonZero_iff.mpr ⟨member, free⟩, need, ?_, same, enough⟩
      exact mem_nonZero_iff.mpr
        ⟨needMember, fun zero => free (mem_zeroDenoms_iff.mpr ⟨need, needMember, zero, same⟩)⟩
  · rintro (free | ⟨coin, member, need, needMember, same, enough⟩)
    · obtain ⟨coin, member⟩ := List.exists_mem_of_ne_nil _ free
      obtain ⟨inFee, inZeroDenoms⟩ := mem_inZero_iff.mp member
      obtain ⟨need, needMember, zero, same⟩ := mem_zeroDenoms_iff.mp inZeroDenoms
      have positive := valid.positive coin inFee
      exact ⟨coin, inFee, need, needMember, same, by omega⟩
    · exact ⟨coin, (mem_inNonZero_iff.mp member).1, need, (mem_nonZero_iff.mp needMember).1,
        same, enough⟩

end Fee

theorem zeroDenoms_ne_nil_iff {required : List Coin} :
    zeroDenoms required ≠ [] ↔ ∃ need ∈ required, need.amount = 0 := by
  constructor
  · intro some
    obtain ⟨denom, member⟩ := List.exists_mem_of_ne_nil _ some
    obtain ⟨need, needMember, zero, _⟩ := mem_zeroDenoms_iff.mp member
    exact ⟨need, needMember, zero⟩
  · rintro ⟨need, member, zero⟩
    exact List.ne_nil_of_mem (mem_zeroDenoms_iff.mpr ⟨need, member, zero, rfl⟩)

variable {tx : FeeTx}

theorem checkFees_eq_ok_iff {params : Params} {required : List Coin}
    (valid : ValidCoins tx.fee) (sorted : Sorted required) :
    checkFees params tx required = .ok () ↔ Sufficient params tx required := by
  rw [checkFees, sortCoins_eq valid.sorted, getNonZeroFees_eq sorted]
  dsimp only
  rw [splitCoinsByDenoms_eq valid.sorted]
  dsimp only
  constructor
  · intro ok
    obtain ⟨_, _, ok⟩ := of_bind ok
    obtain ⟨isSubset, subset, ok⟩ := of_bind ok
    obtain ⟨_, isTrue, ok⟩ := of_bind ok
    rw [of_require isTrue] at subset
    refine ⟨(denomsSubsetOf_split_iff valid sorted).mp subset, ?_⟩
    split at ok
    · rename_i exempt
      exact .inl exempt
    · split at ok
      · rename_i nothing
        have free := of_require ok
        exact .inr (.inl ⟨nothing, zeroDenoms_ne_nil_iff.mp free⟩)
      · refine .inr (.inr ((pays_iff valid sorted).mpr ?_))
        split at ok
        · rename_i free
          exact .inl free
        · obtain ⟨isEnough, enough, ok⟩ := of_bind ok
          exact .inr (of_require ok ▸ enough)
  · rintro ⟨denoms, paid⟩
    refine Outcome.bind_ok ((Outcome.require_eq_ok_iff _ _ ⟨⟩).mpr
      (valid.sorted.length_le denoms)) ?_
    refine Outcome.bind_ok ((denomsSubsetOf_split_iff valid sorted).mpr denoms) ?_
    refine Outcome.bind_ok ((Outcome.require_eq_ok_iff _ _ ⟨⟩).mpr rfl) ?_
    split
    · rfl
    · rename_i notExempt
      rcases paid with exempt | ⟨nothing, free⟩ | pays
      · exact absurd exempt notExempt
      · rw [if_pos nothing]
        exact (Outcome.require_eq_ok_iff _ _ _).mpr (zeroDenoms_ne_nil_iff.mpr free)
      · have something : tx.fee ≠ [] := by
          obtain ⟨coin, member, _⟩ := pays
          exact List.ne_nil_of_mem member
        rw [if_neg something]
        split
        · rfl
        · rename_i notFree
          have enough := ((pays_iff valid sorted).mp pays).resolve_left notFree
          exact Outcome.bind_ok enough ((Outcome.require_eq_ok_iff _ _ _).mpr rfl)

theorem sorted_of_forall₂ {Left Right : Type} {denomOf : Left → String}
    {otherDenomOf : Right → String} {left : List Left} {right : List Right}
    (sorted : left.Pairwise fun first second => denomOf first < denomOf second)
    (same : List.Forall₂ (fun item other => denomOf item = otherDenomOf other) left right) :
    right.Pairwise fun first second => otherDenomOf first < otherDenomOf second := by
  have denoms : left.map denomOf = right.map otherDenomOf := by
    rw [← List.forall₂_eq_eq_eq, List.forall₂_map_left_iff, List.forall₂_map_right_iff]
    exact same
  have ordered : (left.map denomOf).Pairwise (· < ·) := List.pairwise_map.mpr sorted
  rw [denoms] at ordered
  exact List.pairwise_map.mp ordered

def Raised (required higher : List Coin) : Prop :=
  List.Forall₂ (fun need more => need.denom = more.denom ∧ need.amount ≤ more.amount)
    required higher

theorem Raised.refl (required : List Coin) : Raised required required :=
  List.forall₂_same.mpr fun _ _ => ⟨rfl, le_refl _⟩

variable {higher : List Coin}

theorem Sufficient.lower {params : Params} {required : List Coin}
    (sufficient : Sufficient params tx higher) (raised : Raised required higher)
    (nonneg : ∀ need ∈ required, 0 ≤ need.amount) : Sufficient params tx required where
  denoms := by
    intro coin member
    obtain ⟨more, moreMember, same⟩ := sufficient.denoms coin member
    obtain ⟨need, needMember, denom, _⟩ := exists_of_mem_right raised moreMember
    exact ⟨need, needMember, denom.trans same⟩
  paid := by
    rcases sufficient.paid with exempt | ⟨nothing, more, moreMember, zero⟩ |
      ⟨coin, member, more, moreMember, same, enough⟩
    · exact .inl exempt
    · obtain ⟨need, needMember, _, below⟩ := exists_of_mem_right raised moreMember
      have := nonneg need needMember
      exact .inr (.inl ⟨nothing, need, needMember, by omega⟩)
    · obtain ⟨need, needMember, denom, below⟩ := exists_of_mem_right raised moreMember
      exact .inr (.inr ⟨coin, member, need, needMember, denom.trans same, below.trans enough⟩)

theorem Raised.sorted {required : List Coin} (raised : Raised required higher)
    (sorted : Sorted required) : Sorted higher :=
  sorted_of_forall₂ sorted (raised.imp fun _ _ both => both.1)

theorem combineFee_raises (minGasPrices : List Coin) (fee : Coin) :
    fee.denom = (combineFee minGasPrices fee).denom ∧
      fee.amount ≤ (combineFee minGasPrices fee).amount := by
  rw [combineFee]
  split
  · rename_i localFee found
    split
    · rename_i greater
      exact ⟨(BinarySearch.find_sound found).2.symm, le_of_lt greater⟩
    · exact ⟨rfl, le_refl _⟩
  · exact ⟨rfl, le_refl _⟩

theorem combinedFeeRequirement_raises {globalFees minGasPrices combined : List Coin}
    (sorted : Sorted globalFees)
    (ok : combinedFeeRequirement globalFees minGasPrices = .ok combined) :
    Raised globalFees combined := by
  rw [combinedFeeRequirement] at ok
  split at ok
  · cases ok
  · split at ok
    · exact Except.ok.inj ok ▸ Raised.refl globalFees
    · have raised : Raised globalFees (globalFees.map (combineFee minGasPrices)) := by
        rw [Raised, List.forall₂_map_right_iff]
        exact List.forall₂_same.mpr fun fee _ => combineFee_raises minGasPrices fee
      rw [sortCoins_eq (raised.sorted sorted)] at ok
      exact Except.ok.inj ok ▸ raised

theorem newCoin_eq_ok {amount : Int} {coin : Coin}
    (ok : newCoin denom amount = .ok coin) : coin.denom = denom ∧ 0 ≤ coin.amount := by
  obtain ⟨_, _, ok⟩ := of_bind ok
  obtain ⟨_, nonneg, ok⟩ := of_bind ok
  cases ok
  exact ⟨rfl, of_require nonneg⟩

variable {fees : List Coin}

theorem requiredFees_eq_ok {gasLimit : Int} {prices : List DecCoin}
    (sorted : prices.Pairwise fun left right => left.denom < right.denom)
    (ok : requiredFees gasLimit prices = .ok fees) :
    Sorted fees ∧ ∀ need ∈ fees, 0 ≤ need.amount := by
  obtain ⟨required, mapped, ok⟩ := of_bind ok
  have each : List.Forall₂ (fun (price : DecCoin) (coin : Coin) =>
      coin.denom = price.denom ∧ 0 ≤ coin.amount) prices required := by
    refine (Outcome.forall₂_of_mapM_eq_ok mapped).imp fun price coin turn => ?_
    obtain ⟨_, _, turn⟩ := of_bind turn
    obtain ⟨_, _, turn⟩ := of_bind turn
    exact newCoin_eq_ok turn
  have requiredSorted : Sorted required :=
    sorted_of_forall₂ sorted (each.imp fun _ _ both => both.1.symm)
  rw [sortCoins_eq requiredSorted] at ok
  cases ok
  refine ⟨requiredSorted, fun need member => ?_⟩
  obtain ⟨_, _, _, nonneg⟩ := exists_of_mem_right each member
  exact nonneg

theorem validateCoins_eq_ok {lowDenom : Option String} {seenDenoms : List String}
    {coins : List DecCoin} (ok : validateCoins lowDenom seenDenoms coins = .ok ()) :
    (∀ low ∈ lowDenom, ∀ coin ∈ coins, low < coin.denom) ∧
      coins.Pairwise fun left right => left.denom < right.denom := by
  induction coins generalizing lowDenom seenDenoms with
  | nil => exact ⟨fun _ _ _ member => (nomatch member), .nil⟩
  | cons coin rest ih =>
      rw [validateCoins] at ok
      obtain ⟨_, _, ok⟩ := of_bind ok
      obtain ⟨_, _, ok⟩ := of_bind ok
      obtain ⟨_, order, ok⟩ := of_bind ok
      obtain ⟨_, _, ok⟩ := of_bind ok
      obtain ⟨above, sorted⟩ := ih ok
      have first := of_require order
      refine ⟨fun low isLow => ?_, List.pairwise_cons.mpr ⟨above _ rfl, sorted⟩⟩
      have less := not_le.mp (first low isLow)
      rw [List.forall_mem_cons]
      exact ⟨less, fun other member => less.trans (above _ rfl other member)⟩

theorem Params.sorted_of_validateBasic {params : Params} (valid : params.validateBasic = .ok ()) :
    params.minimumGasPrices.Pairwise fun left right => left.denom < right.denom := by
  obtain ⟨_, coins, _⟩ := of_bind valid
  exact (validateCoins_eq_ok coins).2

namespace Keeper

def Checked (keeper : Keeper) : Prop :=
  ∀ params ∈ keeper.stored, params.validateBasic = .ok ()

theorem checked_of_updateParams {keeper next : Keeper} {authority : String} {params : Params}
    (ok : keeper.updateParams authority params = .ok next) : next.Checked := by
  obtain ⟨_, _, ok⟩ := of_bind ok
  rw [setParams] at ok
  cases valid : params.validateBasic with
  | error failure =>
      rw [valid] at ok
      cases ok
  | ok result =>
      rw [valid] at ok
      cases ok
      intro stored isStored
      cases isStored
      exact valid

theorem Checked.params_valid {keeper : Keeper} (checked : keeper.Checked) :
    keeper.getParams.validateBasic = .ok () := by
  rw [getParams]
  cases isStored : keeper.stored with
  | none => rfl
  | some params => exact checked params isStored

def attempt (keeper : Keeper) (update : String × Params) : Keeper :=
  (keeper.updateParams update.1 update.2).toOption.getD keeper

end Keeper

theorem getGlobalFee_eq_ok {params : Params} (valid : params.validateBasic = .ok ())
    (ok : getGlobalFee params tx = .ok fees) :
    Sorted fees ∧ ∀ need ∈ fees, 0 ≤ need.amount := by
  refine requiredFees_eq_ok ?_ ok
  split
  · exact List.pairwise_singleton _ _
  · exact params.sorted_of_validateBasic valid

/-- A transaction that the mempool of a node accepts is accepted in a block, whatever
the local prices of the nodes. -/
theorem anteHandle_deliverTx_of_checkTx {params : Params}
    (validParams : params.validateBasic = .ok ()) {tx : FeeTx} (validFee : ValidCoins tx.fee)
    {minGasPrices : List DecCoin} {simulate : Bool}
    (accepted : anteHandle ⟨true, minGasPrices, params⟩ tx simulate = .ok ())
    (otherPrices : List DecCoin) :
    anteHandle ⟨false, otherPrices, params⟩ tx simulate = .ok () := by
  rw [anteHandle] at accepted ⊢
  split
  · rfl
  · rename_i checked
    rw [if_neg checked] at accepted
    obtain ⟨combined, computed, enough⟩ := of_bind accepted
    obtain ⟨globalFees, isGlobal, computed⟩ := of_bind computed
    rw [if_neg fun delivers => delivers rfl] at computed
    obtain ⟨localFees, _, computed⟩ := of_bind computed
    obtain ⟨sorted, nonneg⟩ := getGlobalFee_eq_ok validParams isGlobal
    have raised := combinedFeeRequirement_raises sorted computed
    have sufficient := (checkFees_eq_ok_iff validFee (raised.sorted sorted)).mp enough
    refine Outcome.bind_ok (Outcome.bind_ok isGlobal (if_pos Bool.false_ne_true)) ?_
    exact (checkFees_eq_ok_iff validFee sorted).mpr (sufficient.lower raised nonneg)

/-- A free denom and a denom at `0.01` per unit of gas. -/
def sendParams : Params :=
  ⟨[⟨"uatom", ⟨0⟩⟩, ⟨"untrn", ⟨10 ^ 16⟩⟩], ["/ibc.core.channel.v1.MsgTimeout"], 1000000⟩

def sendTx : FeeTx := ⟨[⟨"untrn", 4000⟩], 200000, ["/cosmos.bank.v1beta1.MsgSend"]⟩

theorem anteHandle_deliverTx_of_checkTx_send :
    anteHandle ⟨true, [⟨"untrn", ⟨2 * 10 ^ 16⟩⟩], sendParams⟩ sendTx false = .ok () ∧
      anteHandle ⟨false, [], sendParams⟩ sendTx false = .ok () := by
  have accepted :
      anteHandle ⟨true, [⟨"untrn", ⟨2 * 10 ^ 16⟩⟩], sendParams⟩ sendTx false = .ok () := by
    decide +kernel
  have validFee : ValidCoins sendTx.fee :=
    ⟨List.pairwise_singleton _ _, by decide +kernel, by decide +kernel⟩
  exact ⟨accepted, anteHandle_deliverTx_of_checkTx (by decide +kernel) validFee accepted []⟩

end Neutron.GlobalFee
