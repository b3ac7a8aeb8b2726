import Mathlib.Algebra.BigOperators.Group.Finset.Piecewise
import Mathlib.Algebra.Order.BigOperators.Group.Finset
import Mathlib.Algebra.BigOperators.Ring.Finset
import Mathlib.Tactic.Ring

namespace Neutron.App

universe u

variable {Address : Type u}

/-! Delegations are moved to a new set of validators in equal parts
(`app/upgrades/v11.0.0/upgrades.go`). -/

structure DelegationResponse (Address : Type u) where
  delegatorAddress : String
  validatorAddress : Address
  amount : Int

structure MsgBeginRedelegate (Address : Type u) where
  delegatorAddress : String
  validatorSrcAddress : Address
  validatorDstAddress : Address
  denom : String
  amount : Int

def MsgBeginRedelegate.apply [DecidableEq Address] (balance : Address → Int)
    (msg : MsgBeginRedelegate Address) : Address → Int :=
  let debited := Function.update balance msg.validatorSrcAddress
    (balance msg.validatorSrcAddress - msg.amount)
  Function.update debited msg.validatorDstAddress (debited msg.validatorDstAddress + msg.amount)

def redelegation (denom : String) (debitCredit : Address → Int)
    (delegation : DelegationResponse Address) (newVal : Address) : MsgBeginRedelegate Address :=
  let remaining := debitCredit delegation.validatorAddress
  let needed := - debitCredit newVal
  { delegatorAddress := delegation.delegatorAddress
    validatorSrcAddress := delegation.validatorAddress
    validatorDstAddress := newVal
    denom := denom
    amount := if remaining ≤ needed then remaining else needed }

/-- What the loop can still do: two steps for each validator in the lists, and one more to
move something between the first ones. -/
def stepsLeft (debitCredit : Address → Int) :
    List (DelegationResponse Address) → List Address → Nat
  | delegation :: delegations, newVal :: newValidators =>
      2 * (delegations.length + newValidators.length + 2) +
        if debitCredit newVal < 0 ∧ 0 < debitCredit delegation.validatorAddress then 1 else 0
  | delegations, newValidators => 2 * (delegations.length + newValidators.length)

/-- A message takes all that its source has to give, or gives all that its target needs. -/
structure Exhausts (debitCredit : Address → Int) (msg : MsgBeginRedelegate Address) :
    Prop where
  distinct : msg.validatorSrcAddress ≠ msg.validatorDstAddress
  positive : 0 < msg.amount
  remaining : msg.amount ≤ debitCredit msg.validatorSrcAddress
  needed : msg.amount ≤ - debitCredit msg.validatorDstAddress
  exhausted : msg.amount = debitCredit msg.validatorSrcAddress ∨
    msg.amount = - debitCredit msg.validatorDstAddress

theorem redelegation_exhausts (denom : String) {debitCredit : Address → Int}
    {delegation : DelegationResponse Address} {newVal : Address}
    (needed : 0 < - debitCredit newVal) (remaining : 0 < debitCredit delegation.validatorAddress) :
    Exhausts debitCredit (redelegation denom debitCredit delegation newVal) := by
  have distinct : delegation.validatorAddress ≠ newVal := by
    intro same
    rw [same] at remaining
    omega
  refine ⟨distinct, ?_, ?_, ?_, ?_⟩ <;> dsimp only [redelegation] <;> split <;> omega

theorem stepsLeft_le (debitCredit : Address → Int)
    (delegations : List (DelegationResponse Address)) (newValidators : List Address) :
    stepsLeft debitCredit delegations newValidators ≤
      2 * (delegations.length + newValidators.length) + 1 := by
  unfold stepsLeft
  split
  · simp only [List.length_cons]
    split <;> omega
  · omega

section Loop

variable [DecidableEq Address]

theorem MsgBeginRedelegate.apply_apply (balance : Address → Int)
    (msg : MsgBeginRedelegate Address) (validator : Address) :
    msg.apply balance validator =
      balance validator - (if validator = msg.validatorSrcAddress then msg.amount else 0) +
        (if validator = msg.validatorDstAddress then msg.amount else 0) := by
  simp only [MsgBeginRedelegate.apply, Function.update_apply]
  split_ifs <;> simp_all

theorem Exhausts.apply_source {debitCredit : Address → Int} {msg : MsgBeginRedelegate Address}
    (exhausts : Exhausts debitCredit msg) :
    msg.apply debitCredit msg.validatorSrcAddress =
      debitCredit msg.validatorSrcAddress - msg.amount := by
  rw [msg.apply_apply, if_pos rfl, if_neg exhausts.distinct, add_zero]

theorem Exhausts.apply_target {debitCredit : Address → Int} {msg : MsgBeginRedelegate Address}
    (exhausts : Exhausts debitCredit msg) :
    msg.apply debitCredit msg.validatorDstAddress =
      debitCredit msg.validatorDstAddress + msg.amount := by
  rw [msg.apply_apply, if_neg exhausts.distinct.symm, if_pos rfl, sub_zero]

theorem stepsLeft_redelegation (denom : String) {debitCredit : Address → Int}
    {delegation : DelegationResponse Address} {newVal : Address}
    (needed : 0 < - debitCredit newVal) (remaining : 0 < debitCredit delegation.validatorAddress)
    (delegations : List (DelegationResponse Address)) (newValidators : List Address) :
    stepsLeft ((redelegation denom debitCredit delegation newVal).apply debitCredit)
        (delegation :: delegations) (newVal :: newValidators) <
      stepsLeft debitCredit (delegation :: delegations) (newVal :: newValidators) := by
  have exhausts := redelegation_exhausts denom needed remaining
  have source := exhausts.apply_source
  have target := exhausts.apply_target
  have exhausted := exhausts.exhausted
  dsimp only [redelegation] at source target exhausted
  have spent : ¬ ((redelegation denom debitCredit delegation newVal).apply debitCredit newVal < 0 ∧
      0 < (redelegation denom debitCredit delegation newVal).apply debitCredit
        delegation.validatorAddress) := by
    unfold redelegation
    rw [source, target]
    omega
  rw [stepsLeft, stepsLeft, if_neg spent, if_pos ⟨by omega, remaining⟩]
  omega

/-- The loop of `calcRedelegations`, over what is left of both lists. -/
def redelegate (denom : String) (debitCredit : Address → Int) :
    List (DelegationResponse Address) → List Address → List (MsgBeginRedelegate Address)
  | [], _ => []
  | _ :: _, [] => []
  | delegation :: delegations, newVal :: newValidators =>
      if ¬ 0 < - debitCredit newVal then
        redelegate denom debitCredit (delegation :: delegations) newValidators
      else if ¬ 0 < debitCredit delegation.validatorAddress then
        redelegate denom debitCredit delegations (newVal :: newValidators)
      else
        let msg := redelegation denom debitCredit delegation newVal
        msg :: redelegate denom (msg.apply debitCredit) (delegation :: delegations)
          (newVal :: newValidators)
termination_by delegations newValidators => stepsLeft debitCredit delegations newValidators
decreasing_by
  · rename_i full
    have fewer := stepsLeft_le debitCredit (delegation :: delegations) newValidators
    rw [List.length_cons] at fewer
    rw [stepsLeft, if_neg fun active => full (by omega)]
    omega
  · rename_i _ spent
    have fewer := stepsLeft_le debitCredit delegations (newVal :: newValidators)
    rw [List.length_cons] at fewer
    rw [stepsLeft, if_neg fun active => spent active.2]
    omega
  · rename_i needed remaining
    exact stepsLeft_redelegation denom (not_not.mp needed) (not_not.mp remaining) delegations
      newValidators

def addDelegation (debitCredit : Address → Int) (delegation : DelegationResponse Address) :
    Address → Int :=
  Function.update debitCredit delegation.validatorAddress
    (debitCredit delegation.validatorAddress + delegation.amount)

def takeShare (share : Int) (debitCredit : Address → Int) (newVal : Address) : Address → Int :=
  Function.update debitCredit newVal (debitCredit newVal - share)

def totalDelegatedAmount (delegations : List (DelegationResponse Address)) : Int :=
  delegations.foldl (fun total delegation => total + delegation.amount) 0

/-- Without new validators the division by their number panics. -/
def calcRedelegations (delegations : List (DelegationResponse Address))
    (newValidators : List Address) (denom : String) :
    Option (List (MsgBeginRedelegate Address)) :=
  match newValidators.getLast? with
  | none => none
  | some last =>
      let total := totalDelegatedAmount delegations
      let amountPerValidator := total.tdiv newValidators.length
      let remainder := total % newValidators.length
      let debits := delegations.foldl addDelegation fun _ => 0
      let credits := newValidators.foldl (takeShare amountPerValidator) debits
      some (redelegate denom (takeShare remainder credits last) delegations newValidators)

end Loop

/-- Whoever has too much or too little is still in the lists, and in all nothing is missing. -/
structure Balanced (validators : Finset Address) (debitCredit : Address → Int)
    (delegations : List (DelegationResponse Address)) (newValidators : List Address) :
    Prop where
  positive : ∀ {validator}, 0 < debitCredit validator →
    validator ∈ delegations.map DelegationResponse.validatorAddress
  negative : ∀ {validator}, debitCredit validator < 0 → validator ∈ newValidators
  known : ∀ {validator}, debitCredit validator ≠ 0 → validator ∈ validators
  total : ∑ validator ∈ validators, debitCredit validator = 0

section Balance

variable {validators : Finset Address} {debitCredit : Address → Int}
  {delegations : List (DelegationResponse Address)} {newValidators : List Address}

theorem Balanced.eq_zero_of_no_delegations
    (balanced : Balanced validators debitCredit [] newValidators) (validator : Address) :
    debitCredit validator = 0 := by
  have nonpositive : ∀ other, debitCredit other ≤ 0 := by
    intro other
    by_contra positive
    exact absurd (balanced.positive (not_le.mp positive)) (by simp)
  by_contra nonzero
  exact nonzero ((Finset.sum_eq_zero_iff_of_nonpos fun other _ => nonpositive other).mp
    balanced.total validator (balanced.known nonzero))

theorem Balanced.eq_zero_of_no_newValidators
    (balanced : Balanced validators debitCredit delegations []) (validator : Address) :
    debitCredit validator = 0 := by
  have nonnegative : ∀ other, 0 ≤ debitCredit other := by
    intro other
    by_contra negative
    exact absurd (balanced.negative (not_le.mp negative)) (by simp)
  by_contra nonzero
  exact nonzero ((Finset.sum_eq_zero_iff_of_nonneg fun other _ => nonnegative other).mp
    balanced.total validator (balanced.known nonzero))

theorem Balanced.next_newValidator {newVal : Address}
    (balanced : Balanced validators debitCredit delegations (newVal :: newValidators))
    (full : ¬ 0 < - debitCredit newVal) :
    Balanced validators debitCredit delegations newValidators :=
  { balanced with
    negative := by
      intro validator negative
      rcases List.mem_cons.mp (balanced.negative negative) with same | later
      · rw [same] at negative
        omega
      · exact later }

theorem Balanced.next_delegation {delegation : DelegationResponse Address}
    (balanced : Balanced validators debitCredit (delegation :: delegations) newValidators)
    (spent : ¬ 0 < debitCredit delegation.validatorAddress) :
    Balanced validators debitCredit delegations newValidators :=
  { balanced with
    positive := by
      intro validator positive
      rcases List.mem_cons.mp (balanced.positive positive) with same | later
      · rw [same] at positive
        exact absurd positive spent
      · exact later }

variable [DecidableEq Address]

theorem Exhausts.shrinks {msg : MsgBeginRedelegate Address}
    (exhausts : Exhausts debitCredit msg) (validator : Address) :
    (0 < msg.apply debitCredit validator → 0 < debitCredit validator) ∧
      (msg.apply debitCredit validator < 0 → debitCredit validator < 0) := by
  obtain ⟨distinct, positive, remaining, needed, _⟩ := exhausts
  rw [msg.apply_apply]
  by_cases isSource : validator = msg.validatorSrcAddress
  · subst isSource
    rw [if_pos rfl, if_neg distinct]
    omega
  · rw [if_neg isSource]
    by_cases isTarget : validator = msg.validatorDstAddress
    · subst isTarget
      rw [if_pos rfl]
      omega
    · rw [if_neg isTarget]
      omega

theorem Balanced.apply (balanced : Balanced validators debitCredit delegations newValidators)
    {msg : MsgBeginRedelegate Address} (exhausts : Exhausts debitCredit msg) :
    Balanced validators (msg.apply debitCredit) delegations newValidators where
  positive positive := balanced.positive ((exhausts.shrinks _).1 positive)
  negative negative := balanced.negative ((exhausts.shrinks _).2 negative)
  known := by
    intro validator nonzero
    have shrinks := exhausts.shrinks validator
    exact balanced.known (by omega)
  total := by
    obtain ⟨_, positive, remaining, needed, _⟩ := exhausts
    have sourceKnown := balanced.known (show debitCredit msg.validatorSrcAddress ≠ 0 by omega)
    have targetKnown := balanced.known (show debitCredit msg.validatorDstAddress ≠ 0 by omega)
    simp only [msg.apply_apply, Finset.sum_add_distrib, Finset.sum_sub_distrib, balanced.total,
      Finset.sum_ite_eq', if_pos sourceKnown, if_pos targetKnown]
    omega

/-- Messages, each of which exhausts its source or its target when its turn comes. -/
inductive Settles : (Address → Int) → List (MsgBeginRedelegate Address) → Prop
  | nil (debitCredit : Address → Int) : Settles debitCredit []
  | cons {debitCredit : Address → Int} {msg : MsgBeginRedelegate Address}
      {msgs : List (MsgBeginRedelegate Address)} (exhausts : Exhausts debitCredit msg)
      (settles : Settles (msg.apply debitCredit) msgs) : Settles debitCredit (msg :: msgs)

theorem Settles.signs {msgs : List (MsgBeginRedelegate Address)}
    (settles : Settles debitCredit msgs) : ∀ msg ∈ msgs, 0 < msg.amount ∧
      0 < debitCredit msg.validatorSrcAddress ∧ debitCredit msg.validatorDstAddress < 0 := by
  induction settles with
  | nil => exact fun _ member => nomatch member
  | cons exhausts _ ih =>
      intro msg member
      rcases List.mem_cons.mp member with rfl | later
      · obtain ⟨_, positive, remaining, needed, _⟩ := exhausts
        omega
      · obtain ⟨positive, source, target⟩ := ih msg later
        exact ⟨positive, (exhausts.shrinks _).1 source, (exhausts.shrinks _).2 target⟩

theorem Settles.nodup_pairs {msgs : List (MsgBeginRedelegate Address)}
    (settles : Settles debitCredit msgs) :
    (msgs.map fun msg => (msg.validatorSrcAddress, msg.validatorDstAddress)).Nodup := by
  induction settles with
  | nil => exact List.nodup_nil
  | @cons debitCredit msg msgs exhausts later ih =>
      refine List.nodup_cons.mpr ⟨fun repeated => ?_, ih⟩
      obtain ⟨other, member, same⟩ := List.mem_map.mp repeated
      obtain ⟨sameSource, sameTarget⟩ := Prod.mk.inj same
      obtain ⟨_, source, target⟩ := later.signs other member
      rw [sameSource, exhausts.apply_source] at source
      rw [sameTarget, exhausts.apply_target] at target
      have exhausted := exhausts.exhausted
      omega

def sentFrom (validator : Address) (msgs : List (MsgBeginRedelegate Address)) : Int :=
  ((msgs.filter fun msg => msg.validatorSrcAddress = validator).map
    MsgBeginRedelegate.amount).sum

theorem sentFrom_cons (validator : Address) (msg : MsgBeginRedelegate Address)
    (msgs : List (MsgBeginRedelegate Address)) :
    sentFrom validator (msg :: msgs) =
      (if validator = msg.validatorSrcAddress then msg.amount else 0) +
        sentFrom validator msgs := by
  unfold sentFrom
  by_cases same : validator = msg.validatorSrcAddress
  · simp [same]
  · simp [same, Ne.symm same]

theorem Settles.sentFrom_le {msgs : List (MsgBeginRedelegate Address)}
    (settles : Settles debitCredit msgs) (validator : Address) :
    sentFrom validator msgs ≤ max (debitCredit validator) 0 := by
  induction settles with
  | nil debitCredit => exact le_max_right _ _
  | @cons debitCredit msg msgs exhausts _ ih =>
      obtain ⟨distinct, positive, remaining, needed, _⟩ := exhausts
      rw [sentFrom_cons]
      rw [msg.apply_apply] at ih
      by_cases isSource : validator = msg.validatorSrcAddress
      · subst isSource
        rw [if_pos rfl, if_neg distinct] at *
        omega
      · rw [if_neg isSource] at *
        by_cases isTarget : validator = msg.validatorDstAddress
        · subst isTarget
          rw [if_pos rfl] at ih
          omega
        · rw [if_neg isTarget] at ih
          omega

theorem redelegate_settles (denom : String) (debitCredit : Address → Int)
    (delegations : List (DelegationResponse Address)) (newValidators : List Address) :
    Settles debitCredit (redelegate denom debitCredit delegations newValidators) := by
  fun_induction redelegate denom debitCredit delegations newValidators with
  | case1 debitCredit newValidators => exact .nil debitCredit
  | case2 debitCredit delegation delegations => exact .nil debitCredit
  | case3 debitCredit delegation delegations newVal newValidators full ih => exact ih
  | case4 debitCredit delegation delegations newVal newValidators _ spent ih => exact ih
  | case5 debitCredit delegation delegations newVal newValidators needed remaining msg ih =>
      exact .cons (redelegation_exhausts denom (not_not.mp needed) (not_not.mp remaining)) ih

theorem redelegate_balances (denom : String)
    (balanced : Balanced validators debitCredit delegations newValidators) :
    (redelegate denom debitCredit delegations newValidators).foldl
      MsgBeginRedelegate.apply debitCredit = fun _ => 0 := by
  fun_induction redelegate denom debitCredit delegations newValidators with
  | case1 debitCredit newValidators => exact funext balanced.eq_zero_of_no_delegations
  | case2 debitCredit delegation delegations => exact funext balanced.eq_zero_of_no_newValidators
  | case3 debitCredit delegation delegations newVal newValidators full ih =>
      exact ih (balanced.next_newValidator full)
  | case4 debitCredit delegation delegations newVal newValidators _ spent ih =>
      exact ih (balanced.next_delegation spent)
  | case5 debitCredit delegation delegations newVal newValidators needed remaining msg ih =>
      exact ih (balanced.apply
        (redelegation_exhausts denom (not_not.mp needed) (not_not.mp remaining)))

theorem length_redelegate_le (denom : String) (debitCredit : Address → Int)
    (delegations : List (DelegationResponse Address)) (newValidators : List Address) :
    (redelegate denom debitCredit delegations newValidators).length ≤
      (stepsLeft debitCredit delegations newValidators + 1) / 2 - 2 := by
  fun_induction redelegate denom debitCredit delegations newValidators with
  | case1 debitCredit newValidators => exact Nat.zero_le _
  | case2 debitCredit delegation delegations => exact Nat.zero_le _
  | case3 debitCredit delegation delegations newVal newValidators full ih =>
      have fewer := stepsLeft_le debitCredit (delegation :: delegations) newValidators
      rw [List.length_cons] at fewer
      rw [stepsLeft, if_neg fun active => full (by omega)]
      omega
  | case4 debitCredit delegation delegations newVal newValidators _ spent ih =>
      have fewer := stepsLeft_le debitCredit delegations (newVal :: newValidators)
      rw [List.length_cons] at fewer
      rw [stepsLeft, if_neg fun active => spent active.2]
      omega
  | case5 debitCredit delegation delegations newVal newValidators needed remaining msg ih =>
      have fewer : stepsLeft (msg.apply debitCredit) (delegation :: delegations)
          (newVal :: newValidators) <
            stepsLeft debitCredit (delegation :: delegations) (newVal :: newValidators) :=
        stepsLeft_redelegation denom (not_not.mp needed) (not_not.mp remaining) delegations
          newValidators
      have isActive : stepsLeft debitCredit (delegation :: delegations)
          (newVal :: newValidators) = 2 * (delegations.length + newValidators.length + 2) + 1 := by
        rw [stepsLeft, if_pos ⟨by omega, not_not.mp remaining⟩]
      rw [List.length_cons]
      omega

end Balance

section Plan

theorem totalDelegatedAmount_eq (delegations : List (DelegationResponse Address)) :
    totalDelegatedAmount delegations = (delegations.map DelegationResponse.amount).sum := by
  rw [totalDelegatedAmount, List.sum_eq_foldl, List.foldl_map]

theorem sum_amounts_nonneg {delegations : List (DelegationResponse Address)}
    (nonneg : ∀ delegation ∈ delegations, 0 ≤ delegation.amount) :
    0 ≤ (delegations.map DelegationResponse.amount).sum := by
  refine List.sum_nonneg fun amount member => ?_
  obtain ⟨delegation, isDelegation, rfl⟩ := List.mem_map.mp member
  exact nonneg delegation isDelegation

variable [DecidableEq Address]

def delegated (delegations : List (DelegationResponse Address)) (validator : Address) : Int :=
  ((delegations.filter fun delegation => delegation.validatorAddress = validator).map
    DelegationResponse.amount).sum

def evenShare (total : Int) (newValidators : List Address) (last validator : Address) : Int :=
  (if validator ∈ newValidators then total / newValidators.length else 0) +
    if validator = last then total % newValidators.length else 0

theorem delegated_cons (delegation : DelegationResponse Address)
    (delegations : List (DelegationResponse Address)) (validator : Address) :
    delegated (delegation :: delegations) validator =
      (if validator = delegation.validatorAddress then delegation.amount else 0) +
        delegated delegations validator := by
  unfold delegated
  by_cases same : validator = delegation.validatorAddress
  · simp [same]
  · simp [same, Ne.symm same]

theorem delegated_nonneg {delegations : List (DelegationResponse Address)}
    (nonneg : ∀ delegation ∈ delegations, 0 ≤ delegation.amount) (validator : Address) :
    0 ≤ delegated delegations validator :=
  sum_amounts_nonneg fun delegation member => nonneg delegation (List.mem_of_mem_filter member)

theorem mem_of_delegated_ne_zero {delegations : List (DelegationResponse Address)}
    {validator : Address} (nonzero : delegated delegations validator ≠ 0) :
    validator ∈ delegations.map DelegationResponse.validatorAddress := by
  by_contra absent
  refine nonzero ?_
  have none : (delegations.filter fun delegation =>
      delegation.validatorAddress = validator) = [] := by
    refine List.filter_eq_nil_iff.mpr fun delegation member same => absent ?_
    exact List.mem_map.mpr ⟨delegation, member, of_decide_eq_true same⟩
  rw [delegated, none]
  rfl

theorem foldl_addDelegation (delegations : List (DelegationResponse Address))
    (debitCredit : Address → Int) (validator : Address) :
    delegations.foldl addDelegation debitCredit validator =
      debitCredit validator + delegated delegations validator := by
  induction delegations generalizing debitCredit with
  | nil => simp [delegated]
  | cons delegation delegations ih =>
      rw [List.foldl_cons, ih, delegated_cons, addDelegation, Function.update_apply]
      split
      · rename_i same
        rw [same]
        omega
      · omega

theorem foldl_takeShare {newValidators : List Address} (distinct : newValidators.Nodup)
    (share : Int) (debitCredit : Address → Int) (validator : Address) :
    newValidators.foldl (takeShare share) debitCredit validator =
      debitCredit validator - if validator ∈ newValidators then share else 0 := by
  induction newValidators generalizing debitCredit with
  | nil => simp
  | cons newVal newValidators ih =>
      obtain ⟨apart, distinct⟩ := List.nodup_cons.mp distinct
      rw [List.foldl_cons, ih distinct, takeShare, Function.update_apply]
      by_cases same : validator = newVal
      · subst same
        simp [apart]
      · simp [same]

theorem sum_delegated (validators : Finset Address)
    {delegations : List (DelegationResponse Address)}
    (known : ∀ delegation ∈ delegations, delegation.validatorAddress ∈ validators) :
    ∑ validator ∈ validators, delegated delegations validator =
      (delegations.map DelegationResponse.amount).sum := by
  induction delegations with
  | nil => simp [delegated]
  | cons delegation delegations ih =>
      have here := known delegation (by simp)
      have later := ih fun other member => known other (by simp [member])
      simp only [delegated_cons, Finset.sum_add_distrib, later, Finset.sum_ite_eq', if_pos here,
        List.map_cons, List.sum_cons]

theorem sum_evenShare (total : Int) {validators : Finset Address} {newValidators : List Address}
    {last : Address} (distinct : newValidators.Nodup)
    (known : ∀ newVal ∈ newValidators, newVal ∈ validators) (isLast : last ∈ newValidators) :
    ∑ validator ∈ validators, evenShare total newValidators last validator = total := by
  have shares : ∑ validator ∈ validators,
      (if validator ∈ newValidators then total / newValidators.length else 0) =
        newValidators.length * (total / newValidators.length) := by
    rw [← Finset.sum_filter, Finset.sum_const, nsmul_eq_mul]
    have same : (validators.filter fun validator => validator ∈ newValidators) =
        newValidators.toFinset := by
      ext validator
      simp only [Finset.mem_filter, List.mem_toFinset]
      exact ⟨And.right, fun member => ⟨known validator member, member⟩⟩
    rw [same, List.toFinset_card_of_nodup distinct]
  simp only [evenShare, Finset.sum_add_distrib, shares, Finset.sum_ite_eq',
    if_pos (known last isLast)]
  exact Int.mul_ediv_add_emod total _

theorem foldl_apply_add (msgs : List (MsgBeginRedelegate Address)) (balance besides : Address → Int) :
    msgs.foldl MsgBeginRedelegate.apply (fun validator => balance validator + besides validator) =
      fun validator => msgs.foldl MsgBeginRedelegate.apply balance validator + besides validator := by
  induction msgs generalizing balance with
  | nil => rfl
  | cons msg msgs ih =>
      have step : msg.apply (fun validator => balance validator + besides validator) =
          fun validator => msg.apply balance validator + besides validator := by
        funext validator
        simp only [msg.apply_apply]
        omega
      rw [List.foldl_cons, step, ih, List.foldl_cons]

theorem initial_debitCredit {delegations : List (DelegationResponse Address)}
    {newValidators : List Address} {last : Address} {total : Int} (nonneg : 0 ≤ total)
    (distinct : newValidators.Nodup) :
    takeShare (total % newValidators.length)
        (newValidators.foldl (takeShare (total.tdiv newValidators.length))
          (delegations.foldl addDelegation fun _ => 0)) last =
      fun validator => delegated delegations validator -
        evenShare total newValidators last validator := by
  funext validator
  rw [takeShare, Function.update_apply, foldl_takeShare distinct, foldl_takeShare distinct,
    foldl_addDelegation, foldl_addDelegation, evenShare, Int.tdiv_eq_ediv_of_nonneg nonneg]
  split
  · rename_i same
    rw [same]
    ring
  · ring

theorem evenShare_nonneg {newValidators : List Address} {total : Int} (nonneg : 0 ≤ total)
    {last : Address} (isLast : last ∈ newValidators) (validator : Address) :
    0 ≤ evenShare total newValidators last validator := by
  have some : (newValidators.length : Int) ≠ 0 := by
    have positive := List.length_pos_of_mem isLast
    omega
  have share : 0 ≤ total / newValidators.length := Int.ediv_nonneg nonneg (Int.natCast_nonneg _)
  have remainder : 0 ≤ total % newValidators.length := Int.emod_nonneg total some
  unfold evenShare
  split <;> split <;> omega

theorem mem_of_evenShare_ne_zero {newValidators : List Address} {total : Int} {last : Address}
    (isLast : last ∈ newValidators) {validator : Address}
    (nonzero : evenShare total newValidators last validator ≠ 0) : validator ∈ newValidators := by
  by_contra absent
  refine nonzero ?_
  have notLast : validator ≠ last := fun same => absent (same ▸ isLast)
  rw [evenShare, if_neg absent, if_neg notLast, add_zero]

theorem initial_balanced {delegations : List (DelegationResponse Address)}
    {newValidators : List Address} {last : Address}
    (nonneg : ∀ delegation ∈ delegations, 0 ≤ delegation.amount)
    (distinct : newValidators.Nodup) (isLast : last ∈ newValidators) :
    Balanced (delegations.map DelegationResponse.validatorAddress ++ newValidators).toFinset
      (fun validator => delegated delegations validator -
        evenShare (delegations.map DelegationResponse.amount).sum newValidators last validator)
      delegations newValidators := by
  have totalNonneg := sum_amounts_nonneg nonneg
  have debit := delegated_nonneg nonneg
  have credit := evenShare_nonneg totalNonneg isLast
  have debtor {validator : Address} := @mem_of_delegated_ne_zero _ _ delegations validator
  have creditor {validator : Address} := @mem_of_evenShare_ne_zero _ _ newValidators
    (delegations.map DelegationResponse.amount).sum last isLast validator
  constructor
  case positive =>
    intro validator positive
    exact debtor (by have := credit validator; omega)
  case negative =>
    intro validator negative
    exact creditor (by have := debit validator; omega)
  case known =>
    intro validator nonzero
    rw [List.mem_toFinset, List.mem_append]
    by_cases noDebit : delegated delegations validator = 0
    · exact .inr (creditor (by omega))
    · exact .inl (debtor noDebit)
  case total =>
    rw [Finset.sum_sub_distrib, sum_delegated, sum_evenShare _ distinct _ isLast, sub_self]
    · intro newVal member
      simp [member]
    · intro delegation member
      rw [List.mem_toFinset, List.mem_append]
      exact .inl (List.mem_map_of_mem member)

/-- A plan that leaves every validator with what it is to have, with few messages that all
move something, never twice between the same validators and never there and back. -/
structure Redistributes (delegations : List (DelegationResponse Address))
    (newValidators : List Address) (last : Address) (msgs : List (MsgBeginRedelegate Address)) :
    Prop where
  final : ∀ validator, msgs.foldl MsgBeginRedelegate.apply (delegated delegations) validator =
    if validator ∈ newValidators then
      (delegations.map DelegationResponse.amount).sum / newValidators.length +
        (if validator = last then
          (delegations.map DelegationResponse.amount).sum % newValidators.length else 0)
    else 0
  positive : ∀ msg ∈ msgs, 0 < msg.amount
  distinct : (msgs.map fun msg => (msg.validatorSrcAddress, msg.validatorDstAddress)).Nodup
  oneWay : ∀ msg ∈ msgs, ∀ other ∈ msgs, msg.validatorSrcAddress ≠ other.validatorDstAddress
  covered : ∀ validator, sentFrom validator msgs ≤ delegated delegations validator
  few : msgs.length ≤ delegations.length + newValidators.length - 1

/-- For all delegations that are not negative and all new validators. -/
theorem calcRedelegations_redistributes (delegations : List (DelegationResponse Address))
    (newValidators : List Address) (denom : String)
    (nonneg : ∀ delegation ∈ delegations, 0 ≤ delegation.amount)
    (nonempty : newValidators ≠ []) (distinct : newValidators.Nodup) :
    ∃ msgs, calcRedelegations delegations newValidators denom = some msgs ∧
      Redistributes delegations newValidators (newValidators.getLast nonempty) msgs := by
  generalize isLast : newValidators.getLast nonempty = last
  have lastMember : last ∈ newValidators := isLast ▸ List.getLast_mem nonempty
  have totalNonneg := sum_amounts_nonneg nonneg
  have balanced := initial_balanced nonneg distinct lastMember
  have credit := evenShare_nonneg totalNonneg lastMember
  generalize isTotal : (delegations.map DelegationResponse.amount).sum = total at *
  have computed : calcRedelegations delegations newValidators denom =
      some (redelegate denom (fun validator => delegated delegations validator -
        evenShare total newValidators last validator) delegations newValidators) := by
    rw [calcRedelegations, List.getLast?_eq_some_getLast nonempty, isLast]
    dsimp only
    rw [totalDelegatedAmount_eq, isTotal, initial_debitCredit totalNonneg distinct]
  -- debits and credits are what is delegated without what is to be there in the end
  generalize isDebitCredit : (fun validator => delegated delegations validator -
    evenShare total newValidators last validator) = debitCredit at balanced computed
  have atValidator : ∀ validator, debitCredit validator =
      delegated delegations validator - evenShare total newValidators last validator :=
    fun validator => congrFun isDebitCredit.symm validator
  have settles := redelegate_settles denom debitCredit delegations newValidators
  refine ⟨_, computed, ?_, ?_, settles.nodup_pairs, ?_, ?_, ?_⟩
  · intro validator
    have restored : (fun validator => debitCredit validator +
        evenShare total newValidators last validator) = delegated delegations := by
      funext validator
      rw [atValidator, sub_add_cancel]
    have moved := foldl_apply_add (redelegate denom debitCredit delegations newValidators)
      debitCredit (evenShare total newValidators last)
    rw [restored, redelegate_balances denom balanced] at moved
    rw [isTotal, moved]
    dsimp only
    rw [zero_add, evenShare]
    by_cases member : validator ∈ newValidators
    · rw [if_pos member, if_pos member]
    · have notLast : validator ≠ last := fun same => member (same ▸ lastMember)
      rw [if_neg member, if_neg member, if_neg notLast, add_zero]
  · exact fun msg member => (settles.signs msg member).1
  · intro msg isMsg other isOther same
    have source := (settles.signs msg isMsg).2.1
    have target := (settles.signs other isOther).2.2
    rw [same] at source
    omega
  · intro validator
    have sent := settles.sentFrom_le validator
    have debit := delegated_nonneg nonneg validator
    have atLeast := credit validator
    rw [atValidator] at sent
    omega
  · have few := length_redelegate_le denom debitCredit delegations newValidators
    have all := stepsLeft_le debitCredit delegations newValidators
    omega

theorem calcRedelegations_redistributes_three :
    ∃ msgs, calcRedelegations [⟨"dao", "a", 7⟩, ⟨"dao", "b", 4⟩] ["b", "c"] "untrn" = some msgs ∧
      Redistributes [⟨"dao", "a", 7⟩, ⟨"dao", "b", 4⟩] ["b", "c"] "c" msgs :=
  calcRedelegations_redistributes [⟨"dao", "a", 7⟩, ⟨"dao", "b", 4⟩] ["b", "c"] "untrn"
    (by decide) (by decide) (by decide)

end Plan

end Neutron.App
