import Mathlib.Data.List.Induction
import Mathlib.Data.List.Sort
import Neutron.ContractManager.Sudo

namespace Neutron.ContractManager

open Library

universe u

structure GenesisState where
  params : Params
  failuresList : List Failure

variable {App : Type u}

def exportGenesis (chain : Chain App) : GenesisState :=
  ⟨chain.params, chain.failures.getAllFailures⟩

def FailureStore.importAll (failures : FailureStore) (list : List Failure) : FailureStore :=
  list.foldl
    (fun failures elem => failures.addContractFailure elem.address elem.sudoPayload elem.error)
    failures

def initGenesis (chain : Chain App) (genState : GenesisState) : Chain App :=
  { chain with
    failures := chain.failures.importAll genState.failuresList
    params := genState.params }

namespace FailureStore

variable (failures : FailureStore)

def ofContract (address : Address) (list : List Failure) : List Failure :=
  list.filter fun failure => decide (failure.address = address)

theorem ofContract_append_singleton (address : Address) (list : List Failure)
    (failure : Failure) :
    ofContract address (list ++ [failure]) =
      if failure.address = address then ofContract address list ++ [failure]
      else ofContract address list := by
  unfold ofContract
  rw [List.filter_append]
  by_cases same : failure.address = address <;> simp [same]

variable {address : Address}

theorem getNextFailureIDKey_of_initial {count : Nat}
    (fits : count < 2 ^ 64)
    (initial : ∀ id, (failures.getFailure address id).isSome ↔ id.toNat < count) :
    (failures.getNextFailureIDKey address).toNat = count := by
  rcases failures.getNextFailureIDKey_cases address with ⟨none, isNext⟩ |
    ⟨last, stored, highest, isNext⟩
  · have notZero : ¬ (0 : UInt64).toNat < count := by
      rw [← initial, none]
      exact Bool.false_ne_true
    rw [isNext]
    exact (Nat.eq_zero_of_not_pos notZero).symm
  · have isLast : last.toNat + 1 = count := by
      have below := (initial last).mp stored
      by_contra different
      have isNumber : (UInt64.ofNat (last.toNat + 1)).toNat = last.toNat + 1 :=
        UInt64.toNat_ofNat_of_lt' (show last.toNat + 1 < 2 ^ 64 by omega)
      have inUse := (initial (UInt64.ofNat (last.toNat + 1))).mpr (by omega)
      have above := UInt64.le_iff_toNat_le.mp (highest _ inUse)
      omega
    rw [isNext, UInt64.toNat_add, show (1 : UInt64).toNat = 1 from rfl, isLast,
      Nat.mod_eq_of_lt fits]

theorem getFailure_importAll {list : List Failure}
    (fits : ∀ address, (ofContract address list).length ≤ 2 ^ 64) (address : Address)
    (id : UInt64) :
    (empty.importAll list).getFailure address id =
      ((ofContract address list)[id.toNat]?).map fun failure => { failure with id := id } := by
  induction list using List.reverseRecOn generalizing address id with
  | nil => simp [importAll, ofContract]
  | append_singleton list failure ih =>
      have shorter : ∀ address, (ofContract address list).length ≤ 2 ^ 64 := fun address =>
        le_trans ((List.sublist_append_left _ _).filter _).length_le (fits address)
      have imported := ih shorter
      have fitsOwn := fits failure.address
      rw [ofContract_append_singleton, if_pos rfl, List.length_append,
        List.length_singleton] at fitsOwn
      have initial : ∀ id, ((empty.importAll list).getFailure failure.address id).isSome ↔
          id.toNat < (ofContract failure.address list).length := by
        intro id
        simp [imported]
      have isNext := (empty.importAll list).getNextFailureIDKey_of_initial (by omega) initial
      have step : empty.importAll (list ++ [failure]) =
          (empty.importAll list).addContractFailure failure.address failure.sudoPayload
            failure.error := List.foldl_concat ..
      rw [step, getFailure_addContractFailure, imported, ofContract_append_singleton]
      by_cases same : address = failure.address
      · subst same
        by_cases isId : id = (empty.importAll list).getNextFailureIDKey failure.address
        · have isLength : id.toNat = (ofContract failure.address list).length := by
            rw [isId, isNext]
          rw [if_pos ⟨rfl, isId⟩, if_pos rfl, List.getElem?_append_right isLength.ge, isLength,
            Nat.sub_self, newFailure, ← isId]
          rfl
        · have notNext : id.toNat ≠ (ofContract failure.address list).length := fun equal =>
            isId (UInt64.toNat_inj.mp (equal.trans isNext.symm))
          rw [if_neg fun both => isId both.2, if_pos rfl]
          rcases Nat.lt_or_gt_of_ne notNext with below | above
          · rw [List.getElem?_append_left below]
          · rw [List.getElem?_eq_none above.le, List.getElem?_eq_none (by simpa using Nat.succ_le_of_lt above)]
      · rw [if_neg fun both => same both.1, if_neg fun equal => same equal.symm]

theorem mem_ofContract_iff (address : Address) (failure : Failure) :
    failure ∈ ofContract address failures.getAllFailures ↔
      failures.getFailure address failure.id = some failure := by
  rw [ofContract, List.mem_filter, getAllFailures, SortedStore.mem_values_iff, decide_eq_true_eq]
  constructor
  · rintro ⟨⟨key, found⟩, rfl⟩
    rw [getFailure, ← failures.kept found]
    exact found
  · intro found
    exact ⟨⟨_, found⟩, (failures.getFailure_eq_some found).1⟩

theorem ofContract_increasing (address : Address) :
    (ofContract address failures.getAllFailures).Pairwise
      fun failure later => failure.id.toNat < later.id.toNat := by
  have ordered : failures.getAllFailures.Pairwise fun failure later =>
      failure.address = later.address → failure.id.toNat < later.id.toNat := by
    refine List.pairwise_map.mpr (failures.entries.increasing.imp_of_mem ?_)
    intro entry later isEntry isLater below sameAddress
    have isKey := failures.kept ((failures.entries.mem_entries_iff _ _).mp isEntry)
    have isLaterKey := failures.kept ((failures.entries.mem_entries_iff _ _).mp isLater)
    rw [isKey, isLaterKey, sameAddress] at below
    by_contra above
    rcases Nat.lt_or_eq_of_le (Nat.not_lt.mp above) with reversed | same
    · exact lt_asymm below (getFailureKey_lt _ (UInt64.lt_iff_toNat_lt.mpr reversed))
    · rw [UInt64.toNat_inj.mp same] at below
      exact lt_irrefl _ below
  refine (ordered.filter _).imp_of_mem ?_
  intro failure later isFailure isLater below
  simp only [List.mem_filter, decide_eq_true_eq] at isFailure isLater
  exact below (isFailure.2.trans isLater.2.symm)

variable {numbers : List Nat} {index : Nat}

theorem le_getElem_of_increasing (increasing : numbers.Pairwise (· < ·))
    (isIndex : index < numbers.length) : index ≤ numbers[index] := by
  induction index with
  | zero => exact Nat.zero_le _
  | succ index ih =>
      have below := List.pairwise_iff_getElem.mp increasing index (index + 1) (by omega) isIndex
        (Nat.lt_succ_self index)
      exact lt_of_le_of_lt (ih (by omega)) below

theorem getElem_of_gapless (increasing : numbers.Pairwise (· < ·))
    (gapless : ∀ number, number + 1 ∈ numbers → number ∈ numbers)
    (isIndex : index < numbers.length) : numbers[index] = index := by
  induction index using Nat.strongRecOn with
  | ind index ih =>
      have atLeast := le_getElem_of_increasing increasing isIndex
      by_contra different
      -- the number just before this one is in the list, at an earlier index
      have before : numbers[index] - 1 ∈ numbers :=
        gapless _ (by rw [Nat.sub_add_cancel (by omega)]; exact List.getElem_mem isIndex)
      obtain ⟨earlier, isEarlier, isBefore⟩ := List.getElem_of_mem before
      have below : earlier < index := by
        by_contra above
        rcases Nat.lt_or_eq_of_le (Nat.not_lt.mp above) with later | same
        · have := List.pairwise_iff_getElem.mp increasing index earlier isIndex isEarlier later
          omega
        · subst same
          omega
      have isNumber := ih earlier below isEarlier
      omega

theorem length_ofContract_le (address : Address) :
    (ofContract address failures.getAllFailures).length ≤ 2 ^ 64 := by
  have increasing := List.pairwise_map.mpr (failures.ofContract_increasing address)
  by_contra tooLong
  have isIndex : 2 ^ 64 < ((ofContract address failures.getAllFailures).map
      fun failure => failure.id.toNat).length := by
    rw [List.length_map]
    exact Nat.not_le.mp tooLong
  have atLeast := le_getElem_of_increasing increasing isIndex
  rw [List.getElem_map] at atLeast
  exact absurd atLeast (Nat.not_le.mpr (UInt64.toNat_lt _))

theorem getElem_ofContract_id
    (gapless : ∀ id : UInt64, id ≠ -1 → (failures.getFailure address (id + 1)).isSome →
      (failures.getFailure address id).isSome)
    (isIndex : index < (ofContract address failures.getAllFailures).length) :
    (ofContract address failures.getAllFailures)[index].id.toNat = index := by
  have increasing := List.pairwise_map.mpr (failures.ofContract_increasing address)
  have stored : ∀ number, number ∈ (ofContract address failures.getAllFailures).map
      (fun failure => failure.id.toNat) ↔
        ∃ id, id.toNat = number ∧ (failures.getFailure address id).isSome := by
    intro number
    simp only [List.mem_map, mem_ofContract_iff]
    constructor
    · rintro ⟨failure, found, isId⟩
      exact ⟨failure.id, isId, by rw [found]; rfl⟩
    · rintro ⟨id, isId, isSome⟩
      obtain ⟨failure, found⟩ := Option.isSome_iff_exists.mp isSome
      obtain ⟨_, rfl⟩ := failures.getFailure_eq_some found
      exact ⟨failure, found, isId⟩
  have noGaps : ∀ number, number + 1 ∈ (ofContract address failures.getAllFailures).map
      (fun failure => failure.id.toNat) →
        number ∈ (ofContract address failures.getAllFailures).map
          (fun failure => failure.id.toNat) := by
    intro number member
    obtain ⟨next, isNext, isSome⟩ := (stored _).mp member
    have fits := next.toNat_lt
    have isNumber : (UInt64.ofNat number).toNat = number :=
      UInt64.toNat_ofNat_of_lt' (show number < 2 ^ 64 by omega)
    have notLast : UInt64.ofNat number ≠ -1 := by
      intro same
      have := congrArg UInt64.toNat same
      rw [isNumber, show (-1 : UInt64).toNat = 2 ^ 64 - 1 by decide] at this
      omega
    have follows : UInt64.ofNat number + 1 = next := by
      refine UInt64.toNat_inj.mp ?_
      rw [toNat_succ notLast, isNumber, isNext]
    exact (stored _).mpr ⟨UInt64.ofNat number, isNumber, gapless _ notLast (follows ▸ isSome)⟩
  have isNumber := getElem_of_gapless increasing noGaps (by rwa [List.length_map])
  rwa [List.getElem_map] at isNumber

end FailureStore

def Chain.new (app : App) : Chain App := ⟨app, ⟨0⟩, .empty⟩

theorem initGenesis_exportGenesis_iff (chain : Chain App) :
    initGenesis (Chain.new chain.app) (exportGenesis chain) = chain ↔
      ∀ (address : Address) (id : UInt64), id ≠ -1 →
        (chain.failures.getFailure address (id + 1)).isSome →
        (chain.failures.getFailure address id).isSome := by
  have imported := FailureStore.getFailure_importAll chain.failures.length_ofContract_le
  constructor
  · intro same address id notLast isSome
    have isImported := congrArg Chain.failures same
    dsimp only [initGenesis, exportGenesis, Chain.new] at isImported
    rw [← isImported, imported, Option.isSome_map] at isSome ⊢
    rw [toNat_succ notLast] at isSome
    simp only [isSome_getElem?] at isSome ⊢
    omega
  · intro gapless
    have sameFailures : FailureStore.empty.importAll chain.failures.getAllFailures =
        chain.failures := by
      refine FailureStore.ext_getFailure fun address id => ?_
      rw [imported]
      refine Option.ext fun failure => ?_
      rw [Option.map_eq_some_iff]
      constructor
      · rintro ⟨stored, isStored, rfl⟩
        obtain ⟨isIndex, isElement⟩ := List.getElem?_eq_some_iff.mp isStored
        have isId : stored.id = id := UInt64.toNat_inj.mp
          (isElement ▸ chain.failures.getElem_ofContract_id (gapless address) isIndex)
        subst isId
        exact (chain.failures.mem_ofContract_iff address stored).mp
          (isElement ▸ List.getElem_mem isIndex)
      · intro found
        obtain ⟨_, rfl⟩ := chain.failures.getFailure_eq_some found
        obtain ⟨index, isIndex, isFailure⟩ := List.getElem_of_mem
          ((chain.failures.mem_ofContract_iff address failure).mpr found)
        have isId := chain.failures.getElem_ofContract_id (gapless address) isIndex
        rw [isFailure] at isId
        exact ⟨failure, isId ▸ List.getElem?_eq_some_iff.mpr ⟨isIndex, isFailure⟩, rfl⟩
    unfold initGenesis exportGenesis
    dsimp only [Chain.new]
    rw [sameFailures]

def resubmittedChain : Chain Unit :=
  ⟨(), ⟨1000⟩, ((FailureStore.empty.addContractFailure neutronContract [1] "first").addContractFailure
    neutronContract [2] "second").removeFailure neutronContract 0⟩

/-- The second failure comes back under the identifier of the first. -/
theorem initGenesis_renumbers :
    initGenesis (Chain.new ()) (exportGenesis resubmittedChain) ≠ resubmittedChain := by
  intro same
  have moved := congrArg (fun chain => chain.failures.getFailure neutronContract 0) same
  exact absurd moved (by decide +kernel)

end Neutron.ContractManager
