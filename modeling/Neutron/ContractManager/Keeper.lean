import Neutron.Library.Bytes
import Neutron.Library.Nested
import Neutron.Library.Outcome
import Neutron.Library.SortedStore

namespace Neutron.ContractManager

open Library

universe u

/-! The failures of contracts in sudo calls: how they are stored, the wrapper that limits
the gas of sudo calls and stores their failures, resubmission, and genesis. -/

def slash : Byte := 47

/-- The bech32 text of an account address, which has no slash. -/
structure Address where
  text : String
  noSlash : slash ∉ bytes text
deriving DecidableEq

structure Failure where
  address : Address
  id : UInt64
  sudoPayload : Bytes
  error : String
deriving DecidableEq

structure Params where
  sudoCallGasLimit : Nat
deriving DecidableEq

def contractFailuresKey : Bytes := [1]

def getFailureKeyPrefix (address : Address) : Bytes :=
  contractFailuresKey ++ bytes address.text ++ [slash]

def getFailureKey (address : Address) (offset : UInt64) : Bytes :=
  getFailureKeyPrefix address ++ bigEndian 8 offset.toNat

theorem getFailureKeyPrefix_isPrefix_iff (address other : Address) (offset : UInt64) :
    getFailureKeyPrefix address <+: getFailureKey other offset ↔ address = other := by
  have sameText : bytes address.text = bytes other.text ↔ address = other := by
    rw [bytes_injective.eq_iff]
    exact ⟨fun same => by cases address; cases other; cases same; rfl, congrArg _⟩
  unfold getFailureKey getFailureKeyPrefix
  simp only [List.append_assoc, List.prefix_append_right_inj, List.cons_append,
    List.nil_append, terminated_isPrefix_iff address.noSlash other.noSlash, sameText]

theorem getFailureKey_lt (address : Address) {offset later : UInt64} (below : offset < later) :
    getFailureKey address offset < getFailureKey address later :=
  List.append_left_lt (bigEndian_lt (UInt64.lt_iff_toNat_lt.mp below) later.toNat_lt)

theorem getFailureKey_inj {address other : Address} {offset otherOffset : UInt64} :
    getFailureKey address offset = getFailureKey other otherOffset ↔
      address = other ∧ offset = otherOffset := by
  constructor
  · intro same
    have begins : getFailureKeyPrefix address <+: getFailureKey other otherOffset :=
      same ▸ List.prefix_append _ _
    obtain rfl := (getFailureKeyPrefix_isPrefix_iff _ _ _).mp begins
    refine ⟨rfl, UInt64.toNat_inj.mp ?_⟩
    exact bigEndian_injective offset.toNat_lt otherOffset.toNat_lt
      (List.append_cancel_left same)
  · rintro ⟨rfl, rfl⟩
    rfl

theorem toNat_succ {id : UInt64} (notLast : id ≠ -1) : (id + 1).toNat = id.toNat + 1 := by
  have fits : id.toNat + 1 < 2 ^ 64 := by
    have below := id.toNat_lt
    by_contra tooLarge
    refine notLast (UInt64.toNat_inj.mp ?_)
    rw [show (-1 : UInt64).toNat = 2 ^ 64 - 1 by decide]
    omega
  rw [UInt64.toNat_add, show (1 : UInt64).toNat = 1 from rfl, Nat.mod_eq_of_lt fits]

/-- Every failure is stored under its address and its identifier. -/
structure FailureStore where
  entries : SortedStore Bytes Failure
  kept : ∀ {key failure}, entries.get? key = some failure →
    key = getFailureKey failure.address failure.id

namespace FailureStore

def empty : FailureStore := ⟨.empty, fun found => by simp at found⟩

def getFailure (failures : FailureStore) (contractAddr : Address) (id : UInt64) :
    Option Failure :=
  failures.entries.get? (getFailureKey contractAddr id)

def getNextFailureIDKey (failures : FailureStore) (address : Address) : UInt64 :=
  let stored := failures.entries.iterate fun key => (getFailureKeyPrefix address).isPrefixOf key
  match stored.getLast? with
  | some (_, failure) => failure.id + 1
  | none => 0

def setFailure (failures : FailureStore) (failure : Failure) : FailureStore where
  entries := failures.entries.set (getFailureKey failure.address failure.id) failure
  kept := by
    intro key found isFound
    rw [SortedStore.get?_set] at isFound
    split at isFound
    · rename_i same
      rw [same, Option.some.inj isFound]
    · exact failures.kept isFound

/-- `AddContractFailure`: the failure that is stored. -/
def newFailure (failures : FailureStore) (address : Address) (sudoPayload : Bytes)
    (errMsg : String) : Failure :=
  { address := address
    id := failures.getNextFailureIDKey address
    sudoPayload := sudoPayload
    error := errMsg }

def addContractFailure (failures : FailureStore) (address : Address) (sudoPayload : Bytes)
    (errMsg : String) : FailureStore :=
  failures.setFailure (failures.newFailure address sudoPayload errMsg)

def getAllFailures (failures : FailureStore) : List Failure := failures.entries.values

def removeFailure (failures : FailureStore) (contractAddr : Address) (id : UInt64) :
    FailureStore where
  entries := failures.entries.delete (getFailureKey contractAddr id)
  kept := by
    intro key found isFound
    exact failures.kept (SortedStore.of_get?_delete isFound)

variable (failures : FailureStore)

theorem getFailure_eq_some {address : Address} {id : UInt64} {failure : Failure}
    (found : failures.getFailure address id = some failure) :
    failure.address = address ∧ failure.id = id := by
  obtain ⟨sameAddress, sameId⟩ := getFailureKey_inj.mp (failures.kept found)
  exact ⟨sameAddress.symm, sameId.symm⟩

@[simp] theorem getFailure_empty (address : Address) (id : UInt64) :
    empty.getFailure address id = none := SortedStore.get?_empty _

theorem getFailure_setFailure (failure : Failure) (address : Address) (id : UInt64) :
    (failures.setFailure failure).getFailure address id =
      if address = failure.address ∧ id = failure.id then some failure
      else failures.getFailure address id := by
  unfold getFailure setFailure
  simp only [SortedStore.get?_set, getFailureKey_inj]

theorem getFailure_addContractFailure (address : Address) (payload : Bytes) (errMsg : String)
    (other : Address) (id : UInt64) :
    (failures.addContractFailure address payload errMsg).getFailure other id =
      if other = address ∧ id = failures.getNextFailureIDKey address then
        some (failures.newFailure address payload errMsg)
      else failures.getFailure other id :=
  failures.getFailure_setFailure _ other id

theorem ext_getFailure {failures others : FailureStore}
    (same : ∀ address id, failures.getFailure address id = others.getFailure address id) :
    failures = others := by
  have sameEntries : failures.entries = others.entries := by
    refine SortedStore.ext_get? fun key => Option.ext fun failure => ?_
    constructor
    · intro found
      have isKey := failures.kept found
      rw [isKey] at found ⊢
      exact (same _ _).symm.trans found
    · intro found
      have isKey := others.kept found
      rw [isKey] at found ⊢
      exact (same _ _).trans found
  cases failures
  cases others
  cases sameEntries
  rfl

theorem mem_iterate_iff (address : Address) (key : Bytes) (failure : Failure) :
    (key, failure) ∈ failures.entries.iterate
        (fun key => (getFailureKeyPrefix address).isPrefixOf key) ↔
      failure.address = address ∧ failures.entries.get? key = some failure := by
  rw [SortedStore.mem_iterate_iff, and_comm]
  refine and_congr_left fun found => ?_
  rw [List.isPrefixOf_iff_prefix, failures.kept found, getFailureKeyPrefix_isPrefix_iff]
  exact eq_comm

theorem getNextFailureIDKey_cases (address : Address) :
    ((∀ id, failures.getFailure address id = none) ∧
      failures.getNextFailureIDKey address = 0) ∨
    ∃ last, (failures.getFailure address last).isSome ∧
      (∀ id, (failures.getFailure address id).isSome → id ≤ last) ∧
      failures.getNextFailureIDKey address = last + 1 := by
  have members := failures.mem_iterate_iff address
  have increasing := failures.entries.iterate_increasing
    fun key => (getFailureKeyPrefix address).isPrefixOf key
  unfold getNextFailureIDKey
  generalize failures.entries.iterate
    (fun key => (getFailureKeyPrefix address).isPrefixOf key) = stored at members increasing
  have listed : ∀ {id failure}, failures.getFailure address id = some failure →
      (getFailureKey address id, failure) ∈ stored := fun found =>
    (members _ _).mpr ⟨(failures.getFailure_eq_some found).1, found⟩
  rcases List.eq_nil_or_concat' stored with none | ⟨before, ⟨key, failure⟩, isStored⟩
  · left
    refine ⟨fun id => Option.eq_none_iff_forall_ne_some.mpr fun failure found => ?_, ?_⟩
    · have member := listed found
      rw [none] at member
      exact List.not_mem_nil member
    · rw [none]
      rfl
  · right
    obtain ⟨isAddress, found⟩ := (members key failure).mp (by simp [isStored])
    have isKey := failures.kept found
    rw [isAddress] at isKey
    refine ⟨failure.id, ?_, ?_, ?_⟩
    · rw [getFailure, ← isKey, found]
      rfl
    · intro id isSome
      obtain ⟨other, isOther⟩ := Option.isSome_iff_exists.mp isSome
      have member := listed isOther
      rw [isStored, List.mem_append, List.mem_singleton] at member
      rcases member with earlier | same
      · rw [isStored] at increasing
        have below : getFailureKey address id < key :=
          (List.pairwise_append.mp increasing).2.2 _ earlier (key, failure) (by simp)
        by_contra above
        rw [isKey] at below
        exact lt_asymm below (getFailureKey_lt address (UInt64.not_le.mp above))
      · rw [← (failures.getFailure_eq_some isOther).2, (Prod.mk.inj same).2]
        exact UInt64.le_refl _
    · rw [isStored]
      simp

theorem getFailure_getNextFailureIDKey {address : Address}
    (room : failures.getFailure address (-1) = none ∨ failures.getFailure address 0 = none) :
    failures.getFailure address (failures.getNextFailureIDKey address) = none := by
  rcases failures.getNextFailureIDKey_cases address with ⟨none, _⟩ | ⟨last, stored, highest, isNext⟩
  · exact none _
  · rw [isNext]
    by_cases isMax : last = -1
    · subst isMax
      rcases room with absent | absent
      · rw [absent] at stored
        cases stored
      · exact absent
    · rw [← Option.not_isSome_iff_eq_none]
      intro used
      have above := UInt64.le_iff_toNat_le.mp (highest _ used)
      rw [toNat_succ isMax] at above
      omega

end FailureStore

end Neutron.ContractManager
