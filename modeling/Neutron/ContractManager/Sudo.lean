import Neutron.ContractManager.Keeper

namespace Neutron.ContractManager

open Library

universe u

inductive SudoError where
  | system (message : String)
  | registered (codespace : String) (code : Nat)
deriving DecidableEq

def errSudoOutOfGas : SudoError := .registered "contractmanager" 1103

/-- `RedactError` and the text of its result. -/
def redactError : SudoError → String
  | .system message => message
  | .registered codespace code => "codespace: " ++ codespace ++ ", code: " ++ toString code

/-- What is stored: the state of this module, and all of the rest. -/
structure Chain (App : Type u) where
  app : App
  params : Params
  failures : FailureStore

structure Context (App : Type u) where
  chain : Chain App
  gasConsumed : Nat

structure GasMeter where
  limit : Nat
  consumed : Nat

namespace GasMeter

def isPastLimit (meter : GasMeter) : Bool := decide (meter.limit < meter.consumed)

def isOutOfGas (meter : GasMeter) : Bool := decide (meter.limit ≤ meter.consumed)

def gasConsumedToLimit (meter : GasMeter) : Nat :=
  if meter.isPastLimit then meter.limit else meter.consumed

end GasMeter

inductive Panic where
  | outOfGas
  | other (message : String)
deriving DecidableEq

inductive Ending where
  | returned (resp : Bytes)
  | failed (error : SudoError)
  | panicked (panic : Panic)

/-- A call of a contract on a cached context: the chain as the contract leaves it, the gas
it takes, and how it ends. -/
structure ContractRun (App : Type u) where
  chain : Chain App
  gasConsumed : Nat
  ending : Ending

/-- `Sudo` of the wasm keeper under a gas limit. -/
abbrev WasmSudo (App : Type u) := Chain App → Nat → Address → Bytes → ContractRun App

inductive Result (App : Type u) where
  | returned (context : Context App) (resp : Except SudoError Bytes)
  | panicked (context : Context App) (panic : Panic)

/-- `outOfGasRecovery`, with the result of the call when there is no panic. -/
def outOfGasRecovery (gasMeter : GasMeter) : Ending → Except Panic (Except SudoError Bytes)
  | .returned resp => .ok (.ok resp)
  | .failed error => .ok (.error error)
  | .panicked panic =>
      if panic = .outOfGas ∧ gasMeter.isOutOfGas then .ok (.error errSudoOutOfGas)
      else .error panic

def SudoLimitWrapper.sudo {App : Type u} (wasmSudo : WasmSudo App) (context : Context App)
    (contractAddress : Address) (msg : Bytes) : Result App :=
  let limit := context.chain.params.sudoCallGasLimit
  let run := wasmSudo context.chain limit contractAddress msg
  let cacheMeter : GasMeter := ⟨limit, run.gasConsumed⟩
  let charged := context.gasConsumed + cacheMeter.gasConsumedToLimit
  match outOfGasRecovery cacheMeter run.ending with
  | .error panic => .panicked context panic
  | .ok (.error error) =>
      let failures := context.chain.failures.addContractFailure contractAddress msg
        (redactError error)
      .returned ⟨{ context.chain with failures := failures }, charged⟩ (.error error)
  | .ok (.ok resp) => .returned ⟨run.chain, charged⟩ (.ok resp)

/-- One failure of a contract has been added, under an identifier that was not in use. -/
def FailureAdded (address : Address) (payload : Bytes) (before after : FailureStore) : Prop :=
  ∃ added : Failure, added.address = address ∧ added.sudoPayload = payload ∧
    before.getFailure address added.id = none ∧
    after.getFailure address added.id = some added ∧
    ∀ other id, (other, id) ≠ (address, added.id) →
      after.getFailure other id = before.getFailure other id

/-- The call is rolled back as a whole, apart from the failure that is stored for it. -/
def Discarded {App : Type u} (address : Address) (payload : Bytes)
    (before after : Chain App) : Prop :=
  after.app = before.app ∧ after.params = before.params ∧
    FailureAdded address payload before.failures after.failures

/-- A contract does all it does, or it fails and leaves a failure, or the panic goes on;
and what it has used of its gas is charged. -/
structure Atomic {App : Type u} (wasmSudo : WasmSudo App) (context : Context App)
    (address : Address) (msg : Bytes) : Prop where
  committed : ∀ {limit run resp}, context.chain.params.sudoCallGasLimit = limit →
    wasmSudo context.chain limit address msg = run → run.ending = .returned resp →
    SudoLimitWrapper.sudo wasmSudo context address msg =
      .returned ⟨run.chain, context.gasConsumed + min run.gasConsumed limit⟩ (.ok resp)
  failed : ∀ {limit run error}, context.chain.params.sudoCallGasLimit = limit →
    wasmSudo context.chain limit address msg = run → run.ending = .failed error →
    ∃ chain, Discarded address msg context.chain chain ∧
      SudoLimitWrapper.sudo wasmSudo context address msg =
        .returned ⟨chain, context.gasConsumed + min run.gasConsumed limit⟩ (.error error)
  outOfGas : ∀ {limit run}, context.chain.params.sudoCallGasLimit = limit →
    wasmSudo context.chain limit address msg = run → run.ending = .panicked .outOfGas →
    limit ≤ run.gasConsumed →
    ∃ chain, Discarded address msg context.chain chain ∧
      SudoLimitWrapper.sudo wasmSudo context address msg =
        .returned ⟨chain, context.gasConsumed + limit⟩ (.error errSudoOutOfGas)
  panicked : ∀ {limit run panic}, context.chain.params.sudoCallGasLimit = limit →
    wasmSudo context.chain limit address msg = run → run.ending = .panicked panic →
    ¬ (panic = .outOfGas ∧ limit ≤ run.gasConsumed) →
    SudoLimitWrapper.sudo wasmSudo context address msg = .panicked context panic

variable {App : Type u}

theorem GasMeter.gasConsumedToLimit_eq (limit consumed : Nat) :
    (GasMeter.mk limit consumed).gasConsumedToLimit = min consumed limit := by
  unfold GasMeter.gasConsumedToLimit GasMeter.isPastLimit
  simp only [decide_eq_true_eq]
  split <;> omega

theorem FailureStore.addContractFailure_added (failures : FailureStore) {address : Address}
    (room : failures.getFailure address (-1) = none ∨ failures.getFailure address 0 = none)
    (payload : Bytes) (errMsg : String) :
    FailureAdded address payload failures
      (failures.addContractFailure address payload errMsg) := by
  refine ⟨failures.newFailure address payload errMsg, rfl, rfl,
    failures.getFailure_getNextFailureIDKey room, ?_, ?_⟩
  · rw [getFailure_addContractFailure]
    exact if_pos ⟨rfl, rfl⟩
  · intro other id different
    rw [getFailure_addContractFailure]
    exact if_neg fun same => different (Prod.ext same.1 same.2)

theorem Chain.discarded_addContractFailure (chain : Chain App) {address : Address}
    (room : chain.failures.getFailure address (-1) = none ∨
      chain.failures.getFailure address 0 = none) (payload : Bytes) (errMsg : String) :
    Discarded address payload chain
      { chain with failures := chain.failures.addContractFailure address payload errMsg } :=
  ⟨rfl, rfl, chain.failures.addContractFailure_added room payload errMsg⟩

theorem sudo_atomic (wasmSudo : WasmSudo App) (context : Context App) (address : Address)
    (msg : Bytes)
    (room : context.chain.failures.getFailure address (-1) = none ∨
      context.chain.failures.getFailure address 0 = none) :
    Atomic wasmSudo context address msg where
  committed := by
    rintro limit run resp rfl rfl returned
    simp only [SudoLimitWrapper.sudo, outOfGasRecovery, returned, GasMeter.gasConsumedToLimit_eq]
  failed := by
    rintro limit run error rfl rfl failed
    refine ⟨_, context.chain.discarded_addContractFailure room msg (redactError error), ?_⟩
    simp only [SudoLimitWrapper.sudo, outOfGasRecovery, failed, GasMeter.gasConsumedToLimit_eq]
  outOfGas := by
    rintro limit run rfl rfl panicked exhausted
    refine ⟨_, context.chain.discarded_addContractFailure room msg
      (redactError errSudoOutOfGas), ?_⟩
    simp only [SudoLimitWrapper.sudo, outOfGasRecovery, panicked, GasMeter.isOutOfGas,
      GasMeter.gasConsumedToLimit_eq, exhausted, decide_true, and_self, if_true, min_eq_right]
  panicked := by
    rintro limit run panic rfl rfl panicked elsewhere
    simp only [SudoLimitWrapper.sudo, outOfGasRecovery, panicked, GasMeter.isOutOfGas,
      decide_eq_true_eq, if_neg elsewhere]

def neutronContract : Address := ⟨"neutron1contract", by decide⟩

def failingSudo : WasmSudo Unit := fun chain _ _ _ => ⟨chain, 10, .failed (.registered "wasm" 5)⟩

theorem sudo_atomic_empty :
    Atomic failingSudo ⟨⟨(), ⟨1000⟩, .empty⟩, 0⟩ neutronContract [1] :=
  sudo_atomic failingSudo _ neutronContract [1] (.inl (FailureStore.getFailure_empty _ _))

def fullFailures : FailureStore :=
  (FailureStore.empty.setFailure ⟨neutronContract, 0, [1], "first"⟩).setFailure
    ⟨neutronContract, -1, [2], "last"⟩

/-- The identifier after the last one is the first, which is in use. -/
theorem sudo_overwrites :
    ¬ Atomic failingSudo ⟨⟨(), ⟨1000⟩, fullFailures⟩, 0⟩ neutronContract [3] := by
  intro atomic
  obtain ⟨chain, ⟨_, _, added, _, _, unused, _, others⟩, isResult⟩ := atomic.failed rfl rfl rfl
  obtain rfl : chain = ⟨(), ⟨1000⟩, fullFailures.addContractFailure neutronContract [3]
      "codespace: wasm, code: 5"⟩ := (congrArg Context.chain (Result.returned.inj isResult).1).symm
  have otherId : added.id ≠ 0 := by
    intro same
    rw [same] at unused
    exact absurd unused (by decide +kernel)
  have kept := others neutronContract 0 fun same => otherId (Prod.mk.inj same).2.symm
  exact absurd kept (by decide +kernel)

end Neutron.ContractManager
