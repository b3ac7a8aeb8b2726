import Neutron.Library.Machine
import Neutron.ContractManager.Sudo

namespace Neutron.ContractManager

open Library

structure MsgResubmitFailure where
  sender : Address
  failureId : UInt64

inductive ResubmitError where
  | notContractResubmission
  | notFound
  | incorrectFailureToResubmit
deriving DecidableEq

/-- The store, and a history that the code does not keep: all failures ever recorded, for
every key the number of the recording that is stored there, and the recordings that have
been executed again. -/
structure World where
  failures : FailureStore
  recordings : List Failure
  serials : SortedStore Bytes Nat
  replayed : List Nat

namespace World

def initial : World := ⟨.empty, [], .empty, []⟩

/-- `AddContractFailure` -/
def record (world : World) (address : Address) (sudoPayload : Bytes) (errMsg : String) :
    World :=
  let failure := world.failures.newFailure address sudoPayload errMsg
  { world with
    failures := world.failures.addContractFailure address sudoPayload errMsg
    recordings := world.recordings ++ [failure]
    serials := world.serials.set (getFailureKey address failure.id) world.recordings.length }

end World

/-- Calls under way: of transactions and contracts, of `SudoLimitWrapper.Sudo`, and of
`resubmitFailure` with the failure it has loaded. -/
inductive Frame where
  | execution
  | limitedSudo (address : Address) (msg : Bytes)
  | resubmission (sender : Address) (failure : Failure) (serial : Nat)

/-- `ResubmitFailure` up to the call of the contract. -/
def beginResubmit (hasContractInfo : Address → Bool) (world : World)
    (msg : MsgResubmitFailure) : Except ResubmitError Frame := do
  Outcome.require (hasContractInfo msg.sender) .notContractResubmission
  match world.failures.getFailure msg.sender msg.failureId with
  | none => .error .notFound
  | some failure => do
      -- an empty payload is stored as none
      Outcome.require (failure.sudoPayload ≠ []) .incorrectFailureToResubmit
      let serial := (world.serials.get? (getFailureKey msg.sender msg.failureId)).getD 0
      .ok (.resubmission msg.sender failure serial)

/-- `resubmitFailure` once the contract has succeeded. -/
def finishResubmit (world : World) (sender : Address) (failure : Failure) (serial : Nat) :
    World :=
  { world with
    failures := world.failures.removeFailure sender failure.id
    serials := world.serials.delete (getFailureKey sender failure.id)
    replayed := world.replayed ++ [serial] }

def Frame.finish (world : World) : Frame → World
  | .execution => world
  | .limitedSudo _ _ => world
  | .resubmission sender failure serial => finishResubmit world sender failure serial

def Frame.fail (before : World) (error : SudoError) : Frame → World
  | .execution => before
  | .limitedSudo address msg => before.record address msg (redactError error)
  | .resubmission _ _ _ => before

abbrev State := Nested World Frame

/-- What can happen next.  A panic that is not out of gas passes through all calls. -/
inductive Step where
  | execute
  | limitedSudo (address : Address) (msg : Bytes)
  | resubmit (hasContractInfo : Address → Bool) (msg : MsgResubmitFailure)
  | finish
  | fail (error : SudoError)
  | panic

def step (state : State) : Step → State
  | .execute => state.enter .execution state.world
  | .limitedSudo address msg => state.enter (.limitedSudo address msg) state.world
  | .resubmit hasContractInfo msg =>
      match beginResubmit hasContractInfo state.world msg with
      | .error _ => state
      | .ok frame => state.enter frame state.world
  | .finish =>
      match state.stack with
      | [] => state
      | (frame, _) :: _ => state.leave (frame.finish state.world)
  | .fail error =>
      match state.stack with
      | [] => state
      | (frame, snapshot) :: _ => state.revert.update (frame.fail snapshot error)
  | .panic => state.revert

def run (steps : List Step) : State := Machine.run step (Nested.idle World.initial) steps

def World.ReplaysOnce (world : World) : Prop :=
  world.replayed.Nodup ∧
    ∀ serial failure, world.recordings[serial]? = some failure → serial ∉ world.replayed →
      world.failures.getFailure failure.address failure.id = some failure ∧
        world.serials.get? (getFailureKey failure.address failure.id) = some serial

def Frame.resubmits (sender : Address) (id : UInt64) : Frame → Bool
  | .resubmission other failure _ => decide (other = sender ∧ failure.id = id)
  | _ => false

def Frame.hasRoom (before : World) : Frame → Bool
  | .limitedSudo address _ =>
      (before.failures.getFailure address (-1)).isNone ||
        (before.failures.getFailure address 0).isNone
  | _ => true

def unnested (state : State) : Step → Bool
  | .finish =>
      match state.stack with
      | (.resubmission sender failure _, _) :: outer =>
          (outer.map Prod.fst).all fun frame => !frame.resubmits sender failure.id
      | _ => true
  | .fail _ =>
      match state.stack with
      | (frame, snapshot) :: _ => frame.hasRoom snapshot
      | [] => true
  | _ => true

/-- The history agrees with the store, and every failure that is being executed again is
still stored. -/
structure World.Sound (world : World) (frames : List Frame) : Prop where
  stored : ∀ {key serial}, world.serials.get? key = some serial →
    ∃ failure, world.recordings[serial]? = some failure ∧
      world.failures.entries.get? key = some failure ∧ serial ∉ world.replayed
  numbered : ∀ {key failure}, world.failures.entries.get? key = some failure →
    ∃ serial, world.serials.get? key = some serial
  kept : ∀ {serial failure}, world.recordings[serial]? = some failure →
    serial ∉ world.replayed →
    world.serials.get? (getFailureKey failure.address failure.id) = some serial
  replayedOnce : world.replayed.Nodup
  recorded : ∀ serial ∈ world.replayed, serial < world.recordings.length
  loaded : ∀ {sender failure serial}, .resubmission sender failure serial ∈ frames →
    world.serials.get? (getFailureKey sender failure.id) = some serial

namespace World.Sound

variable {world : World} {frames : List Frame}

theorem replaysOnce (sound : world.Sound frames) : world.ReplaysOnce := by
  refine ⟨sound.replayedOnce, fun serial failure isRecorded pending => ?_⟩
  have isSerial := sound.kept isRecorded pending
  obtain ⟨found, isFound, isStored, _⟩ := sound.stored isSerial
  obtain rfl := Option.some.inj (isFound.symm.trans isRecorded)
  exact ⟨isStored, isSerial⟩

theorem key_unique (sound : world.Sound frames) {key other : Bytes} {serial : Nat}
    (isSerial : world.serials.get? key = some serial)
    (isOther : world.serials.get? other = some serial) : key = other := by
  obtain ⟨failure, isRecorded, isStored, _⟩ := sound.stored isSerial
  obtain ⟨again, isAgain, isStoredToo, _⟩ := sound.stored isOther
  obtain rfl := Option.some.inj (isRecorded.symm.trans isAgain)
  rw [world.failures.kept isStored, world.failures.kept isStoredToo]

theorem initial : World.initial.Sound [] where
  stored := fun isSerial => by simp [World.initial] at isSerial
  numbered := fun isStored => by simp [World.initial, FailureStore.empty] at isStored
  kept := fun isRecorded => by simp [World.initial] at isRecorded
  replayedOnce := List.nodup_nil
  recorded := fun _ member => absurd member List.not_mem_nil
  loaded := fun member => absurd member List.not_mem_nil

theorem enter (sound : world.Sound frames) {frame : Frame}
    (isLoaded : ∀ {sender failure serial}, frame = .resubmission sender failure serial →
      world.serials.get? (getFailureKey sender failure.id) = some serial) :
    world.Sound (frame :: frames) :=
  { sound with
    loaded := by
      intro sender failure serial member
      rcases List.mem_cons.mp member with same | member
      · exact isLoaded same.symm
      · exact sound.loaded member }

theorem leave {frame : Frame} (sound : world.Sound (frame :: frames)) : world.Sound frames :=
  { sound with loaded := fun member => sound.loaded (List.mem_cons_of_mem _ member) }

theorem record (sound : world.Sound frames) {address : Address}
    (room : world.failures.getFailure address (-1) = none ∨
      world.failures.getFailure address 0 = none) (payload : Bytes) (errMsg : String) :
    (world.record address payload errMsg).Sound frames := by
  have unused := world.failures.getFailure_getNextFailureIDKey room
  have isEntry : ∀ key, (world.record address payload errMsg).failures.entries.get? key =
      if key = getFailureKey address (world.failures.getNextFailureIDKey address) then
        some (world.failures.newFailure address payload errMsg)
      else world.failures.entries.get? key := fun key => by
    simp only [World.record, FailureStore.addContractFailure, FailureStore.setFailure,
      FailureStore.newFailure, SortedStore.get?_set]
    congr
  have isSerial : ∀ key, (world.record address payload errMsg).serials.get? key =
      if key = getFailureKey address (world.failures.getNextFailureIDKey address) then
        some world.recordings.length
      else world.serials.get? key := fun key => by
    simp only [World.record, FailureStore.newFailure, SortedStore.get?_set]
    congr
  have isLatest : (world.record address payload errMsg).recordings[world.recordings.length]? =
      some (world.failures.newFailure address payload errMsg) := List.getElem?_concat_length
  have isEarlier : ∀ {serial}, serial < world.recordings.length →
      (world.record address payload errMsg).recordings[serial]? = world.recordings[serial]? :=
    fun below => List.getElem?_append_left below
  -- a recording that is stored already has another key
  have apart : ∀ {key serial}, world.serials.get? key = some serial →
      key ≠ getFailureKey address (world.failures.getNextFailureIDKey address) := by
    intro key serial isStored same
    obtain ⟨failure, _, found, _⟩ := sound.stored isStored
    rw [same] at found
    exact nomatch unused.symm.trans found
  constructor
  case stored =>
    intro key serial isStored
    rw [isSerial] at isStored
    rw [isEntry]
    split at isStored
    · rename_i same
      obtain rfl := Option.some.inj isStored
      exact ⟨_, isLatest, if_pos same,
        fun member => absurd (sound.recorded _ member) (lt_irrefl _)⟩
    · rename_i different
      obtain ⟨failure, isRecorded, found, pending⟩ := sound.stored isStored
      have below := (List.getElem?_eq_some_iff.mp isRecorded).1
      exact ⟨failure, (isEarlier below).trans isRecorded, (if_neg different).trans found, pending⟩
  case numbered =>
    intro key failure found
    rw [isEntry] at found
    rw [isSerial]
    split
    · exact ⟨_, rfl⟩
    · rename_i different
      rw [if_neg different] at found
      exact sound.numbered found
  case kept =>
    intro serial failure isRecorded pending
    rw [isSerial]
    rcases Nat.lt_or_ge serial world.recordings.length with below | above
    · rw [isEarlier below] at isRecorded
      have stored := sound.kept isRecorded pending
      rw [if_neg (apart stored), stored]
    · have isLast : serial = world.recordings.length := by
        have bound := (List.getElem?_eq_some_iff.mp isRecorded).1
        rw [World.record, List.length_append, List.length_singleton] at bound
        omega
      subst isLast
      obtain rfl := Option.some.inj (isLatest.symm.trans isRecorded)
      exact if_pos rfl
  case replayedOnce => exact sound.replayedOnce
  case recorded =>
    intro serial member
    rw [World.record, List.length_append]
    exact Nat.lt_add_right _ (sound.recorded serial member)
  case loaded =>
    intro sender failure serial member
    have stored := sound.loaded member
    rw [isSerial, if_neg (apart stored), stored]

theorem finishResubmit {sender : Address} {failure : Failure} {serial : Nat}
    (sound : world.Sound (.resubmission sender failure serial :: frames))
    (apart : frames.all fun frame => !frame.resubmits sender failure.id) :
    (finishResubmit world sender failure serial).Sound frames := by
  have isLoaded := sound.loaded (List.mem_cons_self ..)
  obtain ⟨found, isRecorded, isFound, pending⟩ := sound.stored isLoaded
  have isEntry : ∀ key, (ContractManager.finishResubmit world sender failure
      serial).failures.entries.get? key = if key = getFailureKey sender failure.id then none
        else world.failures.entries.get? key := fun key => by
    simp only [ContractManager.finishResubmit, FailureStore.removeFailure,
      SortedStore.get?_delete]
    congr
  have isSerial : ∀ key, (ContractManager.finishResubmit world sender failure
      serial).serials.get? key = if key = getFailureKey sender failure.id then none
        else world.serials.get? key := fun key => by
    simp only [ContractManager.finishResubmit, SortedStore.get?_delete]
    congr
  constructor
  case stored =>
    intro key other isOther
    rw [isSerial] at isOther
    rw [isEntry]
    split at isOther
    · cases isOther
    · rename_i different
      obtain ⟨failure, isRecorded, isFound, pending⟩ := sound.stored isOther
      refine ⟨failure, isRecorded, (if_neg different).trans isFound, fun member => ?_⟩
      rcases List.mem_append.mp member with earlier | now
      · exact pending earlier
      · rw [List.mem_singleton.mp now] at isOther
        exact different (sound.key_unique isOther isLoaded)
  case numbered =>
    intro key other isFound
    rw [isEntry] at isFound
    rw [isSerial]
    split at isFound
    · cases isFound
    · rename_i different
      rw [if_neg different]
      exact sound.numbered isFound
  case kept =>
    intro other recorded isRecorded pending
    have stored := sound.kept isRecorded fun member => pending (List.mem_append_left _ member)
    rw [isSerial, if_neg, stored]
    intro same
    rw [same] at stored
    obtain rfl := Option.some.inj (isLoaded.symm.trans stored)
    exact pending (List.mem_append_right _ (List.mem_singleton_self _))
  case replayedOnce =>
    refine List.nodup_append.mpr ⟨sound.replayedOnce, by simp, ?_⟩
    intro earlier isEarlier now isNow same
    rw [same, List.mem_singleton.mp isNow] at isEarlier
    exact pending isEarlier
  case recorded =>
    intro other member
    rcases List.mem_append.mp member with earlier | now
    · exact sound.recorded other earlier
    · rw [List.mem_singleton.mp now]
      exact (List.getElem?_eq_some_iff.mp isRecorded).1
  case loaded =>
    intro other loading number member
    have stored := sound.loaded (List.mem_cons_of_mem _ member)
    rw [isSerial, if_neg, stored]
    intro same
    obtain ⟨sameSender, sameId⟩ := getFailureKey_inj.mp same
    have excluded := List.all_eq_true.mp apart _ member
    simp [Frame.resubmits, sameSender, sameId] at excluded

end World.Sound

theorem beginResubmit_eq_ok {hasContractInfo : Address → Bool} {world : World}
    {frames : List Frame} {msg : MsgResubmitFailure} {frame : Frame}
    (sound : world.Sound frames) (ok : beginResubmit hasContractInfo world msg = .ok frame) :
    ∃ failure serial, frame = .resubmission msg.sender failure serial ∧
      world.serials.get? (getFailureKey msg.sender failure.id) = some serial := by
  obtain ⟨_, _, ok⟩ := of_bind ok
  split at ok
  · cases ok
  · rename_i failure found
    obtain ⟨_, _, ok⟩ := of_bind ok
    obtain ⟨serial, isSerial⟩ := sound.numbered found
    rw [isSerial] at ok
    cases ok
    refine ⟨failure, serial, rfl, ?_⟩
    rw [(world.failures.getFailure_eq_some found).2]
    exact isSerial

theorem step_sound {state : State} {next : Step}
    (keeps : Nested.Keeps World.Sound state.world state.stack)
    (allowed : unnested state next) :
    Nested.Keeps World.Sound (step state next).world (step state next).stack := by
  cases next with
  | execute => exact keeps.enter (keeps.now.enter fun impossible => nomatch impossible)
  | limitedSudo address msg =>
      exact keeps.enter (keeps.now.enter fun impossible => nomatch impossible)
  | resubmit hasContractInfo msg =>
      dsimp only [step]
      split
      · exact keeps
      · rename_i frame ok
        obtain ⟨failure, serial, rfl, isLoaded⟩ := beginResubmit_eq_ok keeps.now ok
        refine keeps.enter (keeps.now.enter ?_)
        intro sender other number same
        cases same
        exact isLoaded
  | finish =>
      obtain ⟨world, stack⟩ := state
      cases stack with
      | nil => exact keeps
      | cons top outer =>
          obtain ⟨frame, snapshot⟩ := top
          refine keeps.leave ?_
          cases frame with
          | execution => exact keeps.now.leave
          | limitedSudo address msg => exact keeps.now.leave
          | resubmission sender failure serial => exact keeps.now.finishResubmit allowed
  | fail error =>
      obtain ⟨world, stack⟩ := state
      cases stack with
      | nil => exact keeps
      | cons top outer =>
          obtain ⟨frame, snapshot⟩ := top
          have before := keeps.revert
          refine before.update ?_
          cases frame with
          | execution => exact before.now
          | limitedSudo address msg =>
              have room : snapshot.failures.getFailure address (-1) = none ∨
                  snapshot.failures.getFailure address 0 = none := by
                simpa [unnested, Frame.hasRoom] using allowed
              exact before.now.record room msg _
          | resubmission sender failure serial => exact before.now
  | panic => exact keeps.revert

/-- In every run in which no resubmission succeeds inside of another one of the same
failure, failures are executed again at most once and are stored until then. -/
theorem failures_replayed_once (steps : List Step)
    (allowed : Machine.Allowed step (fun state next => unnested state next)
      (Nested.idle World.initial) steps) : (run steps).world.ReplaysOnce := by
  have start : Nested.Keeps World.Sound World.initial [] := World.Sound.initial
  have keeps := @Machine.Allowed.invariant _ _ step _
    (fun state => Nested.Keeps World.Sound state.world state.stack)
    (fun _ _ keeps allowed => step_sound keeps allowed) _ _ start allowed
  exact keeps.now.replaysOnce

def resubmitting : List Step :=
  [.limitedSudo neutronContract [1], .fail (.registered "wasm" 5),
    .execute, .resubmit (fun _ => true) ⟨neutronContract, 0⟩, .finish, .finish]

theorem failures_replayed_once_resubmitting : (run resubmitting).world.ReplaysOnce :=
  failures_replayed_once resubmitting (by decide +kernel)

/-- A contract that resubmits a failure while the failure is being executed again, and
whose next call fails before the first execution is over. -/
def resubmittingWithin : List Step :=
  [.limitedSudo neutronContract [1], .fail (.registered "wasm" 5),
    .resubmit (fun _ => true) ⟨neutronContract, 0⟩,
    .resubmit (fun _ => true) ⟨neutronContract, 0⟩, .finish,
    .limitedSudo neutronContract [2], .fail (.registered "wasm" 5), .finish]

/-- The first failure has been executed again twice, and the second one is lost. -/
theorem failure_replayed_twice :
    (run resubmittingWithin).world.replayed = [0, 0] ∧
      (run resubmittingWithin).world.recordings.length = 2 ∧
      (run resubmittingWithin).world.failures.getAllFailures = [] ∧
      ¬ (run resubmittingWithin).world.ReplaysOnce := by
  have replayed : (run resubmittingWithin).world.replayed = [0, 0] := by decide +kernel
  refine ⟨replayed, by decide +kernel, by decide +kernel, fun replaysOnce => ?_⟩
  have once := replaysOnce.1
  rw [replayed] at once
  exact absurd once (by decide)

end Neutron.ContractManager
