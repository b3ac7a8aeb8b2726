import Neutron.Cron.Keeper

namespace Neutron.Cron

open Library

variable {App : Type}

def Removes (securityAddress : String) (contracts : Schedule → Nat → ContractRun App)
    (schedule : Schedule) (name : String) : Prop :=
  (∀ index < schedule.msgs.length, (contracts schedule index).succeeds = true) ∧
    ∃ index < schedule.msgs.length,
      .removeSchedule securityAddress name ∈ (contracts schedule index).actions

variable {next : World App} {msgs : List MsgExecuteContract}

section Contracts

variable {chain : Chain} {world : World App}

theorem removeScheduleBinding_eq_ok {contractAddr name : String}
    (ok : removeScheduleBinding chain world contractAddr name = .ok next) :
    contractAddr = world.params.securityAddress ∧ next = world.removeSchedule name := by
  unfold removeScheduleBinding at ok
  split at ok
  · cases ok
  · rename_i isSecurity
    obtain ⟨_, _, ok⟩ := of_bind ok
    obtain ⟨_, _, ok⟩ := of_bind ok
    cases ok
    exact ⟨not_not.mp isSecurity, rfl⟩

theorem World.removeSchedule_absent {name : String}
    (absent : ¬ world.scheduleExists name = true) : world.removeSchedule name = world :=
  if_pos absent

theorem World.removeSchedule_present {name : String}
    (present : world.scheduleExists name = true) :
    world.removeSchedule name =
      ((world.changeTotalCount (-1)).deleteSchedule name).record (.removed name) :=
  if_neg (not_not.mpr present)

@[simp] theorem World.params_removeSchedule (name : String) :
    (world.removeSchedule name).params = world.params := by
  by_cases present : world.scheduleExists name = true
  · rw [World.removeSchedule_present present, World.record, World.deleteSchedule,
      World.changeTotalCount]
  · rw [World.removeSchedule_absent present]

variable {motive : World App → Prop} {securityAddress : String}

theorem ContractRun.perform_induction {run : ContractRun App}
    (change : ∀ world app, motive world → motive { world with app := app })
    (remove : ∀ world name, .removeSchedule securityAddress name ∈ run.actions →
      motive world → motive (world.removeSchedule name))
    (start : motive world ∧ world.params.securityAddress = securityAddress) :
    motive (run.perform chain world) ∧
      (run.perform chain world).params.securityAddress = securityAddress := by
  obtain ⟨actions, succeeds⟩ := run
  unfold ContractRun.perform
  dsimp only at remove ⊢
  induction actions generalizing world with
  | nil => exact start
  | cons action rest ih =>
      refine ih ?_ fun world name member => remove world name (List.mem_cons_of_mem _ member)
      obtain ⟨holds, isSecurity⟩ := start
      cases action with
      | change effect => exact ⟨change world _ holds, isSecurity⟩
      | removeSchedule contractAddr name =>
          rw [ContractAction.perform]
          cases called : removeScheduleBinding chain world contractAddr name with
          | error cause => exact ⟨holds, isSecurity⟩
          | ok next =>
              obtain ⟨rfl, rfl⟩ := removeScheduleBinding_eq_ok called
              dsimp only
              rw [World.params_removeSchedule]
              rw [isSecurity] at remove
              exact ⟨remove world name List.mem_cons_self holds, isSecurity⟩

variable {contracts : Nat → ContractRun App} {index : Nat} {committed : World App}

theorem executeMsgs_induction
    (change : ∀ world app, motive world → motive { world with app := app })
    (remove : ∀ world name step, index ≤ step → step < index + msgs.length →
      .removeSchedule securityAddress name ∈ (contracts step).actions →
        motive world → motive (world.removeSchedule name))
    (ok : executeMsgs chain contracts msgs index world = some committed)
    (start : motive world ∧ world.params.securityAddress = securityAddress) :
    motive committed := by
  induction msgs generalizing index world with
  | nil =>
      cases ok
      exact start.1
  | cons msg rest ih =>
      rw [executeMsgs] at ok
      rw [List.length_cons] at remove
      split at ok
      · refine ih (fun world name step above below => remove world name step (by omega)
          (by omega)) ok (ContractRun.perform_induction change ?_ start)
        exact fun world name => remove world name index le_rfl (by omega)
      · cases ok

theorem executeMsgs_succeeds
    (ok : executeMsgs chain contracts msgs index world = some committed) :
    ∀ step, index ≤ step → step < index + msgs.length → (contracts step).succeeds = true := by
  induction msgs generalizing index world with
  | nil =>
      intro step above below
      simp only [List.length_nil] at below
      omega
  | cons msg rest ih =>
      intro step above below
      rw [List.length_cons] at below
      rw [executeMsgs] at ok
      split at ok
      · rename_i succeeds
        rcases eq_or_lt_of_le above with rfl | later
        · exact succeeds
        · exact ih ok step later (by omega)
      · cases ok

theorem executeSchedule_induction {contracts : Schedule → Nat → ContractRun App}
    {schedule : Schedule} (begun : motive (world.beginExecution schedule))
    (change : ∀ world app, motive world → motive { world with app := app })
    (remove : ∀ next name, Removes world.params.securityAddress contracts schedule name →
      motive next → motive (next.removeSchedule name)) :
    motive (executeSchedule chain contracts world schedule) := by
  unfold executeSchedule
  split
  · rename_i committed ok
    have succeeds := executeMsgs_succeeds ok
    refine executeMsgs_induction change ?_ ok ⟨begun, rfl⟩
    intro next name step above below member
    refine remove next name ⟨fun index inside => ?_, step, by omega, member⟩
    exact succeeds index index.zero_le (by omega)
  · exact begun

end Contracts

def registered (name : String) : List Event → Prop
  | [] => False
  | .added other _ _ :: earlier => other = name ∨ registered name earlier
  | .removed other :: earlier => other ≠ name ∧ registered name earlier
  | .started _ _ :: earlier => registered name earlier
  | .executed _ _ :: earlier => registered name earlier

def ExecutedWhileRegistered : List Event → Prop
  | [] => True
  | .executed name _ :: earlier => registered name earlier ∧ ExecutedWhileRegistered earlier
  | _ :: earlier => ExecutedWhileRegistered earlier

structure World.Consistent (world : World App) : Prop where
  named : ∀ name schedule, world.getSchedule name = some schedule → schedule.name = name
  count : world.scheduleCount.toInt = world.getAllSchedules.length
  stored : ∀ name, world.scheduleExists name = true ↔ registered name world.log
  executed : ExecutedWhileRegistered world.log

variable {amount : Int32}

theorem toInt_add_eq {count : Int32} (low : -2 ^ 31 ≤ count.toInt + amount.toInt)
    (high : count.toInt + amount.toInt < 2 ^ 31) :
    (count + amount).toInt = count.toInt + amount.toInt := by
  rw [Int32.toInt_add]
  exact Int.bmod_eq_of_le low high

section Registry

variable {chain : Chain} {world : World App}

theorem World.exists_iff {name : String} :
    world.scheduleExists name = true ↔ ∃ schedule, world.schedules.get? name = some schedule := by
  rw [World.scheduleExists, Option.isSome_iff_exists]

theorem World.Consistent.beginExecution (consistent : world.Consistent) {schedule : Schedule}
    (present : world.scheduleExists schedule.name = true) :
    (world.beginExecution schedule).Consistent := by
  obtain ⟨before, found⟩ := World.exists_iff.mp present
  refine ⟨?_, ?_, ?_, (consistent.stored _).mp present, consistent.executed⟩
  · intro name stored isStored
    unfold World.getSchedule World.beginExecution World.storeSchedule World.record at isStored
    dsimp only at isStored
    rcases SortedStore.of_get?_set isStored with ⟨same, rfl⟩ | ⟨_, isStored⟩
    · exact same.symm
    · exact consistent.named name stored isStored
  · have length : (world.beginExecution schedule).getAllSchedules.length =
        world.getAllSchedules.length :=
      world.schedules.length_values_set_present _ found
    rw [length]
    exact consistent.count
  · intro name
    rw [World.exists_iff]
    unfold World.beginExecution World.storeSchedule World.record registered
    dsimp only
    rw [SortedStore.get?_set, ← consistent.stored, World.exists_iff]
    split
    · rename_i same
      exact ⟨fun _ => ⟨before, same ▸ found⟩, fun _ => ⟨_, rfl⟩⟩
    · rfl

theorem World.scheduleExists_removeSchedule {name other : String} :
    (world.removeSchedule name).scheduleExists other = true ↔
      other ≠ name ∧ world.scheduleExists other = true := by
  by_cases present : world.scheduleExists name = true
  · rw [World.removeSchedule_present present, World.exists_iff, World.exists_iff]
    unfold World.record World.deleteSchedule World.changeTotalCount
    dsimp only
    rw [SortedStore.get?_delete]
    split
    · rename_i same
      exact ⟨fun ⟨_, impossible⟩ => (nomatch impossible), fun both => absurd same both.1⟩
    · rename_i different
      exact ⟨fun found => ⟨different, found⟩, And.right⟩
  · rw [World.removeSchedule_absent present]
    refine ⟨fun found => ⟨?_, found⟩, And.right⟩
    rintro rfl
    exact present found

theorem World.Consistent.delete (consistent : world.Consistent) {name : String}
    (present : world.scheduleExists name = true)
    (minusOne : amount.toInt = -1) :
    (((world.changeTotalCount amount).deleteSchedule name).record
      (.removed name)).Consistent := by
  obtain ⟨before, found⟩ := World.exists_iff.mp present
  have length : (world.schedules.delete name).values.length + 1 =
    world.getAllSchedules.length := world.schedules.length_values_delete_present found
  refine ⟨?_, ?_, ?_, consistent.executed⟩
  · intro other stored isStored
    unfold World.getSchedule World.record World.deleteSchedule World.changeTotalCount at isStored
    dsimp only at isStored
    exact consistent.named other stored (SortedStore.of_get?_delete isStored)
  · have counted := consistent.count
    have range := world.scheduleCount.toInt_lt
    unfold World.record World.deleteSchedule World.changeTotalCount World.getAllSchedules
    dsimp only
    rw [toInt_add_eq] <;> rw [minusOne] <;> omega
  · intro other
    rw [World.exists_iff]
    unfold World.record World.deleteSchedule World.changeTotalCount registered
    dsimp only
    rw [SortedStore.get?_delete, ← consistent.stored, World.exists_iff]
    split
    · rename_i same
      exact ⟨fun ⟨_, impossible⟩ => (nomatch impossible), fun both => absurd same.symm both.1⟩
    · rename_i different
      exact ⟨fun found => ⟨Ne.symm different, found⟩, And.right⟩

theorem World.Consistent.removeSchedule (consistent : world.Consistent) (name : String) :
    (world.removeSchedule name).Consistent := by
  by_cases present : world.scheduleExists name = true
  · rw [World.removeSchedule_present present]
    exact consistent.delete present (by decide)
  · rw [World.removeSchedule_absent present]
    exact consistent

theorem World.Consistent.addSchedule (consistent : world.Consistent) {name : String}
    {period lastExecuteHeight : UInt64}
    {executionStage : ExecutionStage}
    (few : world.getAllSchedules.length + 1 < 2 ^ 31)
    (ok : world.addSchedule name period msgs lastExecuteHeight executionStage = .ok next) :
    next.Consistent := by
  unfold World.addSchedule at ok
  split at ok
  · cases ok
  · rename_i absent
    cases ok
    have notFound : world.schedules.get? name = none := by
      rw [← Option.not_isSome_iff_eq_none]
      exact absent
    have length := fun schedule => world.schedules.length_values_set_absent schedule notFound
    refine ⟨?_, ?_, ?_, consistent.executed⟩
    · intro other stored isStored
      unfold World.getSchedule World.record World.changeTotalCount World.storeSchedule at isStored
      dsimp only at isStored
      rcases SortedStore.of_get?_set isStored with ⟨same, rfl⟩ | ⟨_, isStored⟩
      · exact same.symm
      · exact consistent.named other stored isStored
    · have counted := consistent.count
      have one : (1 : Int32).toInt = 1 := by decide
      unfold World.record World.changeTotalCount World.storeSchedule World.getAllSchedules
      dsimp only
      rw [length]
      unfold World.getAllSchedules at counted few
      rw [toInt_add_eq] <;> rw [one] <;> omega
    · intro other
      rw [World.exists_iff]
      unfold World.record World.changeTotalCount World.storeSchedule registered
      dsimp only
      rw [SortedStore.get?_set, ← consistent.stored, World.exists_iff]
      split
      · rename_i same
        exact ⟨fun _ => .inl same.symm, fun _ => ⟨_, rfl⟩⟩
      · rename_i different
        exact ⟨.inr, fun either => either.resolve_left (Ne.symm different)⟩

end Registry

section Runs

variable {chain : Chain} {world : World App}

variable {schedules : List Schedule}

theorem World.mem_readySchedules {executionStage : ExecutionStage}
    {count : Nat} {schedule : Schedule}
    (member : schedule ∈ world.readySchedules executionStage schedules count) :
    schedule ∈ schedules ∧ world.IntervalPassed schedule ∧
      schedule.executionStage = executionStage := by
  induction schedules generalizing count with
  | nil => exact absurd member List.not_mem_nil
  | cons first rest ih =>
      rw [World.readySchedules] at member
      split at member
      · rename_i ready
        split at member
        · cases List.mem_singleton.mp member
          exact ⟨List.mem_cons_self, ready⟩
        · rcases List.mem_cons.mp member with rfl | later
          · exact ⟨List.mem_cons_self, ready⟩
          · exact (ih later).imp_left (List.mem_cons_of_mem _)
      · exact (ih member).imp_left (List.mem_cons_of_mem _)

theorem World.Consistent.ready_exists (consistent : world.Consistent)
    {executionStage : ExecutionStage} {schedule : Schedule}
    (ready : schedule ∈ world.getSchedulesReadyForExecution executionStage) :
    world.scheduleExists schedule.name = true := by
  obtain ⟨name, found⟩ :=
    (world.schedules.mem_values_iff schedule).mp (World.mem_readySchedules ready).1
  rw [consistent.named name schedule found]
  exact World.exists_iff.mpr ⟨schedule, found⟩

theorem World.Consistent.executeAll (consistent : world.Consistent)
    {contracts : Schedule → Nat → ContractRun App}
    (present : ∀ schedule ∈ schedules, world.scheduleExists schedule.name = true)
    (apart : schedules.Pairwise fun earlier later =>
      ¬ Removes world.params.securityAddress contracts earlier later.name) :
    (schedules.foldl (executeSchedule chain contracts) world).Consistent := by
  induction schedules generalizing world with
  | nil => exact consistent
  | cons schedule rest ih =>
      obtain ⟨first, others⟩ := List.pairwise_cons.mp apart
      obtain ⟨nextConsistent, isSecurity, nextPresent⟩ := @executeSchedule_induction _ chain world
        (fun next => next.Consistent ∧
          next.params.securityAddress = world.params.securityAddress ∧
          ∀ later ∈ rest, next.scheduleExists later.name = true)
        contracts schedule
        ⟨consistent.beginExecution (present schedule List.mem_cons_self), rfl,
          fun later member => by
            have before := present later (List.mem_cons_of_mem _ member)
            rw [World.exists_iff] at before ⊢
            unfold World.beginExecution World.storeSchedule World.record
            dsimp only
            rw [SortedStore.get?_set]
            split
            · exact ⟨_, rfl⟩
            · exact before⟩
        (fun _ _ ⟨kept, same, stored⟩ => ⟨⟨kept.named, kept.count, kept.stored, kept.executed⟩,
          same, stored⟩)
        (fun next name removes ⟨kept, same, stored⟩ => ⟨kept.removeSchedule name,
          by rw [World.params_removeSchedule, same],
          fun later member => World.scheduleExists_removeSchedule.mpr
            ⟨fun isRemoved => first later member (isRemoved ▸ removes), stored later member⟩⟩)
      refine ih nextConsistent nextPresent ?_
      rw [isSecurity]
      exact others

/-- No contract that a stage executes removes a schedule which that stage has still to
execute, and an `int32` holds the number of schedules. -/
def Undisturbed (world : World App) : Action App → Prop
  | .message (.addSchedule _) => world.getAllSchedules.length + 1 < 2 ^ 31
  | .executeReadySchedules executionStage contracts =>
      (world.getSchedulesReadyForExecution executionStage).Pairwise fun earlier later =>
        ¬ Removes world.params.securityAddress contracts earlier later.name
  | _ => True

theorem World.Consistent.handle (consistent : world.Consistent) {msg : Msg App}
    (undisturbed : Undisturbed world (.message msg))
    (ok : handle chain world msg = .ok next) : next.Consistent := by
  cases msg with
  | addSchedule msg =>
      obtain ⟨_, _, ok⟩ := of_bind ok
      obtain ⟨_, _, ok⟩ := of_bind ok
      exact consistent.addSchedule undisturbed ok
  | removeSchedule msg =>
      obtain ⟨_, _, ok⟩ := of_bind ok
      obtain ⟨_, _, ok⟩ := of_bind ok
      cases ok
      exact consistent.removeSchedule msg.name
  | updateParams msg =>
      obtain ⟨_, _, ok⟩ := of_bind ok
      obtain ⟨_, _, ok⟩ := of_bind ok
      cases ok
      exact ⟨consistent.named, consistent.count, consistent.stored, consistent.executed⟩
  | executeContract run =>
      cases ok
      split
      · exact (ContractRun.perform_induction
          (fun _ _ kept => ⟨kept.named, kept.count, kept.stored, kept.executed⟩)
          (fun _ name _ kept => kept.removeSchedule name) ⟨consistent, rfl⟩).1
      · exact consistent

theorem World.Consistent.step (consistent : world.Consistent) {action : Action App}
    (undisturbed : Undisturbed world action) : (step chain world action).Consistent := by
  cases action with
  | message msg =>
      rw [Cron.step]
      split
      · exact consistent
      · rename_i next ok
        exact consistent.handle undisturbed ok
  | executeReadySchedules executionStage contracts =>
      have started : (world.record (.started executionStage world.params.limit)).Consistent :=
        ⟨consistent.named, consistent.count, consistent.stored, consistent.executed⟩
      exact started.executeAll (fun schedule ready => consistent.ready_exists ready) undisturbed
  | nextBlock =>
      rw [Cron.step, World.nextBlock]
      split
      · exact ⟨consistent.named, consistent.count, consistent.stored, consistent.executed⟩
      · exact consistent

theorem World.initial_consistent (height : Fin heightBound) (params : Params) (app : App) :
    (World.initial height params app).Consistent where
  named _ _ impossible := nomatch impossible
  count := rfl
  stored _ := ⟨fun impossible => (nomatch impossible), fun impossible => nomatch impossible⟩
  executed := trivial

/-- Schedules are counted, and those that are stored and executed are those that were
added and not removed since. -/
theorem schedules_registered (chain : Chain) (height : Fin heightBound) (params : Params)
    (app : App) (actions : List (Action App))
    (undisturbed : Machine.Allowed (step chain) Undisturbed
      (World.initial height params app) actions) :
    let world := Machine.run (step chain) (World.initial height params app) actions
    world.scheduleCount.toInt = world.getAllSchedules.length ∧
      (∀ name, world.scheduleExists name = true ↔ registered name world.log) ∧
      ExecutedWhileRegistered world.log := by
  intro world
  have consistent : world.Consistent :=
    undisturbed.invariant (fun _ _ kept condition => kept.step condition)
      (World.initial_consistent height params app)
  exact ⟨consistent.count, consistent.stored, consistent.executed⟩

end Runs

section Examples

instance decidableRegistered (name : String) : ∀ log, Decidable (registered name log)
  | [] => .isFalse id
  | .added _ _ _ :: earlier =>
      @instDecidableOr _ _ _ (decidableRegistered name earlier)
  | .removed _ :: earlier =>
      @instDecidableAnd _ _ _ (decidableRegistered name earlier)
  | .started _ _ :: earlier => decidableRegistered name earlier
  | .executed _ _ :: earlier => decidableRegistered name earlier

instance decidableExecutedWhileRegistered : ∀ log, Decidable (ExecutedWhileRegistered log)
  | [] => .isTrue trivial
  | .executed name _ :: earlier =>
      @instDecidableAnd _ _ (decidableRegistered name earlier)
        (decidableExecutedWhileRegistered earlier)
  | .added _ _ _ :: earlier => decidableExecutedWhileRegistered earlier
  | .removed _ :: earlier => decidableExecutedWhileRegistered earlier
  | .started _ _ :: earlier => decidableExecutedWhileRegistered earlier

def cronChain : Chain := ⟨"gov", fun _ => true, rfl⟩

def cronWorld : World Unit := World.initial ⟨1, by decide⟩ ⟨"dao", 5⟩ ()

def everyBlock (name : String) : Action Unit :=
  .message (.addSchedule ⟨"gov", name, 1, [⟨"dao", "\x7b\x7d"⟩], .endBlocker⟩)

def removesSecond (schedule : Schedule) (_ : Nat) : ContractRun Unit :=
  if schedule.name = "first" then ⟨[.removeSchedule "dao" "second"], true⟩ else ⟨[], true⟩

def removedWhilePending : List (Action Unit) :=
  [everyBlock "first", everyBlock "second", .nextBlock,
    .executeReadySchedules .endBlocker removesSecond]

/-- The schedule that was removed is executed, and stored again without being counted. -/
theorem removed_schedule_executed :
    let world := Machine.run (step cronChain) cronWorld removedWhilePending
    world.scheduleCount.toInt = 1 ∧ world.getAllSchedules.length = 2 ∧
      world.scheduleExists "second" = true ∧ ¬ registered "second" world.log ∧
      ¬ ExecutedWhileRegistered world.log := by
  decide +kernel

theorem schedules_registered_everyBlock :
    let actions := [everyBlock "first", everyBlock "second", .nextBlock,
      .executeReadySchedules .endBlocker fun _ _ => ⟨[], true⟩]
    let world := Machine.run (step cronChain) cronWorld actions
    world.scheduleCount.toInt = world.getAllSchedules.length ∧
      (∀ name, world.scheduleExists name = true ↔ registered name world.log) ∧
      ExecutedWhileRegistered world.log := by
  intro actions
  refine schedules_registered cronChain ⟨1, by decide⟩ ⟨"dao", 5⟩ () actions
    ⟨by unfold Undisturbed everyBlock; decide, by unfold Undisturbed everyBlock; decide +kernel,
      trivial, List.pairwise_of_forall fun _ _ => ?_, trivial⟩
  rintro ⟨_, _, _, member⟩
  exact absurd member List.not_mem_nil

end Examples

end Neutron.Cron
