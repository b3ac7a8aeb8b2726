import Mathlib.Data.UInt
import Neutron.Cron.Registry

namespace Neutron.Cron

open Library

variable {App : Type}

def lastSeen (name : String) : List Event → Option (Nat × UInt64)
  | [] => none
  | .added other period height :: earlier =>
      if other = name then some (height, period) else lastSeen name earlier
  | .executed other height :: earlier =>
      if other = name then (lastSeen name earlier).map fun seen => (height, seen.2)
      else lastSeen name earlier
  | .removed _ :: earlier => lastSeen name earlier
  | .started _ _ :: earlier => lastSeen name earlier

/-- Every execution is at least the period after the last one, or after the schedule was
added. -/
def Spaced : List Event → Prop
  | [] => True
  | .executed name height :: earlier =>
      (∃ since period, lastSeen name earlier = some (since, period) ∧
        since + period.toNat ≤ height) ∧ Spaced earlier
  | .added _ _ _ :: earlier => Spaced earlier
  | .removed _ :: earlier => Spaced earlier
  | .started _ _ :: earlier => Spaced earlier

def stageExecutions : List Event → Option (UInt64 × Nat)
  | [] => none
  | .started _ limit :: _ => some (limit, 0)
  | .executed _ _ :: earlier =>
      (stageExecutions earlier).map fun stage => (stage.1, stage.2 + 1)
  | .added _ _ _ :: earlier => stageExecutions earlier
  | .removed _ :: earlier => stageExecutions earlier

def WithinLimit : List Event → Prop
  | [] => True
  | .executed _ _ :: earlier =>
      (∃ limit count, stageExecutions earlier = some (limit, count) ∧
        count + 1 ≤ limit.toNat) ∧ WithinLimit earlier
  | .added _ _ _ :: earlier => WithinLimit earlier
  | .removed _ :: earlier => WithinLimit earlier
  | .started _ _ :: earlier => WithinLimit earlier

structure World.Paced (world : World App) : Prop where
  seen : ∀ name schedule, world.getSchedule name = some schedule → schedule.name = name ∧
    lastSeen name world.log = some (schedule.lastExecuteHeight.toNat, schedule.period)
  spaced : Spaced world.log
  within : WithinLimit world.log

section Steps

variable {chain : Chain} {world : World App}

theorem World.toNat_blockHeight : world.blockHeight.toNat = world.height := by
  have inRange := world.heightInRange
  unfold heightBound at inRange
  rw [World.blockHeight, UInt64.toNat_ofNat_of_lt']
  exact inRange.trans (by decide)

theorem World.Paced.delete (paced : world.Paced) (name : String) (amount : Int32) :
    (((world.changeTotalCount amount).deleteSchedule name).record (.removed name)).Paced := by
  refine ⟨?_, paced.spaced, paced.within⟩
  intro other stored isStored
  unfold World.getSchedule World.record World.deleteSchedule World.changeTotalCount at isStored
  dsimp only at isStored
  exact paced.seen other stored (SortedStore.of_get?_delete isStored)

theorem World.Paced.removeSchedule (paced : world.Paced) (name : String) :
    (world.removeSchedule name).Paced := by
  by_cases present : world.scheduleExists name = true
  · rw [World.removeSchedule_present present]
    exact paced.delete name (-1)
  · rw [World.removeSchedule_absent present]
    exact paced

theorem World.log_removeSchedule (name : String) :
    (world.removeSchedule name).log = .removed name :: world.log ∨
      (world.removeSchedule name).log = world.log := by
  by_cases present : world.scheduleExists name = true
  · rw [World.removeSchedule_present present, World.record, World.deleteSchedule,
      World.changeTotalCount]
    exact .inl rfl
  · rw [World.removeSchedule_absent present]
    exact .inr rfl

theorem World.height_removeSchedule (name : String) :
    (world.removeSchedule name).height = world.height := by
  by_cases present : world.scheduleExists name = true
  · rw [World.removeSchedule_present present, World.record, World.deleteSchedule,
      World.changeTotalCount]
  · rw [World.removeSchedule_absent present]

theorem lastSeen_removeSchedule (name other : String) :
    lastSeen other (world.removeSchedule name).log = lastSeen other world.log := by
  rcases world.log_removeSchedule name with removed | same
  · rw [removed, lastSeen]
  · rw [same]

theorem stageExecutions_removeSchedule (name : String) :
    stageExecutions (world.removeSchedule name).log = stageExecutions world.log := by
  rcases world.log_removeSchedule name with removed | same
  · rw [removed, stageExecutions]
  · rw [same]

variable {limit : UInt64} {count : Nat}

theorem World.Paced.beginExecution (paced : world.Paced) {schedule : Schedule}
    (seen : lastSeen schedule.name world.log =
      some (schedule.lastExecuteHeight.toNat, schedule.period))
    (passed : schedule.lastExecuteHeight.toNat + schedule.period.toNat ≤ world.height)
    (stage : stageExecutions world.log = some (limit, count))
    (below : count + 1 ≤ limit.toNat) : (world.beginExecution schedule).Paced := by
  refine ⟨?_, ⟨⟨_, _, seen, passed⟩, paced.spaced⟩, ⟨⟨_, _, stage, below⟩, paced.within⟩⟩
  intro name stored isStored
  unfold World.getSchedule World.beginExecution World.storeSchedule World.record at isStored
  dsimp only at isStored
  unfold World.beginExecution World.storeSchedule World.record
  dsimp only
  rw [lastSeen]
  rcases SortedStore.of_get?_set isStored with ⟨same, rfl⟩ | ⟨different, isStored⟩
  · rw [if_pos same.symm, same, seen]
    exact ⟨rfl, congrArg (fun height => some (height, schedule.period))
      world.toNat_blockHeight.symm⟩
  · rw [if_neg (Ne.symm different)]
    exact paced.seen name stored isStored

variable {contracts : Schedule → Nat → ContractRun App} {schedules : List Schedule}

theorem World.Paced.executeAll (paced : world.Paced)
    (ready : ∀ schedule ∈ schedules,
      lastSeen schedule.name world.log =
          some (schedule.lastExecuteHeight.toNat, schedule.period) ∧
        schedule.lastExecuteHeight.toNat + schedule.period.toNat ≤ world.height)
    (distinct : schedules.Pairwise fun earlier later => earlier.name ≠ later.name)
    (stage : stageExecutions world.log = some (limit, count))
    (few : count + schedules.length ≤ limit.toNat) :
    (schedules.foldl (executeSchedule chain contracts) world).Paced := by
  induction schedules generalizing world count with
  | nil => exact paced
  | cons schedule rest ih =>
      rw [List.length_cons] at few
      obtain ⟨apart, others⟩ := List.pairwise_cons.mp distinct
      obtain ⟨seen, passed⟩ := ready schedule List.mem_cons_self
      have begun := paced.beginExecution seen passed stage (by omega)
      have begunStage : stageExecutions (world.beginExecution schedule).log =
          some (limit, count + 1) := congrArg (Option.map _) stage
      have begunSeen : ∀ later ∈ rest,
          lastSeen later.name (world.beginExecution schedule).log =
            lastSeen later.name world.log :=
        fun later member => if_neg (apart later member)
      obtain ⟨nextPaced, sameHeight, nextStage, nextSeen⟩ := @executeSchedule_induction _ chain
        world
        (fun next => next.Paced ∧ next.height = world.height ∧
          stageExecutions next.log = some (limit, count + 1) ∧
          ∀ later ∈ rest, lastSeen later.name next.log = lastSeen later.name world.log)
        contracts schedule ⟨begun, rfl, begunStage, begunSeen⟩
        (fun _ _ ⟨kept, height, executions, unseen⟩ =>
          ⟨⟨kept.seen, kept.spaced, kept.within⟩, height, executions, unseen⟩)
        (fun next name _ ⟨kept, height, executions, unseen⟩ => ⟨kept.removeSchedule name,
          (next.height_removeSchedule name).trans height,
          (stageExecutions_removeSchedule name).trans executions,
          fun later member => (lastSeen_removeSchedule name later.name).trans
            (unseen later member)⟩)
      refine ih nextPaced (fun later member => ?_) others nextStage (by omega)
      rw [nextSeen later member, sameHeight]
      exact ready later (List.mem_cons_of_mem _ member)

theorem World.length_readySchedules {executionStage : ExecutionStage}
    (below : count < world.params.limit.toNat) :
    count + (world.readySchedules executionStage schedules count).length ≤
      world.params.limit.toNat := by
  induction schedules generalizing count with
  | nil => exact below.le
  | cons schedule rest ih =>
      rw [World.readySchedules]
      split
      · split
        · exact below
        · rename_i room
          have later := @ih (count + 1) (by omega)
          rw [List.length_cons]
          omega
      · exact ih below

theorem World.readySchedules_sublist {executionStage : ExecutionStage}
    :
    (world.readySchedules executionStage schedules count).Sublist schedules := by
  induction schedules generalizing count with
  | nil => exact List.Sublist.slnil
  | cons schedule rest ih =>
      rw [World.readySchedules]
      split
      · split
        · exact (List.nil_sublist rest).cons_cons schedule
        · exact ih.cons_cons schedule
      · exact ih.cons schedule

theorem World.Paced.distinct (paced : world.Paced) :
    world.getAllSchedules.Pairwise fun earlier later => earlier.name ≠ later.name := by
  have increasing := world.schedules.increasing
  rw [World.getAllSchedules, SortedStore.values, List.pairwise_map]
  refine increasing.imp_of_mem ?_
  rintro ⟨first, earlier⟩ ⟨second, later⟩ firstStored secondStored below same
  have firstName := (paced.seen first earlier
    ((world.schedules.mem_entries_iff _ _).mp firstStored)).1
  have secondName := (paced.seen second later
    ((world.schedules.mem_entries_iff _ _).mp secondStored)).1
  dsimp only at same below
  rw [firstName, secondName] at same
  exact ne_of_lt below same

/-- No height plus period exceeds a `uint64`, and the limit is not zero unless nothing is
ready. -/
def InRange (world : World App) : Action App → Prop
  | .executeReadySchedules executionStage _ =>
      (∀ schedule ∈ world.getAllSchedules, schedule.executionStage = executionStage →
        schedule.lastExecuteHeight.toNat + schedule.period.toNat < 2 ^ 64) ∧
      (world.params.limit ≠ 0 ∨ ∀ schedule ∈ world.getAllSchedules,
        schedule.executionStage = executionStage → ¬ world.IntervalPassed schedule)
  | _ => True

theorem World.Paced.executeReadySchedules (paced : world.Paced)
    {executionStage : ExecutionStage}
    (inRange : InRange world (.executeReadySchedules executionStage contracts)) :
    (executeReadySchedules chain contracts executionStage world).Paced := by
  obtain ⟨noOverflow, limited⟩ := inRange
  have started : (world.record (.started executionStage world.params.limit)).Paced :=
    ⟨paced.seen, paced.spaced, paced.within⟩
  refine started.executeAll (fun schedule member => ?_)
    (paced.distinct.sublist World.readySchedules_sublist) rfl ?_
  · obtain ⟨stored, passed, isStage⟩ := World.mem_readySchedules member
    obtain ⟨name, found⟩ := (world.schedules.mem_values_iff schedule).mp stored
    obtain ⟨rfl, seen⟩ := paced.seen name schedule found
    refine ⟨seen, ?_⟩
    unfold World.IntervalPassed at passed
    rw [UInt64.le_iff_toNat_le, UInt64.toNat_add, World.toNat_blockHeight,
      Nat.mod_eq_of_lt (noOverflow schedule stored isStage)] at passed
    exact passed
  · rcases limited with nonzero | noneReady
    · have positive : 0 < world.params.limit.toNat :=
        Nat.pos_of_ne_zero fun isZero => nonzero (UInt64.toNat_inj.mp isZero)
      exact World.length_readySchedules positive
    · have empty : world.getSchedulesReadyForExecution executionStage = [] := by
        refine List.eq_nil_iff_forall_not_mem.mpr fun schedule member => ?_
        obtain ⟨stored, passed, isStage⟩ := World.mem_readySchedules member
        exact noneReady schedule stored isStage passed
      rw [empty]
      exact Nat.zero_le _

variable {next : World App}

theorem World.Paced.addSchedule (paced : world.Paced) {name : String} {period : UInt64}
    {msgs : List MsgExecuteContract} {executionStage : ExecutionStage}
    (ok : world.addSchedule name period msgs world.blockHeight executionStage = .ok next) :
    next.Paced := by
  unfold World.addSchedule at ok
  split at ok
  · cases ok
  · cases ok
    refine ⟨?_, paced.spaced, paced.within⟩
    intro other stored isStored
    unfold World.getSchedule World.record World.changeTotalCount World.storeSchedule at isStored
    dsimp only at isStored
    unfold World.record World.changeTotalCount World.storeSchedule
    dsimp only
    rw [lastSeen]
    rcases SortedStore.of_get?_set isStored with ⟨same, rfl⟩ | ⟨different, isStored⟩
    · rw [if_pos same.symm]
      exact ⟨same.symm, congrArg (fun height => some (height, period))
        world.toNat_blockHeight.symm⟩
    · rw [if_neg (Ne.symm different)]
      exact paced.seen other stored isStored

theorem World.Paced.handle (paced : world.Paced) {msg : Msg App}
    (ok : handle chain world msg = .ok next) : next.Paced := by
  cases msg with
  | addSchedule msg =>
      obtain ⟨_, _, ok⟩ := of_bind ok
      obtain ⟨_, _, ok⟩ := of_bind ok
      exact paced.addSchedule ok
  | removeSchedule msg =>
      obtain ⟨_, _, ok⟩ := of_bind ok
      obtain ⟨_, _, ok⟩ := of_bind ok
      cases ok
      exact paced.removeSchedule msg.name
  | updateParams msg =>
      obtain ⟨_, _, ok⟩ := of_bind ok
      obtain ⟨_, _, ok⟩ := of_bind ok
      cases ok
      exact ⟨paced.seen, paced.spaced, paced.within⟩
  | executeContract run =>
      cases ok
      split
      · exact (ContractRun.perform_induction
          (fun _ _ kept => ⟨kept.seen, kept.spaced, kept.within⟩)
          (fun _ name _ kept => kept.removeSchedule name) ⟨paced, rfl⟩).1
      · exact paced

theorem World.Paced.step (paced : world.Paced) {action : Action App}
    (inRange : InRange world action) : (step chain world action).Paced := by
  cases action with
  | message msg =>
      rw [Cron.step]
      split
      · exact paced
      · rename_i next ok
        exact paced.handle ok
  | executeReadySchedules executionStage contracts => exact paced.executeReadySchedules inRange
  | nextBlock =>
      rw [Cron.step, World.nextBlock]
      split
      · exact ⟨paced.seen, paced.spaced, paced.within⟩
      · exact paced

end Steps

def AllOrNothing (chain : Chain) (contracts : Schedule → Nat → ContractRun App)
    (world : World App) (schedule : Schedule) : Prop :=
  let begun := world.beginExecution schedule
  let indices := List.range schedule.msgs.length
  ((∃ index ∈ indices, (contracts schedule index).succeeds = false) ∧
      executeSchedule chain contracts world schedule = begun) ∨
    ((∀ index ∈ indices, (contracts schedule index).succeeds = true) ∧
      executeSchedule chain contracts world schedule =
        indices.foldl (fun next index => (contracts schedule index).perform chain next) begun)

theorem executeMsgs_eq (chain : Chain) (contracts : Nat → ContractRun App)
    (msgs : List MsgExecuteContract) (index : Nat) (world : World App) :
    ((∃ other ∈ List.range' index msgs.length, (contracts other).succeeds = false) ∧
        executeMsgs chain contracts msgs index world = none) ∨
      ((∀ other ∈ List.range' index msgs.length, (contracts other).succeeds = true) ∧
        executeMsgs chain contracts msgs index world = some
          ((List.range' index msgs.length).foldl
            (fun next other => (contracts other).perform chain next) world)) := by
  induction msgs generalizing index world with
  | nil => exact .inr ⟨fun _ impossible => absurd impossible List.not_mem_nil, rfl⟩
  | cons msg rest ih =>
      rw [executeMsgs, List.length_cons, List.range'_succ]
      by_cases succeeds : (contracts index).succeeds = true
      · rw [if_pos succeeds]
        rcases ih (index + 1) ((contracts index).perform chain world) with
          ⟨⟨other, member, fails⟩, none⟩ | ⟨all, some⟩
        · exact .inl ⟨⟨other, List.mem_cons_of_mem _ member, fails⟩, none⟩
        · exact .inr ⟨List.forall_mem_cons.mpr ⟨succeeds, all⟩, some⟩
      · rw [if_neg succeeds]
        exact .inl ⟨⟨index, List.mem_cons_self, Bool.eq_false_iff.mpr succeeds⟩, rfl⟩

theorem executeSchedule_allOrNothing (chain : Chain)
    (contracts : Schedule → Nat → ContractRun App) (world : World App) (schedule : Schedule) :
    AllOrNothing chain contracts world schedule := by
  unfold AllOrNothing executeSchedule
  dsimp only
  rw [List.range_eq_range']
  rcases executeMsgs_eq chain (contracts schedule) schedule.msgs 0
      (world.beginExecution schedule) with ⟨fails, none⟩ | ⟨succeed, some⟩
  · rw [none]
    exact .inl ⟨fails, rfl⟩
  · rw [some]
    exact .inr ⟨succeed, rfl⟩

/-- In every run of blocks executions of a schedule are its period apart and within the
limit of their stage, and each executes all messages or none. -/
theorem schedules_spaced (chain : Chain) (height : Fin heightBound) (params : Params)
    (app : App) (blocks : List (Block App))
    (inRange : Machine.Allowed (step chain) InRange (World.initial height params app)
      (blocks.flatMap Block.actions)) :
    let world := Machine.run (step chain) (World.initial height params app)
      (blocks.flatMap Block.actions)
    Spaced world.log ∧ WithinLimit world.log ∧
      ∀ contracts schedule, AllOrNothing chain contracts world schedule := by
  intro world
  have start : (World.initial height params app).Paced :=
    ⟨fun _ _ impossible => (nomatch impossible), trivial, trivial⟩
  have paced : world.Paced :=
    inRange.invariant (fun _ _ kept condition => kept.step condition) start
  exact ⟨paced.spaced, paced.within,
    fun contracts schedule => executeSchedule_allOrNothing chain contracts world schedule⟩

section Examples

def decidablePassed (seen : Option (Nat × UInt64)) (height : Nat) :
    Decidable (∃ since period, seen = some (since, period) ∧ since + period.toNat ≤ height) :=
  match seen with
  | none => .isFalse fun ⟨_, _, impossible, _⟩ => nomatch impossible
  | some (since, period) =>
      decidable_of_iff (since + period.toNat ≤ height)
        ⟨fun passed => ⟨since, period, rfl, passed⟩, fun ⟨_, _, same, passed⟩ => by
          cases same
          exact passed⟩

instance decidableSpaced : ∀ log, Decidable (Spaced log)
  | [] => .isTrue trivial
  | .executed name height :: earlier =>
      @instDecidableAnd _ _ (decidablePassed (lastSeen name earlier) height)
        (decidableSpaced earlier)
  | .added _ _ _ :: earlier => decidableSpaced earlier
  | .removed _ :: earlier => decidableSpaced earlier
  | .started _ _ :: earlier => decidableSpaced earlier

def decidableRoom (stage : Option (UInt64 × Nat)) :
    Decidable (∃ limit count, stage = some (limit, count) ∧ count + 1 ≤ limit.toNat) :=
  match stage with
  | none => .isFalse fun ⟨_, _, impossible, _⟩ => nomatch impossible
  | some (limit, count) =>
      decidable_of_iff (count + 1 ≤ limit.toNat)
        ⟨fun room => ⟨limit, count, rfl, room⟩, fun ⟨_, _, same, room⟩ => by
          cases same
          exact room⟩

instance decidableWithinLimit : ∀ log, Decidable (WithinLimit log)
  | [] => .isTrue trivial
  | .executed _ _ :: earlier =>
      @instDecidableAnd _ _ (decidableRoom (stageExecutions earlier))
        (decidableWithinLimit earlier)
  | .added _ _ _ :: earlier => decidableWithinLimit earlier
  | .removed _ :: earlier => decidableWithinLimit earlier
  | .started _ _ :: earlier => decidableWithinLimit earlier

instance decidableInRange (world : World App) : ∀ action, Decidable (InRange world action)
  | .executeReadySchedules _ _ => @instDecidableAnd _ _ (List.decidableBAll _ _)
      (@instDecidableOr _ _ _ (List.decidableBAll _ _))
  | .message _ => .isTrue trivial
  | .nextBlock => .isTrue trivial

def quietBlock (txs : List (Msg Unit)) : Block Unit :=
  ⟨fun _ _ => ⟨[], true⟩, txs, fun _ _ => ⟨[], true⟩, []⟩

/-- A message that is accepted: its period is any `uint64` but zero. -/
def addLongest : Msg Unit :=
  .addSchedule ⟨"gov", "longest", 2 ^ 64 - 1, [⟨"dao", "\x7b\x7d"⟩], .endBlocker⟩

def noLimit : Msg Unit := .updateParams ⟨"gov", ⟨"dao", 0⟩⟩

def executedHeights (log : List Event) : List (String × Nat) :=
  log.filterMap fun event =>
    match event with
    | .executed name height => some (name, height)
    | _ => none

/-- The longest period is over in the block that adds the schedule and in the next one, and
a limit of zero lets one schedule through. -/
theorem executions_unspaced :
    let longest := Machine.run (step cronChain) cronWorld
      ([quietBlock [addLongest], quietBlock []].flatMap Block.actions)
    let unlimited := Machine.run (step cronChain) cronWorld
      ([quietBlock [noLimit, .addSchedule ⟨"gov", "one", 1, [⟨"dao", "\x7b\x7d"⟩],
        .endBlocker⟩], quietBlock []].flatMap Block.actions)
    executedHeights longest.log = [("longest", 2), ("longest", 1)] ∧ ¬ Spaced longest.log ∧
      executedHeights unlimited.log = [("one", 2)] ∧ ¬ WithinLimit unlimited.log := by
  decide +kernel

theorem schedules_spaced_everyBlock :
    let blocks := [quietBlock [.addSchedule ⟨"gov", "one", 1, [⟨"dao", "\x7b\x7d"⟩],
      .endBlocker⟩], quietBlock []]
    let world := Machine.run (step cronChain) cronWorld (blocks.flatMap Block.actions)
    Spaced world.log ∧ WithinLimit world.log ∧
      ∀ contracts schedule, AllOrNothing cronChain contracts world schedule := by
  intro blocks
  exact schedules_spaced cronChain ⟨1, by decide⟩ ⟨"dao", 5⟩ () blocks (by decide +kernel)

end Examples

end Neutron.Cron
