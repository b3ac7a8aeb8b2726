import Mathlib.Data.String.Basic
import Neutron.Library.Machine
import Neutron.Library.Outcome
import Neutron.Library.SortedStore

namespace Neutron.Cron

open Library

/-! Schedules that execute contracts every certain number of blocks (`x/cron`), and the
binding through which a contract removes them (`wasmbinding/message_plugin.go`). -/

inductive ExecutionStage where
  | endBlocker
  | beginBlocker
  deriving DecidableEq

structure MsgExecuteContract where
  contract : String
  msg : String

structure Schedule where
  name : String
  period : UInt64
  msgs : List MsgExecuteContract
  lastExecuteHeight : UInt64
  executionStage : ExecutionStage

structure Params where
  securityAddress : String
  limit : UInt64

/-- What the module is configured with: the authority is the address of the governance
module. -/
structure Chain where
  authority : String
  isAddress : String → Bool
  authorityIsAddress : isAddress authority = true

/-- What happened, as far as it has not been reverted. -/
inductive Event where
  | added (name : String) (period : UInt64) (height : Nat)
  | removed (name : String)
  | started (stage : ExecutionStage) (limit : UInt64)
  | executed (name : String) (height : Nat)

def heightBound : Nat := 2 ^ 63

/-- The stores of the module and of the rest of the application, at a block
height; `log` records what happened, the last event first. -/
structure World (App : Type) where
  height : Nat
  heightInRange : height < heightBound
  params : Params
  schedules : SortedStore String Schedule
  scheduleCount : Int32
  app : App
  log : List Event

inductive Failure where
  | invalidAddress (field : String)
  | invalidName
  | invalidPeriod
  | emptyMsgs
  | invalidAuthority (expected got : String)
  | alreadyExists (name : String)
  | unauthorized
  deriving DecidableEq

variable {App : Type}

namespace World

variable (world : World App)

def blockHeight : UInt64 := UInt64.ofNat world.height

def record (event : Event) : World App := { world with log := event :: world.log }

def getSchedule (name : String) : Option Schedule := world.schedules.get? name

def getAllSchedules : List Schedule := world.schedules.values

def scheduleExists (name : String) : Bool := (world.schedules.get? name).isSome

def storeSchedule (schedule : Schedule) : World App :=
  { world with schedules := world.schedules.set schedule.name schedule }

def changeTotalCount (incrementAmount : Int32) : World App :=
  { world with scheduleCount := world.scheduleCount + incrementAmount }

def addSchedule (name : String) (period : UInt64) (msgs : List MsgExecuteContract)
    (lastExecuteHeight : UInt64) (executionStage : ExecutionStage) :
    Except Failure (World App) :=
  if world.scheduleExists name then
    .error (.alreadyExists name)
  else
    .ok (((world.storeSchedule ⟨name, period, msgs, lastExecuteHeight,
      executionStage⟩).changeTotalCount 1).record (.added name period world.height))

/-- The keeper's own `removeSchedule`. -/
def deleteSchedule (name : String) : World App :=
  { world with schedules := world.schedules.delete name }

def removeSchedule (name : String) : World App :=
  if ¬ world.scheduleExists name then
    world
  else
    ((world.changeTotalCount (-1)).deleteSchedule name).record (.removed name)

def IntervalPassed (schedule : Schedule) : Prop :=
  schedule.lastExecuteHeight + schedule.period ≤ world.blockHeight

instance (schedule : Schedule) : Decidable (world.IntervalPassed schedule) :=
  inferInstanceAs (Decidable (_ ≤ _))

/-- The loop of `getSchedulesReadyForExecution`, with the number of schedules that it has
found; it stops at the limit. -/
def readySchedules (executionStage : ExecutionStage) :
    List Schedule → Nat → List Schedule
  | [], _ => []
  | schedule :: rest, count =>
      if world.IntervalPassed schedule ∧ schedule.executionStage = executionStage then
        if world.params.limit.toNat ≤ count + 1 then
          [schedule]
        else
          schedule :: readySchedules executionStage rest (count + 1)
      else
        readySchedules executionStage rest count

def getSchedulesReadyForExecution (executionStage : ExecutionStage) : List Schedule :=
  world.readySchedules executionStage world.getAllSchedules 0

end World

structure MsgAddSchedule where
  authority : String
  name : String
  period : UInt64
  msgs : List MsgExecuteContract
  executionStage : ExecutionStage

structure MsgRemoveSchedule where
  authority : String
  name : String

structure MsgUpdateParams where
  authority : String
  params : Params

section Messages

variable (chain : Chain) (world : World App)

def MsgAddSchedule.validate (msg : MsgAddSchedule) : Except Failure Unit := do
  Outcome.require (chain.isAddress msg.authority) (.invalidAddress "authority")
  Outcome.require (msg.name ≠ "") .invalidName
  Outcome.require (msg.period ≠ 0) .invalidPeriod
  Outcome.require (msg.msgs.length ≠ 0) .emptyMsgs

def MsgRemoveSchedule.validate (msg : MsgRemoveSchedule) : Except Failure Unit := do
  Outcome.require (chain.isAddress msg.authority) (.invalidAddress "authority")
  Outcome.require (msg.name ≠ "") .invalidName

def MsgUpdateParams.validate (msg : MsgUpdateParams) : Except Failure Unit := do
  Outcome.require (chain.isAddress msg.authority) (.invalidAddress "authority")
  Outcome.require (chain.isAddress msg.params.securityAddress) (.invalidAddress "security_address")

def addSchedule (msg : MsgAddSchedule) : Except Failure (World App) := do
  msg.validate chain
  Outcome.require (chain.authority = msg.authority) (.invalidAuthority chain.authority msg.authority)
  world.addSchedule msg.name msg.period msg.msgs world.blockHeight msg.executionStage

def removeSchedule (msg : MsgRemoveSchedule) : Except Failure (World App) := do
  msg.validate chain
  Outcome.require (chain.authority = msg.authority) (.invalidAuthority chain.authority msg.authority)
  .ok (world.removeSchedule msg.name)

def updateParams (msg : MsgUpdateParams) : Except Failure (World App) := do
  msg.validate chain
  Outcome.require (chain.authority = msg.authority) (.invalidAuthority chain.authority msg.authority)
  .ok { world with params := msg.params }

/-- The binding for contracts: the security address acts with the authority. -/
def removeScheduleBinding (contractAddr name : String) : Except Failure (World App) :=
  if contractAddr ≠ world.params.securityAddress then
    .error .unauthorized
  else
    removeSchedule chain world ⟨chain.authority, name⟩

end Messages

/-- What a contract does while it is executed, the contracts it calls included: changes
to the rest of the application, and calls of the binding. -/
inductive ContractAction (App : Type) where
  | change (effect : App → App)
  | removeSchedule (contractAddr name : String)

/-- An execution of a contract: what of it takes effect, and whether it succeeds. -/
structure ContractRun (App : Type) where
  actions : List (ContractAction App)
  succeeds : Bool

section Contracts

variable (chain : Chain)

/-- A call of the binding that fails has no effect. -/
def ContractAction.perform (world : World App) : ContractAction App → World App
  | .change effect => { world with app := effect world.app }
  | .removeSchedule contractAddr name =>
      match removeScheduleBinding chain world contractAddr name with
      | .error _ => world
      | .ok next => next

def ContractRun.perform (run : ContractRun App) (world : World App) : World App :=
  run.actions.foldl (ContractAction.perform chain) world

/-- The loop of `executeSchedule` over the messages, in the cached context. -/
def executeMsgs (contracts : Nat → ContractRun App) :
    List MsgExecuteContract → Nat → World App → Option (World App)
  | [], _, world => some world
  | _ :: rest, index, world =>
      if (contracts index).succeeds then
        executeMsgs contracts rest (index + 1) ((contracts index).perform chain world)
      else
        none

/-- The schedule as it is stored before its messages are executed. -/
def World.beginExecution (world : World App) (schedule : Schedule) : World App :=
  (world.storeSchedule { schedule with lastExecuteHeight := world.blockHeight }).record
    (.executed schedule.name world.height)

def executeSchedule (contracts : Schedule → Nat → ContractRun App) (world : World App)
    (schedule : Schedule) : World App :=
  match executeMsgs chain (contracts schedule) schedule.msgs 0
      (world.beginExecution schedule) with
  | some committed => committed
  | none => world.beginExecution schedule

/-- `contracts` says what each of the messages of a schedule will do. -/
def executeReadySchedules (contracts : Schedule → Nat → ContractRun App)
    (executionStage : ExecutionStage) (world : World App) : World App :=
  (world.getSchedulesReadyForExecution executionStage).foldl
    (executeSchedule chain contracts)
    (world.record (.started executionStage world.params.limit))

end Contracts

inductive Msg (App : Type) where
  | addSchedule (msg : MsgAddSchedule)
  | removeSchedule (msg : MsgRemoveSchedule)
  | updateParams (msg : MsgUpdateParams)
  | executeContract (run : ContractRun App)

inductive Action (App : Type) where
  | message (msg : Msg App)
  | executeReadySchedules (executionStage : ExecutionStage)
      (contracts : Schedule → Nat → ContractRun App)
  | nextBlock

def handle (chain : Chain) (world : World App) : Msg App → Except Failure (World App)
  | .addSchedule msg => addSchedule chain world msg
  | .removeSchedule msg => removeSchedule chain world msg
  | .updateParams msg => updateParams chain world msg
  | .executeContract run => .ok (if run.succeeds then run.perform chain world else world)

def World.nextBlock (world : World App) : World App :=
  if inRange : world.height + 1 < heightBound then
    { world with height := world.height + 1, heightInRange := inRange }
  else
    world

def step (chain : Chain) (world : World App) : Action App → World App
  | .message msg =>
      match handle chain world msg with
      | .error _ => world
      | .ok next => next
  | .executeReadySchedules executionStage contracts =>
      executeReadySchedules chain contracts executionStage world
  | .nextBlock => world.nextBlock

def World.initial (height : Fin heightBound) (params : Params) (app : App) : World App where
  height := height
  heightInRange := height.isLt
  params := params
  schedules := SortedStore.empty
  scheduleCount := 0
  app := app
  log := []

/-- A block: what the schedules' contracts do in its two stages, and the messages of its
transactions and of the modules whose blockers run after the last stage. -/
structure Block (App : Type) where
  beginBlocker : Schedule → Nat → ContractRun App
  txs : List (Msg App)
  endBlocker : Schedule → Nat → ContractRun App
  late : List (Msg App)

def Block.actions (block : Block App) : List (Action App) :=
  [.executeReadySchedules .beginBlocker block.beginBlocker] ++ block.txs.map .message ++
    [.executeReadySchedules .endBlocker block.endBlocker] ++ block.late.map .message ++
    [.nextBlock]

end Neutron.Cron
