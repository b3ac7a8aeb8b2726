import Mathlib.Logic.Function.Basic
import Neutron.InterchainQueries.Results

namespace Neutron.InterchainQueries

open Library
open Neutron.Dex (Coins Bank)

/-- The heights at which queries were registered and at which their last results were
accepted, as the messages had them. -/
structure Heights where
  registered : Nat → Nat
  accepted : Nat → Nat

structure Tracked where
  world : World
  heights : Heights

def Heights.accept (heights : Heights) (queryId height : Nat) : Heights :=
  { heights with accepted := Function.update heights.accepted queryId height }

def Heights.observe (heights : Heights) (environment : Environment) :
    Msg → Option Frame → Heights
  | .registerInterchainQuery _, some (.collectDeposit query) =>
      { heights with
        registered := Function.update heights.registered query.id environment.blockHeight }
  | .submitQueryResult _, some (.txCallback _ _) => heights
  | .submitQueryResult msg, _ =>
      match msg.result with
      | none => heights
      | some result =>
          if result.kvResults ≠ [] ∨ result.blockTx.isSome then
            heights.accept msg.queryId environment.blockHeight
          else
            heights
  | _, _ => heights

def Heights.close (heights : Heights) : Frame → Heights
  | .txCallback call blockHeight => heights.accept call.queryId blockHeight
  | _ => heights

def trackedStep (state : Nested Tracked Frame) : Step → Nested Tracked Frame
  | .execute => state.enter .execution state.world
  | .message environment msg =>
      match msg.handle environment state.world.world with
      | .error _ => state
      | .ok (none, world) =>
          state.update ⟨world, state.world.heights.observe environment msg none⟩
      | .ok (some frame, world) =>
          state.enter frame ⟨world, state.world.heights.observe environment msg (some frame)⟩
  | .finish =>
      match state.stack with
      | [] => state
      | (frame, _) :: _ =>
          match frame.finish state.world.world with
          | .error _ => state.revert
          | .ok world => state.leave ⟨world, state.world.heights.close frame⟩
  | .fail => state.revert
  | .setBank bank =>
      state.update { state.world with world := { state.world.world with bank := bank } }
  | .endBlock =>
      match state.stack with
      | [] => state.update { state.world with world := state.world.world.txQueriesCleanup }
      | _ :: _ => state

def trackedInitial (authority : String) (params : Params) (bank : Bank) :
    Nested Tracked Frame :=
  Nested.idle ⟨(initial authority params bank).world, ⟨fun _ => 0, fun _ => 0⟩⟩

theorem map_trackedStep (state : Nested Tracked Frame) (action : Step) :
    (trackedStep state action).map Tracked.world = step (state.map Tracked.world) action := by
  cases action with
  | execute => rfl
  | message environment msg =>
      unfold trackedStep step
      dsimp only [Nested.map_world]
      cases handled : msg.handle environment state.world.world with
      | error => simp
      | ok result =>
          obtain ⟨frame, world⟩ := result
          cases frame <;> simp
  | finish =>
      obtain ⟨tracked, stack⟩ := state
      cases stack with
      | nil => rfl
      | cons top rest =>
          obtain ⟨frame, snapshot⟩ := top
          simp only [trackedStep, step, Nested.map, List.map_cons]
          cases finished : frame.finish tracked.world <;> rfl
  | fail => exact Nested.map_revert _ _
  | setBank bank => rfl
  | endBlock =>
      obtain ⟨tracked, stack⟩ := state
      cases stack <;> rfl

theorem map_trackedRun (authority : String) (params : Params) (bank : Bank)
    (steps : List Step) :
    (Machine.run trackedStep (trackedInitial authority params bank) steps).map Tracked.world =
      Machine.run step (initial authority params bank) steps :=
  Machine.run_simulates map_trackedStep _ steps

structure Timed (tracked : Tracked) (frames : List Frame) : Prop where
  registry : Registry tracked.world frames
  stored : ∀ {id query}, tracked.world.queries.get? id = some query →
    query.registeredAtHeight = tracked.heights.registered id ∧
      query.lastSubmittedResultLocalHeight = tracked.heights.accepted id
  collected : ∀ {query}, .collectDeposit query ∈ frames →
    query.registeredAtHeight = tracked.heights.registered query.id ∧
      query.lastSubmittedResultLocalHeight = tracked.heights.accepted query.id
  unused : ∀ {id}, tracked.world.lastRegisteredQueryKey < id → tracked.heights.accepted id = 0

variable {environment : Environment}

section Invariant

variable {world final : World} {heights : Heights} {frames after : List Frame}

theorem mem_collecting {query : RegisteredQuery} (member : .collectDeposit query ∈ frames) :
    query.id ∈ collecting frames :=
  List.mem_filterMap.mpr ⟨.collectDeposit query, member, rfl⟩

theorem Timed.keep (timed : Timed ⟨world, heights⟩ frames) (registry : Registry final after)
    (queries : ∀ {id query}, final.queries.get? id = some query →
      world.queries.get? id = some query)
    (collects : ∀ {query}, .collectDeposit query ∈ after → .collectDeposit query ∈ frames)
    (sameLast : final.lastRegisteredQueryKey = world.lastRegisteredQueryKey) :
    Timed ⟨final, heights⟩ after where
  registry := registry
  stored found := timed.stored (queries found)
  collected member := timed.collected (collects member)
  unused above := timed.unused (sameLast ▸ above)

theorem Timed.write (timed : Timed ⟨world, heights⟩ frames) (registry : Registry final after)
    {id height : Nat} {query changed : RegisteredQuery}
    (found : world.queries.get? id = some query)
    (queries : final.queries = world.queries.set id changed)
    (sameRegistered : changed.registeredAtHeight = query.registeredAtHeight)
    (isHeight : changed.lastSubmittedResultLocalHeight = height)
    (collects : ∀ {query}, .collectDeposit query ∈ after → .collectDeposit query ∈ frames)
    (sameLast : final.lastRegisteredQueryKey = world.lastRegisteredQueryKey) :
    Timed ⟨final, heights.accept id height⟩ after where
  registry := registry
  stored := by
    intro other stored isStored
    dsimp only [Heights.accept]
    rw [queries] at isStored
    rcases SortedStore.of_get?_set isStored with ⟨same, rfl⟩ | ⟨different, isStored⟩
    · rw [same, Function.update_self]
      exact ⟨sameRegistered.trans (timed.stored found).1, isHeight⟩
    · rw [Function.update_of_ne different]
      exact timed.stored isStored
  collected := by
    intro collected member
    have member := collects member
    have fresh := timed.registry.fresh (.inr (mem_collecting member))
    dsimp only [Heights.accept]
    rw [Function.update_of_ne (fresh.ne found)]
    exact timed.collected member
  unused := by
    intro other above
    rw [sameLast] at above
    have fresh := timed.registry.fresh (.inl above)
    dsimp only [Heights.accept]
    rw [Function.update_of_ne (fresh.ne found)]
    exact timed.unused above

theorem Timed.register (timed : Timed ⟨world, heights⟩ frames)
    {msg : MsgRegisterInterchainQuery} {query : RegisteredQuery}
    (ok : beginRegister environment world msg = .ok (query, final)) :
    Timed ⟨final, heights.observe environment (.registerInterchainQuery msg)
      (some (.collectDeposit query))⟩ (.collectDeposit query :: frames) := by
  obtain ⟨isNext, _, isFinal⟩ := beginRegister_eq_ok ok
  obtain ⟨_, _, ok⟩ := of_bind ok
  obtain ⟨_, _, ok⟩ := of_bind ok
  obtain ⟨_, _, ok⟩ := of_bind ok
  have isHeight : query.registeredAtHeight = environment.blockHeight ∧
      query.lastSubmittedResultLocalHeight = 0 := by
    cases ok
    exact ⟨rfl, rfl⟩
  subst isFinal
  constructor
  case registry => exact timed.registry.begin isNext
  case stored =>
    intro id other found
    have different : id ≠ query.id := by
      intro same
      have fresh : Fresh world query.id := timed.registry.fresh
        (.inl (show world.lastRegisteredQueryKey < query.id by omega))
      exact fresh.ne found same.symm
    dsimp only [Heights.observe]
    rw [Function.update_of_ne different]
    exact timed.stored found
  case collected =>
    intro other member
    dsimp only [Heights.observe]
    rcases List.mem_cons.mp member with same | earlier
    · cases same
      rw [Function.update_self, timed.unused (show world.lastRegisteredQueryKey < query.id by omega)]
      exact isHeight
    · have below := timed.registry.bounded _ (mem_collecting earlier)
      rw [Function.update_of_ne (by dsimp only at below; omega)]
      exact timed.collected earlier
  case unused =>
    intro id above
    exact timed.unused (Nat.lt_of_succ_lt above)

variable {frame : Option Frame}

theorem mem_of_mem_toList_append {query : RegisteredQuery}
    (member : .collectDeposit query ∈ frame.toList ++ frames)
    (collects : frame.bind Frame.collectedId = none) : .collectDeposit query ∈ frames := by
  rcases List.mem_append.mp member with now | earlier
  · cases frame with
    | none => cases now
    | some frame =>
        obtain rfl := List.mem_singleton.mp now
        cases collects
  · exact earlier

theorem Timed.submit (timed : Timed ⟨world, heights⟩ frames)
    {msg : MsgSubmitQueryResult}
    (ok : submitQueryResult environment world msg = .ok (frame, final))
    (registry : Registry final (frame.toList ++ frames)) :
    Timed ⟨final, heights.observe environment (.submitQueryResult msg) frame⟩
      (frame.toList ++ frames) := by
  obtain ⟨query, result, found, isId, isResult, submission⟩ :=
    submitQueryResult_eq_ok timed.registry.indexed ok
  cases submission with
  | values checked callback given =>
      have observed : heights.observe environment (.submitQueryResult msg)
          (if callback then some (.kvCallback query.owner query.id) else none) =
            heights.accept query.id environment.blockHeight := by
        cases callback <;> simp [Heights.observe, isResult, given, isId]
      rw [observed]
      refine timed.write registry found rfl rfl rfl (fun member => ?_) rfl
      exact mem_of_mem_toList_append member (by cases callback <;> rfl)
  | callback block tx call =>
      exact timed.keep registry id (fun member => mem_of_mem_toList_append member rfl) rfl
  | processed block tx given =>
      have observed : heights.observe environment (.submitQueryResult msg) none =
          heights.accept query.id environment.blockHeight := by
        simp [Heights.observe, isResult, given, isId]
      rw [observed]
      exact timed.write registry found rfl rfl rfl id rfl
  | nothing noValues noBlock =>
      have observed : heights.observe environment (.submitQueryResult msg) none = heights := by
        simp [Heights.observe, isResult, noValues, noBlock]
      rw [observed]
      exact timed

theorem Timed.message (timed : Timed ⟨world, heights⟩ frames)
    {msg : Msg}
    (ok : msg.handle environment world = .ok (frame, final)) :
    Timed ⟨final, heights.observe environment msg frame⟩ (frame.toList ++ frames) := by
  have registry := timed.registry.effect (Msg.handle_effect timed.registry.indexed ok)
  cases msg with
  | registerInterchainQuery msg =>
      obtain ⟨⟨query, registered⟩, begun, ok⟩ := of_bind ok
      cases ok
      exact timed.register begun
  | updateInterchainQuery msg =>
      obtain ⟨updated, isUpdated, ok⟩ := of_bind ok
      cases ok
      obtain ⟨_, _, isUpdated⟩ := of_bind isUpdated
      obtain ⟨query, isQuery, isUpdated⟩ := of_bind isUpdated
      obtain ⟨_, _, isUpdated⟩ := of_bind isUpdated
      obtain ⟨_, _, isUpdated⟩ := of_bind isUpdated
      have found := World.getQueryByID_eq_ok isQuery
      have isId := timed.registry.indexed found
      have unchanged : heights.accept query.id query.lastSubmittedResultLocalHeight = heights := by
        rw [Heights.accept, (timed.stored found).2, isId, Function.update_eq_self]
      have written : Timed ⟨final, heights.accept query.id query.lastSubmittedResultLocalHeight⟩
          frames := by
        rw [← isId] at found
        cases isUpdated
        have queries : (if msg.newKeys ≠ [] ∧ query.queryType = .kv then
            (world.saveQuery (msg.apply query)).record (.rekeyed query.id)
          else world.saveQuery (msg.apply query)).queries =
            world.queries.set query.id (msg.apply query) := by split <;> rfl
        exact timed.write registry found queries rfl rfl id (by split <;> rfl)
      rw [unchanged] at written
      exact written
  | removeInterchainQuery msg =>
      obtain ⟨⟨paying, removed⟩, begun, ok⟩ := of_bind ok
      cases ok
      obtain ⟨_, _, begun⟩ := of_bind begun
      obtain ⟨query, isQuery, begun⟩ := of_bind begun
      obtain ⟨_, _, begun⟩ := of_bind begun
      cases begun
      refine timed.keep registry ?_ (fun member => mem_of_mem_toList_append member rfl) ?_
      · intro id other found
        rw [World.queries_removeQuery] at found
        exact SortedStore.of_get?_delete found
      · unfold World.removeQuery
        split <;> rfl
  | submitQueryResult msg => exact timed.submit ok registry
  | updateParams authority params =>
      obtain ⟨_, _, ok⟩ := of_bind ok
      obtain ⟨_, _, ok⟩ := of_bind ok
      cases ok
      exact timed.keep registry id id rfl

theorem Timed.closing {frame : Frame} (timed : Timed ⟨world, heights⟩ (frame :: frames))
    (closing : Closing world frame final) : Timed ⟨final, heights.close frame⟩ frames := by
  have registry := timed.registry.closing closing
  have collects : ∀ {query}, Frame.collectDeposit query ∈ frames →
      Frame.collectDeposit query ∈ frame :: frames := List.mem_cons_of_mem _
  cases closing with
  | execution => exact timed.keep registry id collects rfl
  | kvCallback owner queryId => exact timed.keep registry id collects rfl
  | pay deposit recipient bank => exact timed.keep registry id collects rfl
  | register query bank =>
      refine ⟨registry, ?_, fun member => timed.collected (collects member), timed.unused⟩
      intro id other found
      rw [World.saveQuery] at found
      rcases SortedStore.of_get?_set found with ⟨same, rfl⟩ | ⟨_, found⟩
      · rw [same]
        exact timed.collected (List.mem_cons_self ..)
      · exact timed.stored found
  | deliver query call blockHeight found =>
      have queries : (((world.record (.delivered call)).saveTransactionAsProcessed call.queryId
          call.txHash).saveQuery { query with lastSubmittedResultLocalHeight := blockHeight }).queries =
            world.queries.set call.queryId
              { query with lastSubmittedResultLocalHeight := blockHeight } := by
        rw [← timed.registry.indexed found]
        rfl
      exact timed.write registry found queries rfl rfl collects rfl

end Invariant

theorem trackedStep_timed {state : Nested Tracked Frame}
    (keeps : Nested.Keeps Timed state.world state.stack) (action : Step) :
    Nested.Keeps Timed (trackedStep state action).world (trackedStep state action).stack := by
  have now := keeps.now
  cases action with
  | execute => exact keeps.enter (now.keep (now.registry.enter rfl) id (by simp) rfl)
  | message environment msg =>
      dsimp only [trackedStep]
      split
      · exact keeps
      · rename_i world handled
        exact keeps.update (now.message handled)
      · rename_i frame world handled
        exact keeps.enter (now.message handled)
  | finish =>
      obtain ⟨tracked, stack⟩ := state
      cases stack with
      | nil => exact keeps
      | cons top rest =>
          obtain ⟨frame, snapshot⟩ := top
          dsimp only [trackedStep]
          split
          · exact keeps.revert
          · rename_i world finished
            exact keeps.leave (now.closing (Frame.finish_closing finished))
  | fail => exact keeps.revert
  | setBank bank => exact keeps.update (now.keep (now.registry.setBank bank) id id rfl)
  | endBlock =>
      obtain ⟨tracked, stack⟩ := state
      cases stack with
      | nil =>
          have cleans : Cleans tracked.world tracked.world.txQueriesCleanup :=
            txQueriesCleanup_cleans
          exact keeps.update (now.keep now.registry.cleanup
            (fun found => cleans.queries ▸ found) id cleans.last)
      | cons top rest => exact keeps

def heightsAfter (authority : String) (params : Params) (bank : Bank) (steps : List Step) :
    Heights :=
  (Machine.run trackedStep (trackedInitial authority params bank) steps).world.heights

theorem stored_heights (authority : String) (params : Params) (bank : Bank) (steps : List Step)
    {id : Nat} {query : RegisteredQuery}
    (found : (Machine.run step (initial authority params bank) steps).world.queries.get? id =
      some query) :
    query.registeredAtHeight = (heightsAfter authority params bank steps).registered id ∧
      query.lastSubmittedResultLocalHeight =
        (heightsAfter authority params bank steps).accepted id := by
  have start : Nested.Keeps Timed (trackedInitial authority params bank).world [] :=
    ⟨registry_initial authority params bank, fun found => (nomatch found),
      fun member => (nomatch member), fun _ => rfl⟩
  have keeps := @Machine.run_invariant _ _ trackedStep
    (fun state => Nested.Keeps Timed state.world state.stack)
    (fun _ action kept => trackedStep_timed kept action) _ start steps
  rw [← map_trackedRun] at found
  exact keeps.now.stored found

theorem beginRemove_isOk_iff {world : World}
    {msg : MsgRemoveInterchainQuery} {query : RegisteredQuery}
    (found : world.queries.get? msg.queryId = some query) (stranger : query.owner ≠ msg.sender)
    (valid : msg.validate environment = .ok ()) :
    (∃ removed, beginRemove environment world msg = .ok removed) ↔
      (query.registeredAtHeight + query.submitTimeout) % 2 ^ 64 < environment.blockHeight ∧
        (query.lastSubmittedResultLocalHeight + query.submitTimeout) % 2 ^ 64 <
          environment.blockHeight := by
  have isQuery : world.getQueryByID msg.queryId = .ok query := by
    rw [World.getQueryByID, found]
  unfold beginRemove
  rw [valid, Outcome.ok_bind, isQuery, Outcome.ok_bind, RegisteredQuery.validateRemoval]
  rw [if_neg stranger]
  split
  · rename_i within
    constructor
    · rintro ⟨_, impossible⟩
      cases impossible
    · intro expired
      omega
  · rename_i expired
    exact ⟨fun _ => by omega, fun _ => ⟨_, rfl⟩⟩

/-- A removal by another account than the owner respects the service period if and only if
the end of the period fits into 64 bits, or the removal comes too early even for what the
computation of the end leaves of it. -/
theorem removal_respects_service_period_iff (authority : String) (params : Params)
    (bank : Bank) (steps : List Step) (environment : Environment)
    (msg : MsgRemoveInterchainQuery) (query : RegisteredQuery)
    (found : (Machine.run step (initial authority params bank) steps).world.queries.get?
      msg.queryId = some query)
    (stranger : query.owner ≠ msg.sender) (valid : msg.validate environment = .ok ())
    (fits : environment.blockHeight < 2 ^ 64) :
    ((∃ removed, beginRemove environment
          (Machine.run step (initial authority params bank) steps).world msg = .ok removed) →
        (heightsAfter authority params bank steps).registered msg.queryId +
            query.submitTimeout < environment.blockHeight ∧
          (heightsAfter authority params bank steps).accepted msg.queryId +
            query.submitTimeout < environment.blockHeight) ↔
      (query.registeredAtHeight + query.submitTimeout < 2 ^ 64 ∧
          query.lastSubmittedResultLocalHeight + query.submitTimeout < 2 ^ 64) ∨
        environment.blockHeight ≤
          (query.registeredAtHeight + query.submitTimeout) % 2 ^ 64 ∨
        environment.blockHeight ≤
          (query.lastSubmittedResultLocalHeight + query.submitTimeout) % 2 ^ 64 := by
  obtain ⟨registered, accepted⟩ := stored_heights authority params bank steps found
  rw [beginRemove_isOk_iff found stranger valid, ← registered, ← accepted]
  omega

section Examples

def atHeight (height : Nat) : Environment := { agreeable with blockHeight := height }

def registeredQuery (submitTimeout lastLocalHeight : Nat) (lastRemoteHeight : Option Height) :
    RegisteredQuery :=
  ⟨1, "owner", .kv, [⟨"bank", [1]⟩], "[]", "connection-0", 5, lastLocalHeight, lastRemoteHeight,
    SortedStore.empty, submitTimeout, 7⟩

theorem removal_respects_service_period_iff_unanswered :
    ((∃ removed, beginRemove (atHeight 200) (Machine.run step (initial "gov" freeParams emptyBank)
          [registerOf .kv, .finish]).world ⟨"stranger", 1⟩ = .ok removed) →
        (heightsAfter "gov" freeParams emptyBank [registerOf .kv, .finish]).registered 1 +
            100 < 200 ∧
          (heightsAfter "gov" freeParams emptyBank [registerOf .kv, .finish]).accepted 1 +
            100 < 200) ↔
      (7 + 100 < 2 ^ 64 ∧ 0 + 100 < 2 ^ 64) ∨ 200 ≤ (7 + 100) % 2 ^ 64 ∨
        200 ≤ (0 + 100) % 2 ^ 64 :=
  removal_respects_service_period_iff "gov" freeParams emptyBank [registerOf .kv, .finish]
    (atHeight 200) ⟨"stranger", 1⟩ (registeredQuery 100 0 none) rfl (by decide) (by rfl)
    (by decide)

def patientParams : Params := { freeParams with querySubmitTimeout := 2 ^ 64 - 1 }

def answered : List Step :=
  [registerOf .kv, .finish, .message (atHeight 8) (.submitQueryResult
    ⟨"relayer", 1, some ⟨[⟨"bank", [1], [5], []⟩], none, 1, 1, false⟩⟩)]

/-- At height 9 anyone removes the query, although its service period has just begun. -/
theorem removal_within_service_period :
    (∃ removed, beginRemove (atHeight 9) (Machine.run step (initial "gov" patientParams emptyBank)
        answered).world ⟨"stranger", 1⟩ = .ok removed) ∧
      ((Machine.run step (initial "gov" patientParams emptyBank)
        answered).world.queries.get? 1).map (fun query => (query.owner, query.submitTimeout)) =
          some ("owner", 2 ^ 64 - 1) ∧
      ((Machine.run step (initial "gov" patientParams emptyBank) (answered ++
        [.message (atHeight 9) (.removeInterchainQuery ⟨"stranger", 1⟩), .finish])).world.queries.get?
          1).isNone ∧
      ¬ ((heightsAfter "gov" patientParams emptyBank answered).registered 1 + (2 ^ 64 - 1) < 9 ∧
        (heightsAfter "gov" patientParams emptyBank answered).accepted 1 + (2 ^ 64 - 1) < 9) := by
  refine ⟨?_, by decide +kernel, by decide +kernel, by omega⟩
  have found : (Machine.run step (initial "gov" patientParams emptyBank)
      answered).world.queries.get? 1 = some (registeredQuery (2 ^ 64 - 1) 8 (some ⟨1, 1⟩)) := rfl
  refine (beginRemove_isOk_iff found (by decide) (by rfl)).mpr ?_
  dsimp only [registeredQuery, atHeight]
  omega

end Examples

end Neutron.InterchainQueries
