import Neutron.InterchainQueries.Registry

namespace Neutron.InterchainQueries

open Library
open Neutron.Dex (Bank)

def Event.storedFor (id : Nat) : Event → Option (RegisteredQuery × QueryResult)
  | .stored query result => if query.id = id then some (query, result) else none
  | _ => none

def history (id : Nat) (log : List Event) : List (RegisteredQuery × QueryResult) :=
  log.filterMap (Event.storedFor id)

def rekeyedSince (id : Nat) : List Event → Bool
  | [] => false
  | .stored query _ :: rest => decide (query.id ≠ id) && rekeyedSince id rest
  | .rekeyed queryId :: rest => decide (queryId = id) || rekeyedSince id rest
  | .delivered _ :: rest => rekeyedSince id rest

def QueryResult.kvKeys (result : QueryResult) : List KVKey :=
  result.kvResults.map StorageValue.kvKey

def Increasing (results : List (RegisteredQuery × QueryResult)) : Prop :=
  results.Pairwise fun later earlier => earlier.2.remoteHeight.Lt later.2.remoteHeight

/-- A stored result is the last one of its query and answers the keys of that time. -/
structure Answers (log : List Event) (query : RegisteredQuery) (result : QueryResult) :
    Prop where
  height : query.lastSubmittedResultRemoteHeight = some result.remoteHeight
  keys : ∃ earlier, (history query.id log).head? = some (earlier, result) ∧
    result.kvKeys = earlier.keys ∧
    (rekeyedSince query.id log = false → query.keys = earlier.keys)

structure Answered (world : World) (frames : List Frame) : Prop where
  registry : Registry world frames
  increasing : ∀ id, Increasing (history id world.log)
  latest : ∀ {id query}, world.queries.get? id = some query →
    query.lastSubmittedResultRemoteHeight =
      ((history id world.log).head?).map fun stored => stored.2.remoteHeight
  unanswered : ∀ query, Frame.collectDeposit query ∈ frames →
    query.lastSubmittedResultRemoteHeight = none
  answers : ∀ {id query result}, world.queries.get? id = some query →
    world.results.get? id = some result → Answers world.log query result

section Logs

variable {id : Nat} {log : List Event}

theorem history_eq_nil (absent : ∀ event ∈ log, event.queryId ≠ id) : history id log = [] := by
  refine List.filterMap_eq_nil_iff.mpr ?_
  intro event member
  cases event with
  | stored query result => exact if_neg (absent _ member)
  | rekeyed queryId => rfl
  | delivered call => rfl

theorem history_stored_self (query : RegisteredQuery) (result : QueryResult) :
    history query.id (.stored query result :: log) =
      (query, result) :: history query.id log := by
  simp [history, Event.storedFor]

theorem history_cons_of_ne {event : Event} (different : event.queryId ≠ id) :
    history id (event :: log) = history id log := by
  refine List.filterMap_cons_none ?_
  cases event with
  | stored query result => exact if_neg different
  | rekeyed queryId => rfl
  | delivered call => rfl

theorem rekeyedSince_cons_of_ne {event : Event} (different : event.queryId ≠ id) :
    rekeyedSince id (event :: log) = rekeyedSince id log := by
  cases event with
  | stored query result => simp [rekeyedSince, show query.id ≠ id from different]
  | rekeyed queryId => simp [rekeyedSince, show queryId ≠ id from different]
  | delivered call => rfl

theorem Answers.cons {query : RegisteredQuery} {result : QueryResult}
    (answers : Answers log query result) {event : Event}
    (different : event.queryId ≠ query.id) : Answers (event :: log) query result where
  height := answers.height
  keys := by
    rw [history_cons_of_ne different, rekeyedSince_cons_of_ne different]
    exact answers.keys

theorem Answers.similar {query changed : RegisteredQuery} {result : QueryResult}
    (answers : Answers log query result) (similar : changed.Similar query) :
    Answers log changed result where
  height := similar.remoteHeight.trans answers.height
  keys := by
    rw [similar.id, similar.keys]
    exact answers.keys

end Logs

section Steps

variable {world final : World} {frames : List Frame}

theorem Answered.congr (answered : Answered world frames) {after : List Frame}
    (registry : Registry final after) (queries : final.queries = world.queries)
    (results : final.results = world.results) (log : final.log = world.log)
    (collects : ∀ query, Frame.collectDeposit query ∈ after →
      query.lastSubmittedResultRemoteHeight = none) : Answered final after where
  registry := registry
  increasing := log ▸ answered.increasing
  latest found := log ▸ answered.latest (queries ▸ found)
  unanswered := collects
  answers found stored := log ▸ answered.answers (queries ▸ found) (results ▸ stored)

theorem Answered.write (answered : Answered world frames)
    {query : RegisteredQuery} (changed : RegisteredQuery)
    (found : world.queries.get? query.id = some query)
    (sameId : changed.id = query.id)
    (sameHeight : changed.lastSubmittedResultRemoteHeight =
      query.lastSubmittedResultRemoteHeight)
    (registry : Registry final frames) (queries : final.queries =
      world.queries.set changed.id changed)
    (results : final.results = world.results)
    (histories : ∀ id, history id final.log = history id world.log)
    (others : ∀ {other result}, other.id ≠ query.id → Answers world.log other result →
      Answers final.log other result)
    (own : ∀ {result}, Answers world.log query result → Answers final.log changed result) :
    Answered final frames := by
  have isWritten {id : Nat} {other : RegisteredQuery}
      (isOther : final.queries.get? id = some other) :
      id = query.id ∧ other = changed ∨ id ≠ query.id ∧ world.queries.get? id = some other := by
    rw [queries, sameId, SortedStore.get?_set] at isOther
    split at isOther
    · rename_i same
      exact .inl ⟨same, (Option.some.inj isOther).symm⟩
    · rename_i different
      exact .inr ⟨different, isOther⟩
  refine ⟨registry, ?_, ?_, answered.unanswered, ?_⟩
  · intro id
    rw [histories]
    exact answered.increasing id
  · intro id other isOther
    rw [histories]
    rcases isWritten isOther with ⟨same, isChanged⟩ | ⟨_, isOld⟩
    · rw [isChanged, sameHeight, same]
      exact answered.latest found
    · exact answered.latest isOld
  · intro id other result isOther stored
    rw [results] at stored
    rcases isWritten isOther with ⟨same, isChanged⟩ | ⟨different, isOld⟩
    · rw [isChanged]
      exact own (answered.answers found (same ▸ stored))
    · refine others ?_ (answered.answers isOld stored)
      rw [answered.registry.indexed isOld]
      exact different

theorem Answered.rekey (answered : Answered world frames)
    {query changed : RegisteredQuery} (found : world.queries.get? query.id = some query)
    (sameId : changed.id = query.id)
    (sameHeight : changed.lastSubmittedResultRemoteHeight =
      query.lastSubmittedResultRemoteHeight)
    (registry : Registry ((world.saveQuery changed).record (.rekeyed query.id)) frames) :
    Answered ((world.saveQuery changed).record (.rekeyed query.id)) frames := by
  refine answered.write changed found sameId sameHeight registry rfl rfl (fun _ => rfl) ?_ ?_
  · intro other result different answers
    exact answers.cons different.symm
  · intro result answers
    refine ⟨sameHeight.trans answers.height, ?_⟩
    obtain ⟨earlier, isLast, sameKeys, _⟩ := answers.keys
    refine ⟨earlier, sameId ▸ isLast, sameKeys, ?_⟩
    intro notRekeyed
    simp [World.record, rekeyedSince, sameId] at notRekeyed

theorem Answered.store (answered : Answered world frames) {environment : Environment}
    {query : RegisteredQuery} {result : QueryResult}
    (found : world.queries.get? query.id = some query)
    (newer : ∀ last ∈ query.lastSubmittedResultRemoteHeight, last.Lt result.remoteHeight)
    (sameKeys : result.kvResults.map StorageValue.kvKey = query.keys)
    (registry : Registry (saveKVQueryResult environment world query result) frames) :
    Answered (saveKVQueryResult environment world query result) frames := by
  have isLog : (saveKVQueryResult environment world query result).log =
      .stored query (clearQueryResult result) :: world.log := rfl
  have latest := answered.latest found
  have isFirst {id : Nat} {other : RegisteredQuery}
      (isOther : (saveKVQueryResult environment world query result).queries.get? id =
        some other) :
      id = query.id ∧ other.id = query.id ∧ other.keys = query.keys ∧
          other.lastSubmittedResultRemoteHeight = some result.remoteHeight ∨
        id ≠ query.id ∧ world.queries.get? id = some other := by
    have isWritten : (world.queries.set query.id _).get? id = some other := isOther
    rcases SortedStore.of_get?_set isWritten with ⟨same, rfl⟩ | ⟨different, isWritten⟩
    · exact .inl ⟨same, rfl, rfl, rfl⟩
    · exact .inr ⟨different, isWritten⟩
  refine ⟨registry, ?_, ?_, answered.unanswered, ?_⟩
  · intro id
    by_cases same : query.id = id
    · subst same
      rw [isLog, history_stored_self]
      refine List.pairwise_cons.mpr ⟨?_, answered.increasing query.id⟩
      -- the new height is above the last one, and that one is above all others
      intro earlier member
      have isIncreasing := answered.increasing query.id
      cases isHistory : history query.id world.log with
      | nil =>
          rw [isHistory] at member
          cases member
      | cons last rest =>
          rw [isHistory] at member isIncreasing latest
          have above : last.2.remoteHeight.Lt result.remoteHeight := newer _ latest
          rcases List.mem_cons.mp member with isLast | isEarlier
          · rw [isLast]
            exact above
          · exact ((List.pairwise_cons.mp isIncreasing).1 earlier isEarlier).trans above
    · have different : (Event.stored query (clearQueryResult result)).queryId ≠ id := same
      rw [isLog, history_cons_of_ne different]
      exact answered.increasing id
  · intro id other isOther
    rcases isFirst isOther with ⟨same, _, _, isHeight⟩ | ⟨different, isOld⟩
    · rw [same, isLog, history_stored_self, isHeight]
      rfl
    · rw [isLog, history_cons_of_ne (Ne.symm different)]
      exact answered.latest isOld
  · intro id other stored isOther isStored
    have isWritten : (world.results.set query.id (clearQueryResult result)).get? id =
        some stored := isStored
    rcases isFirst isOther with ⟨same, sameId, keepsKeys, isHeight⟩ | ⟨different, isOld⟩
    · rw [same, SortedStore.get?_set_self] at isWritten
      cases isWritten
      refine ⟨isHeight, query, ?_, ?_, fun _ => keepsKeys⟩
      · rw [sameId, isLog, history_stored_self]
        rfl
      · rw [← sameKeys]
        simp [QueryResult.kvKeys, clearQueryResult, StorageValue.kvKey]
    · rw [SortedStore.get?_set_of_ne _ _ different] at isWritten
      rw [isLog]
      refine (answered.answers isOld isWritten).cons ?_
      rw [answered.registry.indexed isOld]
      exact different.symm

theorem Answered.remove (answered : Answered world frames) {query : RegisteredQuery}
    (registry : Registry (world.removeQuery query) frames) :
    Answered (world.removeQuery query) frames := by
  have isLog : (world.removeQuery query).log = world.log := by
    unfold World.removeQuery
    split <;> rfl
  have kept {id : Nat} {other : RegisteredQuery}
      (found : (world.removeQuery query).queries.get? id = some other) :
      world.queries.get? id = some other := by
    have queries : (world.removeQuery query).queries = world.queries.delete query.id := by
      unfold World.removeQuery
      split <;> rfl
    rw [queries] at found
    exact SortedStore.of_get?_delete found
  have keptResult {id : Nat} {result : QueryResult}
      (found : (world.removeQuery query).results.get? id = some result) :
      world.results.get? id = some result := by
    unfold World.removeQuery at found
    split at found
    · exact SortedStore.of_get?_delete found
    · exact found
  exact ⟨registry, isLog ▸ answered.increasing,
    fun found => isLog ▸ answered.latest (kept found), answered.unanswered,
    fun found stored => isLog ▸ answered.answers (kept found) (keptResult stored)⟩

theorem Answered.enter (answered : Answered world frames) {frame : Frame}
    (collects : frame.collectedId = none) : Answered world (frame :: frames) := by
  refine answered.congr (answered.registry.enter collects) rfl rfl rfl ?_
  intro query member
  rcases List.mem_cons.mp member with isTop | isBelow
  · rw [← isTop] at collects
    cases collects
  · exact answered.unanswered query isBelow

theorem Answered.effect (answered : Answered world frames) {environment : Environment}
    {msg : Msg} {frame : Option Frame} (effect : Effect environment msg world frame final) :
    Answered final (frame.toList ++ frames) := by
  have registry := answered.registry.effect effect
  cases effect with
  | register query isNext unanswered =>
      refine answered.congr registry rfl rfl rfl ?_
      intro other member
      rcases List.mem_cons.mp member with isTop | isBelow
      · cases isTop
        exact unanswered
      · exact answered.unanswered other isBelow
  | save query changed found similar =>
      exact answered.write changed found similar.id similar.remoteHeight registry rfl rfl
        (fun _ => rfl) (fun _ answers => answers) (fun answers => answers.similar similar)
  | rekey query changed found sameId sameType sameHeight =>
      exact answered.rekey found sameId sameHeight registry
  | remove query found recipient =>
      exact (answered.remove (registry.leave rfl)).enter rfl
  | store query result callback found newer sameKeys =>
      cases callback with
      | false => exact answered.store found newer sameKeys registry
      | true => exact (answered.store found newer sameKeys (registry.leave rfl)).enter rfl
  | callback query call found => exact answered.enter rfl
  | configure params => exact answered.congr registry rfl rfl rfl answered.unanswered
  | nothing => exact answered

theorem Answered.register {query : RegisteredQuery}
    (answered : Answered world (.collectDeposit query :: frames)) (bank : Bank)
    (registry : Registry ({ world with bank := bank }.saveQuery query) frames) :
    Answered ({ world with bank := bank }.saveQuery query) frames := by
  have fresh : Fresh world query.id := answered.registry.fresh (.inr List.mem_cons_self)
  refine ⟨registry, answered.increasing, ?_,
    fun other member => answered.unanswered other (List.mem_cons_of_mem _ member), ?_⟩
  · intro id other isOther
    rw [World.saveQuery] at isOther
    rcases SortedStore.of_get?_set isOther with ⟨same, rfl⟩ | ⟨_, isOther⟩
    · rw [answered.unanswered query List.mem_cons_self, same]
      change none = ((history query.id world.log).head?).map _
      rw [history_eq_nil fresh.log]
      rfl
    · exact answered.latest isOther
  · intro id other result isOther stored
    rw [World.saveQuery, SortedStore.get?_set] at isOther
    split at isOther
    · rename_i same
      have absent : world.results.get? id = some result := stored
      rw [same, fresh.result] at absent
      cases absent
    · exact answered.answers isOther stored

theorem Answered.closing {frame : Frame} (answered : Answered world (frame :: frames))
    (closing : Closing world frame final) : Answered final frames := by
  have registry := answered.registry.closing closing
  have below (query : RegisteredQuery) (member : Frame.collectDeposit query ∈ frames) :
      query.lastSubmittedResultRemoteHeight = none :=
    answered.unanswered query (List.mem_cons_of_mem frame member)
  cases closing with
  | execution => exact answered.congr registry rfl rfl rfl below
  | kvCallback owner queryId => exact answered.congr registry rfl rfl rfl below
  | pay deposit recipient bank => exact answered.congr registry rfl rfl rfl below
  | register query bank => exact answered.register bank registry
  | deliver query call blockHeight found =>
      have left : Answered world frames :=
        answered.congr (answered.registry.leave rfl) rfl rfl rfl below
      have isId := left.registry.indexed found
      rw [← isId] at found
      have sameLog {other : RegisteredQuery} {result : QueryResult}
          (answers : Answers world.log other result) :
          Answers (.delivered call :: world.log) other result :=
        ⟨answers.height, answers.keys⟩
      exact left.write { query with lastSubmittedResultLocalHeight := blockHeight } found rfl rfl registry rfl rfl (fun _ => rfl)
        (fun _ answers => sameLog answers)
        (fun answers => sameLog (answers.similar ⟨rfl, rfl, rfl, rfl⟩))

end Steps

theorem answered_preserved : Preserved Answered fun _ _ => True where
  registry answered := answered.registry
  execute answered := answered.enter rfl
  effect answered _ effect := answered.effect effect
  closing answered closing := answered.closing closing
  setBank bank answered :=
    answered.congr (answered.registry.setBank bank) rfl rfl rfl answered.unanswered
  cleanup answered :=
    answered.congr answered.registry.cleanup txQueriesCleanup_cleans.queries
      txQueriesCleanup_cleans.results txQueriesCleanup_cleans.log answered.unanswered

/-- In every state of every run, the stored result of a query has the height that the
query remembers and the keys that the query had when it was stored, which are those it
has now unless an update has replaced them since; the heights of the results that were
stored for a query increase. -/
theorem kvResult_matches_query (authority : String) (params : Params) (bank : Bank)
    (steps : List Step) {id : Nat} {query : RegisteredQuery} {result : QueryResult}
    (registered : (Machine.run step (initial authority params bank) steps).world.queries.get?
      id = some query)
    (stored : (Machine.run step (initial authority params bank) steps).world.results.get?
      id = some result) :
    let log := (Machine.run step (initial authority params bank) steps).world.log
    query.lastSubmittedResultRemoteHeight = some result.remoteHeight ∧
      Increasing (history id log) ∧
      (∃ earlier, (history id log).head? = some (earlier, result) ∧
        result.kvKeys = earlier.keys) ∧
      (rekeyedSince id log = false → result.kvKeys = query.keys) := by
  intro log
  have start : Answered (initial authority params bank).world [] :=
    ⟨registry_initial authority params bank, fun _ => List.Pairwise.nil,
      fun found => (nomatch found), fun _ member => (nomatch member),
      fun found => (nomatch found)⟩
  have permitted : Machine.Allowed step (fun _ _ => True) (initial authority params bank) steps :=
    Machine.allowed_of_forall fun _ _ => trivial
  have answered := answered_preserved.run start permitted
  have answers := answered.answers registered stored
  obtain ⟨earlier, isLast, sameKeys, unchanged⟩ := answers.keys
  rw [answered.registry.indexed registered] at isLast unchanged
  refine ⟨answers.height, answered.increasing id, ⟨earlier, isLast, sameKeys⟩, ?_⟩
  intro notRekeyed
  exact sameKeys.trans (unchanged notRekeyed).symm

section Examples

def submitValue (height : Nat) : Step :=
  .message agreeable (.submitQueryResult
    ⟨"relayer", 1, some ⟨[⟨"bank", [1], [5], []⟩], none, height, 1, false⟩⟩)

def replaceKeys : Step :=
  .message agreeable (.updateInterchainQuery ⟨"owner", 1, [⟨"staking", [2]⟩], 0, ""⟩)

/-- After an update of the keys, the result stays that of the keys before. -/
theorem kvResult_differs_after_update :
    let final := (Machine.run step start
      [registerOf .kv, .finish, submitValue 3, replaceKeys]).world
    (final.results.get? 1).map QueryResult.kvKeys = some [⟨"bank", [1]⟩] ∧
      (final.queries.get? 1).map RegisteredQuery.keys = some [⟨"staking", [2]⟩] := by
  decide +kernel

theorem kvResult_matches_query_submitted :
    let final := (Machine.run step start
      [registerOf .kv, .finish, submitValue 3, submitValue 4]).world
    ∃ query result, final.queries.get? 1 = some query ∧ final.results.get? 1 = some result ∧
      query.lastSubmittedResultRemoteHeight = some result.remoteHeight ∧
      result.kvKeys = query.keys := by
  intro final
  have hasQuery : (final.queries.get? 1).isSome := by decide +kernel
  have hasResult : (final.results.get? 1).isSome := by decide +kernel
  obtain ⟨query, registered⟩ := Option.isSome_iff_exists.mp hasQuery
  obtain ⟨result, stored⟩ := Option.isSome_iff_exists.mp hasResult
  have holds := kvResult_matches_query "gov" freeParams emptyBank
    [registerOf .kv, .finish, submitValue 3, submitValue 4] registered stored
  have notRekeyed : rekeyedSince 1 final.log = false := by decide +kernel
  exact ⟨query, result, registered, stored, holds.1, holds.2.2.2 notRekeyed⟩

end Examples

end Neutron.InterchainQueries
