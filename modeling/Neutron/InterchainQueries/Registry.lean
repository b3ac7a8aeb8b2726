import Neutron.Library.Machine
import Neutron.InterchainQueries.Keeper

namespace Neutron.InterchainQueries

open Library
open Neutron.Dex (Coins Bank)

section Effects

/-- A write of a query that leaves its type, its keys and its answer alone. -/
structure RegisteredQuery.Similar (changed query : RegisteredQuery) : Prop where
  id : changed.id = query.id
  queryType : changed.queryType = query.queryType
  keys : changed.keys = query.keys
  remoteHeight :
    changed.lastSubmittedResultRemoteHeight = query.lastSubmittedResultRemoteHeight

def World.Indexed (world : World) : Prop :=
  ∀ {id query}, world.queries.get? id = some query → query.id = id

def Msg.txKey (environment : Environment) : Msg → Option (Nat × Bytes)
  | .submitQueryResult msg => do
      let result ← msg.result
      let (_, tx) ← result.blockTx
      some (msg.queryId, environment.txHash tx.data)
  | _ => none

inductive Effect (environment : Environment) (msg : Msg) (world : World) :
    Option Frame → World → Prop
  | register (query : RegisteredQuery)
      (isNext : query.id = world.lastRegisteredQueryKey + 1)
      (unanswered : query.lastSubmittedResultRemoteHeight = none) :
      Effect environment msg world (some (.collectDeposit query))
        { world with lastRegisteredQueryKey := world.lastRegisteredQueryKey + 1 }
  | save (query changed : RegisteredQuery)
      (found : world.queries.get? query.id = some query) (similar : changed.Similar query) :
      Effect environment msg world none (world.saveQuery changed)
  | rekey (query changed : RegisteredQuery)
      (found : world.queries.get? query.id = some query) (sameId : changed.id = query.id)
      (sameType : changed.queryType = query.queryType)
      (sameHeight : changed.lastSubmittedResultRemoteHeight =
        query.lastSubmittedResultRemoteHeight) :
      Effect environment msg world none
        ((world.saveQuery changed).record (.rekeyed query.id))
  | remove (query : RegisteredQuery) (found : world.queries.get? query.id = some query)
      (recipient : String) :
      Effect environment msg world (some (.payOutDeposit query.deposit recipient))
        (world.removeQuery query)
  | store (query : RegisteredQuery) (result : QueryResult) (callback : Bool)
      (found : world.queries.get? query.id = some query)
      (newer : ∀ last ∈ query.lastSubmittedResultRemoteHeight, last.Lt result.remoteHeight)
      (sameKeys : result.kvResults.map StorageValue.kvKey = query.keys) :
      Effect environment msg world
        (if callback then some (.kvCallback query.owner query.id) else none)
        (saveKVQueryResult environment world query result)
  | callback (query : RegisteredQuery) (call : TxCallback)
      (found : world.queries.get? call.queryId = some query)
      (submitted : msg.txKey environment = some (call.queryId, call.txHash))
      (unprocessed : world.submittedTxs.get? (toLex (call.queryId, call.txHash)) = none) :
      Effect environment msg world (some (.txCallback call environment.blockHeight)) world
  | configure (params : Params) :
      Effect environment msg world none { world with params := params }
  | nothing : Effect environment msg world none world

variable {environment : Environment} {world final : World}

theorem World.getQueryByID_eq_ok {id : Nat} {query : RegisteredQuery}
    (ok : world.getQueryByID id = .ok query) : world.queries.get? id = some query := by
  unfold World.getQueryByID at ok
  split at ok
  · cases ok
  · rename_i other found
    cases ok
    exact found

theorem World.updateLastLocalHeight_eq_ok {id height : Nat}
    (ok : world.updateLastLocalHeight id height = .ok final) :
    ∃ query, world.queries.get? id = some query ∧
      final = world.saveQuery { query with lastSubmittedResultLocalHeight := height } := by
  obtain ⟨query, isQuery, ok⟩ := of_bind ok
  cases ok
  exact ⟨query, World.getQueryByID_eq_ok isQuery, rfl⟩

theorem checkLastRemoteHeight_eq_ok {query : RegisteredQuery} {height : Height} {result : Unit}
    (ok : checkLastRemoteHeight query height = .ok result) :
    ∀ last ∈ query.lastSubmittedResultRemoteHeight, last.Lt height := by
  intro last isLast
  unfold checkLastRemoteHeight at ok
  rw [Option.mem_def.mp isLast] at ok
  have below := of_require ok
  simpa [Height.gte] using below

theorem checkStorageValue_kvKey {key : KVKey} {value checked : StorageValue}
    (ok : checkStorageValue environment key value = .ok checked) : checked.kvKey = key := by
  obtain ⟨_, sameKey, ok⟩ := of_bind ok
  obtain ⟨_, samePath, ok⟩ := of_bind ok
  rw [Outcome.require_eq_ok_iff] at sameKey samePath
  have same : value.kvKey = key := by
    rw [StorageValue.kvKey, sameKey, samePath]
  split at ok
  · cases ok
  · cases ok
    exact same
  · cases ok
    exact same

theorem verifyStorageValues_kvKeys {specs root : Bytes} {keys : List KVKey}
    {values checked : List StorageValue} (sameLength : values.length = keys.length)
    (ok : verifyStorageValues environment specs root keys values = .ok checked) :
    checked.map StorageValue.kvKey = keys := by
  induction keys generalizing values checked with
  | nil =>
      rw [List.length_eq_zero_iff.mp sameLength, verifyStorageValues] at ok
      cases ok
      rfl
  | cons key keys ih =>
      cases values with
      | nil => cases sameLength
      | cons value values =>
          rw [verifyStorageValues] at ok
          obtain ⟨first, isFirst, ok⟩ := of_bind ok
          obtain ⟨_, _, ok⟩ := of_bind ok
          obtain ⟨others, isOthers, ok⟩ := of_bind ok
          cases ok
          rw [List.map_cons, checkStorageValue_kvKey isFirst,
            ih (Nat.succ.inj sameLength) isOthers]

variable {clientId : String}

theorem submitKVResults_eq_ok {query : RegisteredQuery}
    {result : QueryResult}
    (ok : submitKVResults environment world query clientId result = .ok final) :
    query.queryType = .kv ∧ ∃ checked : QueryResult,
      (∀ last ∈ query.lastSubmittedResultRemoteHeight, last.Lt checked.remoteHeight) ∧
      checked.kvResults.map StorageValue.kvKey = query.keys ∧
      final = saveKVQueryResult environment world query checked := by
  obtain ⟨_, isKV, ok⟩ := of_bind ok
  obtain ⟨_, newer, ok⟩ := of_bind ok
  obtain ⟨_, sameLength, ok⟩ := of_bind ok
  obtain ⟨root, _, ok⟩ := of_bind ok
  rw [Outcome.require_eq_ok_iff] at isKV sameLength
  split at ok
  · cases ok
  · obtain ⟨values, verified, ok⟩ := of_bind ok
    cases ok
    exact ⟨isKV, { result with kvResults := values }, checkLastRemoteHeight_eq_ok newer,
      verifyStorageValues_kvKeys sameLength verified, rfl⟩

theorem processBlock_eq_ok {owner : String} {queryId : Nat}
    {block : Block} {tx : TxValue} {call : TxCallback}
    (ok : processBlock environment world owner queryId clientId block tx = .ok (some call)) :
    call.queryId = queryId ∧ call.txHash = environment.txHash tx.data ∧
      world.submittedTxs.get? (toLex (queryId, environment.txHash tx.data)) = none := by
  obtain ⟨header, _, ok⟩ := of_bind ok
  obtain ⟨nextHeader, _, ok⟩ := of_bind ok
  obtain ⟨_, _, ok⟩ := of_bind ok
  obtain ⟨tmHeader, _, ok⟩ := of_bind ok
  obtain ⟨tmNextHeader, _, ok⟩ := of_bind ok
  dsimp only at ok
  split at ok
  · cases ok
  · rename_i unprocessed
    obtain ⟨_, _, ok⟩ := of_bind ok
    obtain ⟨_, _, ok⟩ := of_bind ok
    cases ok
    refine ⟨rfl, rfl, ?_⟩
    rw [World.checkTransactionIsAlreadyProcessed, Bool.not_eq_true] at unprocessed
    exact Option.isSome_eq_false_iff.mp unprocessed |> Option.isNone_iff_eq_none.mp

theorem updateInterchainQuery_effect {msg : MsgUpdateInterchainQuery}
    (indexed : world.Indexed) (ok : updateInterchainQuery environment world msg = .ok final) :
    Effect environment (.updateInterchainQuery msg) world none final := by
  obtain ⟨_, _, ok⟩ := of_bind ok
  obtain ⟨query, isQuery, ok⟩ := of_bind ok
  obtain ⟨_, _, ok⟩ := of_bind ok
  obtain ⟨_, _, ok⟩ := of_bind ok
  have found := World.getQueryByID_eq_ok isQuery
  rw [← indexed found] at found
  cases ok
  split
  · exact .rekey query (msg.apply query) found rfl rfl rfl
  · rename_i keepsKeys
    exact .save query (msg.apply query) found ⟨rfl, rfl, if_neg keepsKeys, rfl⟩

inductive Submission (environment : Environment) (world : World) (query : RegisteredQuery)
    (result : QueryResult) : Option Frame → World → Prop
  | values (checked : QueryResult) (callback : Bool) (given : result.kvResults ≠ [])
      (newer : ∀ last ∈ query.lastSubmittedResultRemoteHeight, last.Lt checked.remoteHeight)
      (sameKeys : checked.kvResults.map StorageValue.kvKey = query.keys) :
      Submission environment world query result
        (if callback then some (.kvCallback query.owner query.id) else none)
        (saveKVQueryResult environment world query checked)
  | callback (block : Block) (tx : TxValue) (call : TxCallback)
      (given : result.blockTx = some (block, tx)) (sameQuery : call.queryId = query.id)
      (sameHash : call.txHash = environment.txHash tx.data)
      (unprocessed : world.submittedTxs.get? (toLex (call.queryId, call.txHash)) = none) :
      Submission environment world query result
        (some (.txCallback call environment.blockHeight)) world
  | processed (block : Block) (tx : TxValue) (given : result.blockTx = some (block, tx)) :
      Submission environment world query result none
        (world.saveQuery { query with lastSubmittedResultLocalHeight := environment.blockHeight })
  | nothing (noValues : result.kvResults = []) (noBlock : result.blockTx = none) :
      Submission environment world query result none world

variable {msg : MsgSubmitQueryResult}

theorem MsgSubmitQueryResult.validate_eq_ok {result : QueryResult}
    (valid : msg.validate environment = .ok result) : msg.result = some result := by
  unfold MsgSubmitQueryResult.validate at valid
  split at valid
  · cases valid
  · rename_i other isOther
    obtain ⟨_, _, valid⟩ := of_bind valid
    obtain ⟨_, _, valid⟩ := of_bind valid
    obtain ⟨_, _, valid⟩ := of_bind valid
    cases valid
    exact isOther

theorem submitQueryResult_eq_ok {frame : Option Frame}
    (indexed : world.Indexed)
    (ok : submitQueryResult environment world msg = .ok (frame, final)) :
    ∃ query result, world.queries.get? query.id = some query ∧ query.id = msg.queryId ∧
      msg.result = some result ∧ Submission environment world query result frame final := by
  obtain ⟨result, valid, ok⟩ := of_bind ok
  obtain ⟨query, isQuery, ok⟩ := of_bind ok
  have stored := World.getQueryByID_eq_ok isQuery
  have isId := indexed stored
  have found : world.queries.get? query.id = some query := isId ▸ stored
  refine ⟨query, result, found, isId, MsgSubmitQueryResult.validate_eq_ok valid, ?_⟩
  split at ok
  · cases ok
  · rename_i clientId _
    obtain ⟨_, _, ok⟩ := of_bind ok
    obtain ⟨saved, isSaved, ok⟩ := of_bind ok
    unfold saveAnyKVResults at isSaved
    by_cases hasValues : result.kvResults ≠ []
    · rw [if_pos hasValues] at isSaved
      obtain ⟨isKV, checked, newer, sameKeys, isFinal⟩ := submitKVResults_eq_ok isSaved
      subst isFinal
      split at ok
      · obtain ⟨_, _, ok⟩ := of_bind ok
        cases ok
        exact .values checked true hasValues newer sameKeys
      · split at ok
        · cases ok
          exact .values checked false hasValues newer sameKeys
        · -- a KV query has no blocks
          obtain ⟨_, isTX, _⟩ := of_bind ok
          rw [Outcome.require_eq_ok_iff, isKV] at isTX
          cases isTX
    · rw [if_neg hasValues] at isSaved
      cases isSaved
      rw [if_neg fun both => hasValues both.1] at ok
      split at ok
      · rename_i noBlock
        cases ok
        exact .nothing (not_not.mp hasValues) noBlock
      · rename_i block tx isBlock
        obtain ⟨_, _, ok⟩ := of_bind ok
        obtain ⟨called, processed, ok⟩ := of_bind ok
        cases called with
        | none =>
            obtain ⟨updated, isUpdated, ok⟩ := of_bind ok
            cases ok
            obtain ⟨again, isAgain, isFinal⟩ := World.updateLastLocalHeight_eq_ok isUpdated
            cases Option.some.inj (found.symm.trans isAgain)
            subst isFinal
            exact .processed block tx isBlock
        | some call =>
            cases ok
            obtain ⟨sameQuery, sameHash, unprocessed⟩ := processBlock_eq_ok processed
            rw [← sameQuery, ← sameHash] at unprocessed
            exact .callback block tx call isBlock sameQuery sameHash unprocessed

theorem submitQueryResult_effect {frame : Option Frame}
    (indexed : world.Indexed)
    (ok : submitQueryResult environment world msg = .ok (frame, final)) :
    Effect environment (.submitQueryResult msg) world frame final := by
  obtain ⟨query, result, found, isId, isResult, submission⟩ := submitQueryResult_eq_ok indexed ok
  cases submission with
  | values checked callback _ newer sameKeys =>
      exact .store query checked callback found newer sameKeys
  | callback block tx call isBlock sameQuery sameHash unprocessed =>
      have submitted : (Msg.submitQueryResult msg).txKey environment =
          some (call.queryId, call.txHash) := by
        simp [Msg.txKey, isResult, isBlock, sameQuery, sameHash, isId]
      rw [← sameQuery] at found
      exact .callback query call found submitted unprocessed
  | processed => exact .save query _ found ⟨rfl, rfl, rfl, rfl⟩
  | nothing => exact .nothing

theorem beginRegister_eq_ok {msg : MsgRegisterInterchainQuery} {query : RegisteredQuery}
    (ok : beginRegister environment world msg = .ok (query, final)) :
    query.id = world.lastRegisteredQueryKey + 1 ∧
      query.lastSubmittedResultRemoteHeight = none ∧
      final = { world with lastRegisteredQueryKey := world.lastRegisteredQueryKey + 1 } := by
  obtain ⟨queryType, _, ok⟩ := of_bind ok
  obtain ⟨_, _, ok⟩ := of_bind ok
  obtain ⟨_, _, ok⟩ := of_bind ok
  cases ok
  exact ⟨rfl, rfl, rfl⟩

theorem beginRemove_eq_ok {msg : MsgRemoveInterchainQuery} {frame : Frame}
    (indexed : world.Indexed) (ok : beginRemove environment world msg = .ok (frame, final)) :
    ∃ query, world.queries.get? query.id = some query ∧
      frame = .payOutDeposit query.deposit msg.sender ∧ final = world.removeQuery query := by
  obtain ⟨_, _, ok⟩ := of_bind ok
  obtain ⟨query, isQuery, ok⟩ := of_bind ok
  obtain ⟨_, _, ok⟩ := of_bind ok
  have found := World.getQueryByID_eq_ok isQuery
  rw [← indexed found] at found
  cases ok
  exact ⟨query, found, rfl, rfl⟩

theorem Msg.handle_effect {msg : Msg} {frame : Option Frame} (indexed : world.Indexed)
    (ok : msg.handle environment world = .ok (frame, final)) :
    Effect environment msg world frame final := by
  cases msg with
  | registerInterchainQuery msg =>
      obtain ⟨⟨query, registered⟩, begun, ok⟩ := of_bind ok
      cases ok
      obtain ⟨isNext, unanswered, isFinal⟩ := beginRegister_eq_ok begun
      rw [isFinal]
      exact .register query isNext unanswered
  | updateInterchainQuery msg =>
      obtain ⟨updated, isUpdated, ok⟩ := of_bind ok
      cases ok
      exact updateInterchainQuery_effect indexed isUpdated
  | removeInterchainQuery msg =>
      obtain ⟨⟨paying, removed⟩, begun, ok⟩ := of_bind ok
      cases ok
      obtain ⟨query, found, rfl, rfl⟩ := beginRemove_eq_ok indexed begun
      exact .remove query found msg.sender
  | submitQueryResult msg => exact submitQueryResult_effect indexed ok
  | updateParams authority params =>
      obtain ⟨_, _, ok⟩ := of_bind ok
      obtain ⟨_, _, ok⟩ := of_bind ok
      cases ok
      exact .configure params

inductive Closing (world : World) : Frame → World → Prop
  | execution : Closing world .execution world
  | kvCallback (owner : String) (queryId : Nat) :
      Closing world (.kvCallback owner queryId) world
  | pay (deposit : Coins) (recipient : String) (bank : Bank) :
      Closing world (.payOutDeposit deposit recipient) { world with bank := bank }
  | register (query : RegisteredQuery) (bank : Bank) :
      Closing world (.collectDeposit query) ({ world with bank := bank }.saveQuery query)
  | deliver (query : RegisteredQuery) (call : TxCallback) (blockHeight : Nat)
      (found : world.queries.get? call.queryId = some query) :
      Closing world (.txCallback call blockHeight)
        (((world.record (.delivered call)).saveTransactionAsProcessed call.queryId
          call.txHash).saveQuery { query with lastSubmittedResultLocalHeight := blockHeight })

theorem Frame.finish_closing {frame : Frame} (ok : frame.finish world = .ok final) :
    Closing world frame final := by
  cases frame with
  | execution =>
      cases ok
      exact .execution
  | collectDeposit query =>
      simp only [Frame.finish, finishRegister] at ok
      split at ok
      · cases ok
      · cases ok
        exact .register query _
  | payOutDeposit deposit recipient =>
      simp only [Frame.finish, finishRemove] at ok
      split at ok
      · cases ok
      · split at ok
        · cases ok
        · cases ok
          exact .pay deposit recipient _
  | kvCallback owner queryId =>
      cases ok
      exact .kvCallback owner queryId
  | txCallback call blockHeight =>
      obtain ⟨query, found, isFinal⟩ := World.updateLastLocalHeight_eq_ok ok
      subst isFinal
      exact .deliver query call blockHeight found

end Effects

def Event.queryId : Event → Nat
  | .stored query _ => query.id
  | .rekeyed queryId => queryId
  | .delivered call => call.queryId

structure Fresh (world : World) (id : Nat) : Prop where
  query : world.queries.get? id = none
  result : world.results.get? id = none
  toRemove : world.txQueriesToRemove.get? id = none
  log : ∀ event ∈ world.log, event.queryId ≠ id

def Frame.collectedId : Frame → Option Nat
  | .collectDeposit query => some query.id
  | _ => none

def collecting (frames : List Frame) : List Nat := frames.filterMap Frame.collectedId

structure Registry (world : World) (frames : List Frame) : Prop where
  indexed : world.Indexed
  distinct : (collecting frames).Nodup
  bounded : ∀ id ∈ collecting frames, id ≤ world.lastRegisteredQueryKey
  fresh : ∀ {id}, world.lastRegisteredQueryKey < id ∨ id ∈ collecting frames → Fresh world id

section Identifiers

variable {world : World} {frames : List Frame}

theorem Fresh.ne {id other : Nat} (fresh : Fresh world id) {query : RegisteredQuery}
    (found : world.queries.get? other = some query) : id ≠ other := by
  intro same
  rw [← same, fresh.query] at found
  cases found

theorem Fresh.saveQuery {id : Nat} (fresh : Fresh world id) {query : RegisteredQuery}
    (different : id ≠ query.id) : Fresh (world.saveQuery query) id where
  query := (world.queries.get?_set_of_ne query different).trans fresh.query
  result := fresh.result
  toRemove := fresh.toRemove
  log := fresh.log

theorem Fresh.record {id : Nat} (fresh : Fresh world id) {event : Event}
    (different : id ≠ event.queryId) : Fresh (world.record event) id where
  query := fresh.query
  result := fresh.result
  toRemove := fresh.toRemove
  log := List.forall_mem_cons.mpr ⟨different.symm, fresh.log⟩

theorem Fresh.removeQuery {id : Nat} (fresh : Fresh world id) {query : RegisteredQuery}
    (different : id ≠ query.id) : Fresh (world.removeQuery query) id := by
  have gone := (world.queries.get?_delete_of_ne different).trans fresh.query
  unfold World.removeQuery
  split
  · exact ⟨gone, (world.results.get?_delete_of_ne different).trans fresh.result,
      fresh.toRemove, fresh.log⟩
  · exact ⟨gone, fresh.result,
      (world.txQueriesToRemove.get?_set_of_ne () different).trans fresh.toRemove, fresh.log⟩

variable {environment : Environment}

theorem Fresh.saveKVQueryResult {id : Nat} (fresh : Fresh world id)
    {query : RegisteredQuery} {result : QueryResult}
    (different : id ≠ query.id) :
    Fresh (saveKVQueryResult environment world query result) id where
  query := (world.queries.get?_set_of_ne _ different).trans fresh.query
  result := (world.results.get?_set_of_ne _ different).trans fresh.result
  toRemove := fresh.toRemove
  log := List.forall_mem_cons.mpr ⟨different.symm, fresh.log⟩

theorem World.Indexed.saveQuery (indexed : world.Indexed) (query : RegisteredQuery) :
    (world.saveQuery query).Indexed := by
  intro id other found
  rw [World.saveQuery] at found
  rcases SortedStore.of_get?_set found with ⟨same, rfl⟩ | ⟨_, found⟩
  · exact same.symm
  · exact indexed found

theorem World.queries_removeQuery (world : World) (query : RegisteredQuery) :
    (world.removeQuery query).queries = world.queries.delete query.id := by
  unfold World.removeQuery
  split <;> rfl

theorem World.Indexed.removeQuery (indexed : world.Indexed) (query : RegisteredQuery) :
    (world.removeQuery query).Indexed := by
  intro id other found
  rw [World.queries_removeQuery] at found
  exact indexed (SortedStore.of_get?_delete found)

variable {final : World}

theorem Registry.write (registry : Registry world frames) {id : Nat}
    {query : RegisteredQuery} (found : world.queries.get? id = some query)
    (sameLast : final.lastRegisteredQueryKey = world.lastRegisteredQueryKey)
    (indexed : final.Indexed)
    (others : ∀ {other}, other ≠ id → Fresh world other → Fresh final other) :
    Registry final frames where
  indexed := indexed
  distinct := registry.distinct
  bounded := sameLast ▸ registry.bounded
  fresh := by
    intro other unused
    rw [sameLast] at unused
    have fresh := registry.fresh unused
    exact others (fresh.ne found) fresh

theorem Registry.enter (registry : Registry world frames) {frame : Frame}
    (collects : frame.collectedId = none) : Registry world (frame :: frames) := by
  have same : collecting (frame :: frames) = collecting frames := by
    rw [collecting, List.filterMap_cons_none collects]
    rfl
  exact ⟨registry.indexed, same ▸ registry.distinct, same ▸ registry.bounded,
    fun unused => registry.fresh (same ▸ unused)⟩

theorem Registry.leave {frame : Frame} (registry : Registry world (frame :: frames))
    (collects : frame.collectedId = none) : Registry world frames := by
  have same : collecting (frame :: frames) = collecting frames := by
    rw [collecting, List.filterMap_cons_none collects]
    rfl
  exact ⟨registry.indexed, same ▸ registry.distinct, same ▸ registry.bounded,
    fun unused => registry.fresh (same ▸ unused)⟩

theorem Registry.begin (registry : Registry world frames) {query : RegisteredQuery}
    (isNext : query.id = world.lastRegisteredQueryKey + 1) :
    Registry { world with lastRegisteredQueryKey := world.lastRegisteredQueryKey + 1 }
      (.collectDeposit query :: frames) := by
  have same : collecting (.collectDeposit query :: frames) = query.id :: collecting frames :=
    rfl
  refine ⟨registry.indexed, ?_, ?_, ?_⟩
  · rw [same]
    refine List.nodup_cons.mpr ⟨fun member => ?_, registry.distinct⟩
    have below := registry.bounded query.id member
    omega
  · intro id member
    rw [same] at member
    rcases List.mem_cons.mp member with isNew | isOld
    · exact (isNew.trans isNext).le
    · exact Nat.le_succ_of_le (registry.bounded id isOld)
  · intro id unused
    have old : world.lastRegisteredQueryKey < id ∨ id ∈ collecting frames := by
      rcases unused with above | member
      · exact .inl (Nat.lt_of_succ_lt above)
      · rw [same] at member
        rcases List.mem_cons.mp member with isNew | isOld
        · exact .inl (by omega)
        · exact .inr isOld
    have fresh := registry.fresh old
    exact ⟨fresh.query, fresh.result, fresh.toRemove, fresh.log⟩

theorem Registry.finish {query : RegisteredQuery}
    (registry : Registry world (.collectDeposit query :: frames)) (bank : Bank) :
    Registry ({ world with bank := bank }.saveQuery query) frames := by
  have same : collecting (.collectDeposit query :: frames) = query.id :: collecting frames :=
    rfl
  obtain ⟨apart, distinct⟩ := List.nodup_cons.mp (same ▸ registry.distinct)
  have bounded := registry.bounded
  rw [same] at bounded
  refine ⟨World.Indexed.saveQuery registry.indexed query, distinct,
    fun id member => bounded id (List.mem_cons_of_mem _ member), ?_⟩
  intro id unused
  have fresh : Fresh world id := registry.fresh
    (unused.imp_right fun member => same ▸ List.mem_cons_of_mem _ member)
  have paid : Fresh { world with bank := bank } id :=
    ⟨fresh.query, fresh.result, fresh.toRemove, fresh.log⟩
  apply paid.saveQuery
  rcases unused with above | member
  · exact ((bounded query.id List.mem_cons_self).trans_lt above).ne'
  · exact ne_of_mem_of_not_mem member apart

theorem Registry.effect (registry : Registry world frames)
    {msg : Msg} {frame : Option Frame}
    (effect : Effect environment msg world frame final) :
    Registry final (frame.toList ++ frames) := by
  cases effect with
  | register query isNext => exact registry.begin isNext
  | save query changed found similar =>
      refine registry.write found rfl (World.Indexed.saveQuery registry.indexed changed) ?_
      intro other different fresh
      exact fresh.saveQuery (similar.id ▸ different)
  | rekey query changed found sameId =>
      refine registry.write found rfl (World.Indexed.saveQuery registry.indexed changed) ?_
      intro other different fresh
      exact (fresh.saveQuery (sameId ▸ different)).record different
  | remove query found recipient =>
      have removed : Registry (world.removeQuery query) frames := by
        refine registry.write found ?_ (World.Indexed.removeQuery registry.indexed query) ?_
        · unfold World.removeQuery
          split <;> rfl
        · intro other different fresh
          exact fresh.removeQuery different
      exact removed.enter rfl
  | store query result callback found =>
      have stored : Registry (saveKVQueryResult environment world query result) frames := by
        refine registry.write found rfl (World.Indexed.saveQuery registry.indexed _) ?_
        intro other different fresh
        exact fresh.saveKVQueryResult different
      cases callback with
      | false => exact stored
      | true => exact stored.enter rfl
  | callback query call found => exact registry.enter rfl
  | configure params =>
      exact ⟨registry.indexed, registry.distinct, registry.bounded, fun unused =>
        let fresh := registry.fresh unused
        ⟨fresh.query, fresh.result, fresh.toRemove, fresh.log⟩⟩
  | nothing => exact registry

theorem Registry.closing {frame : Frame} (registry : Registry world (frame :: frames))
    (closing : Closing world frame final) : Registry final frames := by
  cases closing with
  | execution => exact registry.leave rfl
  | kvCallback owner queryId => exact registry.leave rfl
  | pay deposit recipient bank =>
      have left := registry.leave rfl
      exact ⟨left.indexed, left.distinct, left.bounded, fun unused =>
        let fresh := left.fresh unused
        ⟨fresh.query, fresh.result, fresh.toRemove, fresh.log⟩⟩
  | register query bank => exact registry.finish bank
  | deliver query call blockHeight found =>
      have left := registry.leave rfl
      have isId := left.indexed found
      refine left.write found rfl (World.Indexed.saveQuery left.indexed _) ?_
      intro other different fresh
      have recorded : Fresh (world.record (.delivered call)) other := fresh.record different
      have marked : Fresh ((world.record (.delivered call)).saveTransactionAsProcessed
          call.queryId call.txHash) other :=
        ⟨recorded.query, recorded.result, recorded.toRemove, recorded.log⟩
      apply marked.saveQuery
      rw [isId]
      exact different

end Identifiers

section Cleanup

variable {world : World}

/-- A step of the clean-up forgets hashes and marks, and nothing else. -/
structure Cleans (world final : World) : Prop where
  queries : final.queries = world.queries
  results : final.results = world.results
  log : final.log = world.log
  last : final.lastRegisteredQueryKey = world.lastRegisteredQueryKey
  toRemove : ∀ {id}, world.txQueriesToRemove.get? id = none →
    final.txQueriesToRemove.get? id = none
  submitted : ∀ {id txHash}, world.txQueriesToRemove.get? id = none →
    final.submittedTxs.get? (toLex (id, txHash)) =
      world.submittedTxs.get? (toLex (id, txHash))

theorem Cleans.refl (world : World) : Cleans world world :=
  ⟨rfl, rfl, rfl, rfl, id, fun _ => rfl⟩

theorem Cleans.trans {first second third : World} (left : Cleans first second)
    (right : Cleans second third) : Cleans first third where
  queries := right.queries.trans left.queries
  results := right.results.trans left.results
  log := right.log.trans left.log
  last := right.last.trans left.last
  toRemove unmarked := right.toRemove (left.toRemove unmarked)
  submitted unmarked := (right.submitted (left.toRemove unmarked)).trans (left.submitted unmarked)

theorem get?_foldl_delete_of_ne {id other : Nat} (different : other ≠ id) {txHash : Bytes}
    (hashes : List Bytes) (submittedTxs : SortedStore (Nat ×ₗ Bytes) Unit) :
    (hashes.foldl (fun store gone => store.delete (toLex (id, gone))) submittedTxs).get?
        (toLex (other, txHash)) =
      submittedTxs.get? (toLex (other, txHash)) := by
  induction hashes generalizing submittedTxs with
  | nil => rfl
  | cons gone rest ih =>
      rw [List.foldl_cons, ih]
      apply SortedStore.get?_delete_of_ne
      intro same
      exact different (congrArg (fun key => (ofLex key).1) same)

theorem applyRemoval_cleans {removal : TxQueryToRemove} {mark : Unit}
    (marked : world.txQueriesToRemove.get? removal.id = some mark) :
    Cleans world (world.applyRemoval removal) where
  queries := rfl
  results := rfl
  log := rfl
  last := rfl
  toRemove := by
    intro id unmarked
    unfold World.applyRemoval
    dsimp only
    split
    · rw [SortedStore.get?_delete]
      split
      · rfl
      · exact unmarked
    · exact unmarked
  submitted := by
    intro id txHash unmarked
    apply get?_foldl_delete_of_ne
    intro same
    rw [same, marked] at unmarked
    cases unmarked

theorem queriesToRemove_ids (world : World) (limited : Bool) (ids : List Nat) (limit : Nat) :
    (world.queriesToRemove limited ids limit).map TxQueryToRemove.id <+: ids := by
  induction ids generalizing limit with
  | nil => exact List.prefix_refl _
  | cons id rest ih =>
      have isId : (world.calculateTxQueryRemoval id limit).id = id := by
        unfold World.calculateTxQueryRemoval
        dsimp only
        split <;> rfl
      unfold World.queriesToRemove
      dsimp only
      split
      · rw [List.map_singleton, isId]
        exact List.prefix_append [id] rest
      · rw [List.map_cons, isId]
        exact (List.prefix_cons_inj id).mpr (ih _)

theorem foldl_applyRemoval_cleans {removals : List TxQueryToRemove}
    (distinct : (removals.map TxQueryToRemove.id).Nodup)
    (marked : ∀ removal ∈ removals, ∃ mark, world.txQueriesToRemove.get? removal.id = some mark) :
    Cleans world (removals.foldl World.applyRemoval world) := by
  induction removals generalizing world with
  | nil => exact Cleans.refl world
  | cons removal rest ih =>
      obtain ⟨apart, distinct⟩ := List.nodup_cons.mp distinct
      obtain ⟨mark, isMarked⟩ := marked removal List.mem_cons_self
      refine (applyRemoval_cleans isMarked).trans (ih distinct ?_)
      intro other member
      obtain ⟨otherMark, isOther⟩ := marked other (List.mem_cons_of_mem _ member)
      have different : other.id ≠ removal.id :=
        ne_of_mem_of_not_mem (List.mem_map_of_mem member) apart
      refine ⟨otherMark, ?_⟩
      unfold World.applyRemoval
      dsimp only
      split
      · exact (world.txQueriesToRemove.get?_delete_of_ne different).trans isOther
      · exact isOther

theorem txQueriesCleanup_cleans : Cleans world world.txQueriesCleanup := by
  have isPrefix : (world.getTxQueriesToRemove world.params.txQueryRemovalLimit) <+:
      world.txQueriesToRemove.entries.map Prod.fst := by
    unfold World.getTxQueriesToRemove
    dsimp only
    split
    · exact List.prefix_refl _
    · exact List.take_prefix _ _
  have ids := (queriesToRemove_ids world (world.params.txQueryRemovalLimit ≠ 0) _
    world.params.txQueryRemovalLimit).trans isPrefix
  have nodup : (world.txQueriesToRemove.entries.map Prod.fst).Nodup :=
    List.pairwise_map.mpr (world.txQueriesToRemove.increasing.imp ne_of_lt)
  apply foldl_applyRemoval_cleans (nodup.sublist ids.sublist)
  intro removal member
  obtain ⟨⟨id, mark⟩, isEntry, same⟩ :=
    List.mem_map.mp (ids.subset (List.mem_map_of_mem member))
  exact ⟨mark, same ▸ (world.txQueriesToRemove.mem_entries_iff id mark).mp isEntry⟩

theorem Registry.cleanup {frames : List Frame} (registry : Registry world frames) :
    Registry world.txQueriesCleanup frames := by
  have cleans : Cleans world world.txQueriesCleanup := txQueriesCleanup_cleans
  refine ⟨?_, registry.distinct, cleans.last ▸ registry.bounded, ?_⟩
  · intro id query found
    rw [cleans.queries] at found
    exact registry.indexed found
  · intro id unused
    rw [cleans.last] at unused
    have fresh := registry.fresh unused
    exact ⟨cleans.queries ▸ fresh.query, cleans.results ▸ fresh.result,
      cleans.toRemove fresh.toRemove, cleans.log ▸ fresh.log⟩

end Cleanup

theorem registry_initial (authority : String) (params : Params) (bank : Bank) :
    Registry (initial authority params bank).world [] where
  indexed found := nomatch found
  distinct := List.nodup_nil
  bounded _ member := nomatch member
  fresh _ := ⟨rfl, rfl, rfl, fun _ member => nomatch member⟩

theorem Registry.setBank {world : World} {frames : List Frame} (registry : Registry world frames)
    (bank : Bank) : Registry { world with bank := bank } frames :=
  ⟨registry.indexed, registry.distinct, registry.bounded, fun unused =>
    let fresh := registry.fresh unused
    ⟨fresh.query, fresh.result, fresh.toRemove, fresh.log⟩⟩

/-- What the parts of messages, the bank and the end of a block keep, of a world and the
calls under way in it. -/
structure Maintained (invariant : World → List Frame → Prop) (allowed : State → Step → Prop) :
    Prop where
  execute : ∀ {world frames}, invariant world frames → invariant world (.execution :: frames)
  handle : ∀ {state : State} {environment msg frame final},
    invariant state.world state.frames → allowed state (.message environment msg) →
    msg.handle environment state.world = .ok (frame, final) →
    invariant final (frame.toList ++ state.frames)
  finish : ∀ {world final frame frames}, invariant world (frame :: frames) →
    frame.finish world = .ok final → invariant final frames
  setBank : ∀ {state : State} {bank}, invariant state.world state.frames →
    allowed state (.setBank bank) → invariant { state.world with bank := bank } state.frames
  cleanup : ∀ {world frames}, invariant world frames → invariant world.txQueriesCleanup frames

theorem Maintained.step {invariant : World → List Frame → Prop} {allowed : State → Step → Prop}
    (maintained : Maintained invariant allowed) {state : State} {action : Step}
    (keeps : Nested.Keeps invariant state.world state.stack) (permitted : allowed state action) :
    Nested.Keeps invariant (step state action).world (step state action).stack := by
  have now := Nested.Keeps.now keeps
  cases action with
  | execute => exact keeps.enter (maintained.execute now)
  | message environment msg =>
      unfold InterchainQueries.step
      dsimp only
      split
      · exact keeps
      · rename_i world handled
        exact keeps.update (maintained.handle now permitted handled)
      · rename_i frame world handled
        exact keeps.enter (maintained.handle now permitted handled)
  | finish =>
      unfold InterchainQueries.step
      dsimp only
      split
      · exact keeps
      · rename_i frame snapshot rest isStack
        rw [Nested.frames, isStack] at now
        split
        · exact keeps.revert
        · rename_i world finished
          apply keeps.leave
          rw [Nested.frames, isStack]
          exact maintained.finish now finished
  | fail => exact keeps.revert
  | setBank bank => exact keeps.update (maintained.setBank now permitted)
  | endBlock =>
      unfold InterchainQueries.step
      dsimp only
      split
      · exact keeps.update (maintained.cleanup now)
      · exact keeps

variable {steps : List Step}

theorem Maintained.run {invariant : World → List Frame → Prop} {allowed : State → Step → Prop}
    (maintained : Maintained invariant allowed) {start : State} (idle : start.stack = [])
    (holds : invariant start.world [])
    (permitted : Machine.Allowed InterchainQueries.step allowed start steps) :
    invariant (Machine.run InterchainQueries.step start steps).world
      (Machine.run InterchainQueries.step start steps).frames := by
  have kept : Nested.Keeps invariant start.world start.stack := by
    rw [idle]
    exact holds
  have keeps := @Machine.Allowed.invariant _ _ InterchainQueries.step allowed
    (fun state => Nested.Keeps invariant state.world state.stack)
    (fun _ _ kept allowed => maintained.step kept allowed) _ _ kept permitted
  exact keeps.now

/-- What messages, their endings, the bank and the end of a block keep, of a world and the
calls under way in it, whatever the bank does. -/
structure Preserved (invariant : World → List Frame → Prop) (allowed : State → Step → Prop) :
    Prop where
  registry : ∀ {world frames}, invariant world frames → Registry world frames
  execute : ∀ {world frames}, invariant world frames → invariant world (.execution :: frames)
  effect : ∀ {state : State} {environment msg frame final},
    invariant state.world state.frames → allowed state (.message environment msg) →
    Effect environment msg state.world frame final →
    invariant final (frame.toList ++ state.frames)
  closing : ∀ {world final frame frames}, invariant world (frame :: frames) →
    Closing world frame final → invariant final frames
  setBank : ∀ {world frames} (bank : Bank), invariant world frames →
    invariant { world with bank := bank } frames
  cleanup : ∀ {world frames}, invariant world frames → invariant world.txQueriesCleanup frames

theorem Preserved.maintained {invariant : World → List Frame → Prop}
    {allowed : State → Step → Prop} (preserved : Preserved invariant allowed) :
    Maintained invariant allowed where
  execute := preserved.execute
  handle now permitted handled := preserved.effect now permitted
    (Msg.handle_effect (preserved.registry now).indexed handled)
  finish now finished := preserved.closing now (Frame.finish_closing finished)
  setBank now _ := preserved.setBank _ now
  cleanup := preserved.cleanup

theorem Preserved.run {invariant : World → List Frame → Prop} {allowed : State → Step → Prop}
    (preserved : Preserved invariant allowed) {authority : String} {params : Params}
    {bank : Bank} (start : invariant (initial authority params bank).world [])
    (permitted : Machine.Allowed InterchainQueries.step allowed (initial authority params bank)
      steps) :
    invariant (Machine.run InterchainQueries.step (initial authority params bank) steps).world
      (Machine.run InterchainQueries.step (initial authority params bank) steps).frames :=
  preserved.maintained.run rfl start permitted

theorem registry_preserved : Preserved Registry fun _ _ => True where
  registry := id
  execute registry := registry.enter rfl
  effect registry _ effect := registry.effect effect
  closing registry closing := registry.closing closing
  setBank bank registry := registry.setBank bank
  cleanup registry := registry.cleanup

theorem run_registry (authority : String) (params : Params) (bank : Bank) (steps : List Step) :
    Registry (Machine.run step (initial authority params bank) steps).world
      (Machine.run step (initial authority params bank) steps).frames :=
  registry_preserved.run (registry_initial authority params bank)
    (Machine.allowed_of_forall fun _ _ => trivial)

def agreeable : Environment where
  blockHeight := 7
  isAddress _ := true
  hasContractInfo _ := true
  getConnection _ := some "07-tendermint-0"
  connectionConsensusState _ _ := .ok []
  getClientState _ := some []
  convertProofs _ := some .exist
  verifyMembership _ _ _ _ _ := true
  verifyNonMembership _ _ _ _ := true
  isTransactionsFilter _ _ := true
  unpackHeader _ := some (.tendermint ⟨1, 5⟩)
  verifyHeaders _ _ _ := true
  verifyTransaction _ _ _ := true
  txHash data := data

def freeParams : Params := ⟨100, SortedStore.empty, 10, 32, 32⟩

def emptyBank : Bank where
  balance _ _ := 0
  supply _ := 0
  blockedAddr address := address = Dex.moduleName
  moduleBlocked := Dex.moduleName_blocked

def start : State := initial "gov" freeParams emptyBank

def registerOf (queryType : QueryType) : Step :=
  .message agreeable (.registerInterchainQuery
    ⟨"owner", some queryType, [⟨"bank", [1]⟩], "[]", "connection-0", 5⟩)

end Neutron.InterchainQueries
