import Mathlib.Data.List.Nodup
import Neutron.InterchainQueries.Registry

namespace Neutron.InterchainQueries

open Library
open Neutron.Dex (Bank)

def Event.txKey : Event → Option (Nat × Bytes)
  | .delivered call => some (call.queryId, call.txHash)
  | _ => none

def World.deliveries (world : World) : List (Nat × Bytes) := world.log.filterMap Event.txKey

def Frame.txKey : Frame → Option (Nat × Bytes)
  | .txCallback call _ => some (call.queryId, call.txHash)
  | _ => none

def pending (frames : List Frame) : List (Nat × Bytes) := frames.filterMap Frame.txKey

structure Once (world : World) (frames : List Frame) : Prop where
  registry : Registry world frames
  once : (pending frames ++ world.deliveries).Nodup
  marked : ∀ {key query}, key ∈ world.deliveries → world.queries.get? key.1 = some query →
    (world.submittedTxs.get? (toLex key)).isSome
  unmarked : ∀ {id query}, world.queries.get? id = some query →
    world.txQueriesToRemove.get? id = none

section Steps

variable {world final : World} {frames : List Frame}

theorem Fresh.not_mem_deliveries {key : Nat × Bytes} (fresh : Fresh world key.1) :
    key ∉ world.deliveries := by
  intro member
  obtain ⟨event, isEvent, isKey⟩ := List.mem_filterMap.mp member
  cases event with
  | stored query result => cases isKey
  | rekeyed queryId => cases isKey
  | delivered call =>
      cases isKey
      exact fresh.log _ isEvent rfl

theorem Once.keep (once : Once world frames) {after : List Frame}
    (registry : Registry final after) (samePending : pending after = pending frames)
    (sameDeliveries : final.deliveries = world.deliveries)
    (registered : ∀ {id query}, final.queries.get? id = some query →
      Fresh world id ∨ ∃ old, world.queries.get? id = some old)
    (submitted : ∀ {id txHash}, world.txQueriesToRemove.get? id = none →
      final.submittedTxs.get? (toLex (id, txHash)) =
        world.submittedTxs.get? (toLex (id, txHash)))
    (toRemove : ∀ {id query}, final.queries.get? id = some query →
      world.txQueriesToRemove.get? id = none → final.txQueriesToRemove.get? id = none) :
    Once final after where
  registry := registry
  once := by
    rw [samePending, sameDeliveries]
    exact once.once
  marked := by
    intro key query member found
    rw [sameDeliveries] at member
    rcases registered found with fresh | ⟨old, isOld⟩
    · exact absurd member fresh.not_mem_deliveries
    · rw [submitted (once.unmarked isOld)]
      exact once.marked member isOld
  unmarked := by
    intro id query found
    apply toRemove found
    rcases registered found with fresh | ⟨old, isOld⟩
    · exact fresh.toRemove
    · exact once.unmarked isOld

theorem registered_of_set {queries : SortedStore Nat RegisteredQuery} {key id : Nat}
    {query changed other : RegisteredQuery} (found : queries.get? key = some query)
    (isOther : (queries.set key changed).get? id = some other) :
    ∃ old, queries.get? id = some old := by
  rw [SortedStore.get?_set] at isOther
  split at isOther
  · rename_i same
    exact ⟨query, same ▸ found⟩
  · exact ⟨other, isOther⟩

theorem Once.remove (once : Once world frames) {query : RegisteredQuery}
    {after : List Frame} (registry : Registry (world.removeQuery query) after)
    (samePending : pending after = pending frames) :
    Once (world.removeQuery query) after := by
  have queries : (world.removeQuery query).queries = world.queries.delete query.id := by
    unfold World.removeQuery
    split <;> rfl
  have kept {id : Nat} {other : RegisteredQuery}
      (found : (world.removeQuery query).queries.get? id = some other) :
      id ≠ query.id ∧ world.queries.get? id = some other := by
    rw [queries, SortedStore.get?_delete] at found
    split at found
    · cases found
    · rename_i different
      exact ⟨different, found⟩
  refine once.keep registry samePending ?_ ?_ ?_ ?_
  · unfold World.removeQuery
    split <;> rfl
  · intro id other found
    exact .inr ⟨other, (kept found).2⟩
  · intro id txHash _
    unfold World.removeQuery
    split <;> rfl
  · intro id other found none
    unfold World.removeQuery
    split
    · exact none
    · exact (world.txQueriesToRemove.get?_set_of_ne () (kept found).1).trans none

theorem Once.call (once : Once world frames) {query : RegisteredQuery} {call : TxCallback}
    {blockHeight : Nat} (found : world.queries.get? call.queryId = some query)
    (unprocessed : world.submittedTxs.get? (toLex (call.queryId, call.txHash)) = none)
    (exclusive : (call.queryId, call.txHash) ∉ pending frames) :
    Once world (.txCallback call blockHeight :: frames) where
  registry := once.registry.enter rfl
  once := by
    refine List.nodup_cons.mpr ⟨?_, once.once⟩
    intro member
    rcases List.mem_append.mp member with isPending | isDelivered
    · exact exclusive isPending
    · have isMarked := once.marked isDelivered found
      rw [unprocessed] at isMarked
      cases isMarked
  marked := once.marked
  unmarked := once.unmarked

theorem Once.effect (once : Once world frames) {environment : Environment} {msg : Msg}
    {frame : Option Frame} (effect : Effect environment msg world frame final)
    (exclusive : ∀ key ∈ msg.txKey environment, key ∉ pending frames) :
    Once final (frame.toList ++ frames) := by
  have registry := once.registry.effect effect
  cases effect with
  | register query isNext =>
      exact once.keep registry rfl rfl (fun found => .inr ⟨_, found⟩) (fun _ => rfl)
        (fun _ none => none)
  | save query changed found similar =>
      exact once.keep registry rfl rfl
        (fun isOther => .inr (registered_of_set (similar.id ▸ found) isOther))
        (fun _ => rfl) (fun _ none => none)
  | rekey query changed found sameId =>
      exact once.keep registry rfl rfl
        (fun isOther => .inr (registered_of_set (sameId ▸ found) isOther))
        (fun _ => rfl) (fun _ none => none)
  | remove query found recipient => exact once.remove registry rfl
  | store query result callback found =>
      refine once.keep registry ?_ rfl ?_ (fun _ => rfl) (fun _ none => none)
      · cases callback <;> rfl
      · intro id other isOther
        have isWritten : (world.queries.set query.id _).get? id = some other := isOther
        exact .inr (registered_of_set found isWritten)
  | callback query call found submitted unprocessed =>
      exact once.call found unprocessed (exclusive _ submitted)
  | configure params =>
      exact once.keep registry rfl rfl (fun found => .inr ⟨_, found⟩) (fun _ => rfl)
        (fun _ none => none)
  | nothing => exact once

theorem Once.deliver {call : TxCallback} {blockHeight : Nat}
    (once : Once world (.txCallback call blockHeight :: frames))
    {query : RegisteredQuery} (found : world.queries.get? call.queryId = some query)
    (registry : Registry (((world.record (.delivered call)).saveTransactionAsProcessed
      call.queryId call.txHash).saveQuery
        { query with lastSubmittedResultLocalHeight := blockHeight }) frames) :
    Once (((world.record (.delivered call)).saveTransactionAsProcessed
      call.queryId call.txHash).saveQuery
        { query with lastSubmittedResultLocalHeight := blockHeight }) frames := by
  have registered {id : Nat} {other : RegisteredQuery}
      (isOther : (world.queries.set query.id
        { query with lastSubmittedResultLocalHeight := blockHeight }).get? id = some other) :
      ∃ old, world.queries.get? id = some old := by
    rw [once.registry.indexed found] at isOther
    exact registered_of_set found isOther
  refine ⟨registry, ?_, ?_, ?_⟩
  · have nodup : (((call.queryId, call.txHash) :: pending frames) ++ world.deliveries).Nodup :=
      once.once
    exact (List.perm_middle.nodup_iff).mpr nodup
  · intro key other member isOther
    obtain ⟨old, isOld⟩ := registered isOther
    change ((world.submittedTxs.set (toLex (call.queryId, call.txHash)) ()).get?
      (toLex key)).isSome
    rw [SortedStore.get?_set]
    split
    · rfl
    · rename_i different
      rcases List.mem_cons.mp member with isNew | isEarlier
      · exact absurd (congrArg toLex isNew) different
      · exact once.marked isEarlier isOld
  · intro id other isOther
    obtain ⟨old, isOld⟩ := registered isOther
    exact once.unmarked isOld

theorem Once.closing {frame : Frame} (once : Once world (frame :: frames))
    (closing : Closing world frame final) : Once final frames := by
  have registry := once.registry.closing closing
  cases closing with
  | execution =>
      exact once.keep registry rfl rfl (fun found => .inr ⟨_, found⟩) (fun _ => rfl)
        (fun _ none => none)
  | kvCallback owner queryId =>
      exact once.keep registry rfl rfl (fun found => .inr ⟨_, found⟩) (fun _ => rfl)
        (fun _ none => none)
  | pay deposit recipient bank =>
      exact once.keep registry rfl rfl (fun found => .inr ⟨_, found⟩) (fun _ => rfl)
        (fun _ none => none)
  | register query bank =>
      have fresh : Fresh world query.id := once.registry.fresh (.inr List.mem_cons_self)
      refine once.keep registry rfl rfl ?_ (fun _ => rfl) (fun _ none => none)
      intro id other isOther
      rw [World.saveQuery, SortedStore.get?_set] at isOther
      split at isOther
      · rename_i same
        exact .inl (same ▸ fresh)
      · exact .inr ⟨other, isOther⟩
  | deliver query call blockHeight found => exact once.deliver found registry

theorem Once.cleanup (once : Once world frames) : Once world.txQueriesCleanup frames := by
  have cleans : Cleans world world.txQueriesCleanup := txQueriesCleanup_cleans
  refine once.keep once.registry.cleanup rfl ?_ ?_ cleans.submitted ?_
  · rw [World.deliveries, cleans.log]
    rfl
  · intro id query found
    rw [cleans.queries] at found
    exact .inr ⟨query, found⟩
  · intro id query _ none
    exact cleans.toRemove none

end Steps

def Exclusive (state : State) : Step → Prop
  | .message environment msg =>
      ∀ key ∈ msg.txKey environment, key ∉ pending state.frames
  | _ => True

theorem once_preserved : Preserved Once Exclusive where
  registry once := once.registry
  execute once := once.keep (once.registry.enter rfl) rfl rfl (fun found => .inr ⟨_, found⟩)
    (fun _ => rfl) (fun _ none => none)
  effect once exclusive effect := once.effect effect exclusive
  closing once closing := once.closing closing
  setBank bank once := once.keep (once.registry.setBank bank) rfl rfl
    (fun found => .inr ⟨_, found⟩) (fun _ => rfl) (fun _ none => none)
  cleanup once := once.cleanup

/-- In every run in which no result is submitted while a callback for the same query and
transaction is under way, every callback takes effect at most once. -/
theorem txResult_delivered_once (authority : String) (params : Params) (bank : Bank)
    (steps : List Step)
    (exclusive : Machine.Allowed step Exclusive (initial authority params bank) steps)
    (queryId : Nat) (txHash : Bytes) :
    (Machine.run step (initial authority params bank) steps).world.deliveries.count
      (queryId, txHash) ≤ 1 := by
  have start : Once (initial authority params bank).world [] :=
    ⟨registry_initial authority params bank, List.nodup_nil,
      fun member => (nomatch member), fun found => (nomatch found)⟩
  have nodup := (once_preserved.run start exclusive).once
  exact List.nodup_iff_count_le_one.mp (List.nodup_append.mp nodup).2.1 (queryId, txHash)

section Examples

def submitTx : Step :=
  .message agreeable (.submitQueryResult
    ⟨"relayer", 1, some ⟨[], some ⟨[], [], some ⟨[9], []⟩⟩, 0, 0, false⟩⟩)

/-- From within the callback, the owner submits the result that it is called with. -/
theorem txResult_delivered_twice_nested :
    let steps := [registerOf .tx, .finish, submitTx, submitTx, .finish, .finish]
    (Machine.run step start steps).stack.length = 0 ∧
      (Machine.run step start steps).world.deliveries.count (1, [9]) = 2 := by
  decide +kernel

theorem txResult_delivered_once_resubmitted :
    let steps := [registerOf .tx, .finish, submitTx, .finish, submitTx]
    Machine.Allowed step Exclusive start steps ∧
      (Machine.run step start steps).world.deliveries.count (1, [9]) ≤ 1 := by
  intro steps
  have exclusive : Machine.Allowed step Exclusive start steps := by
    refine ⟨?_, trivial, ?_, trivial, ?_, trivial⟩
    · intro key member
      cases member
    · exact (by decide +kernel :
        ∀ key ∈ some (1, [9]), key ∉ pending (Machine.run step start [registerOf .tx,
          .finish]).frames)
    · exact (by decide +kernel :
        ∀ key ∈ some (1, [9]), key ∉ pending (Machine.run step start [registerOf .tx,
          .finish, submitTx, .finish]).frames)
  exact ⟨exclusive,
    txResult_delivered_once "gov" freeParams emptyBank steps exclusive 1 [9]⟩

end Examples

end Neutron.InterchainQueries
