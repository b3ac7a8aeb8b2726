import Mathlib.Logic.Function.Iterate
import Neutron.InterchainQueries.Registry

namespace Neutron.InterchainQueries

open Library

def World.Marked (world : World) (id : Nat) : Prop := (world.txQueriesToRemove.get? id).isSome

def World.hashesOf (world : World) (id : Nat) : List Bytes :=
  (world.submittedTxs.iterate fun key => (ofLex key).1 = id).map fun entry => (ofLex entry.1).2

def World.forgotten (world after : World) : List (Nat ×ₗ Bytes) :=
  (world.submittedTxs.entries.map Prod.fst).filter fun key =>
    (after.submittedTxs.get? key).isNone

structure CleanedUp (world after : World) : Prop where
  elsewhere : after =
    { world with
      submittedTxs := after.submittedTxs
      txQueriesToRemove := after.txQueriesToRemove }
  bounded : world.params.txQueryRemovalLimit ≠ 0 →
    (world.forgotten after).length ≤ world.params.txQueryRemovalLimit
  unlimited : world.params.txQueryRemovalLimit = 0 → ∀ id, world.Marked id →
    ∀ txHash, after.submittedTxs.get? (toLex (id, txHash)) = none
  hashes : ∀ id txHash,
    after.submittedTxs.get? (toLex (id, txHash)) =
        world.submittedTxs.get? (toLex (id, txHash)) ∨
      after.submittedTxs.get? (toLex (id, txHash)) = none ∧ world.Marked id
  marks : ∀ id, after.txQueriesToRemove.get? id = world.txQueriesToRemove.get? id ∨
    after.txQueriesToRemove.get? id = none ∧
      ∀ txHash, after.submittedTxs.get? (toLex (id, txHash)) = none
  progress : (∃ id, world.Marked id) →
    (∃ id, world.Marked id ∧ ¬ after.Marked id) ∨ world.forgotten after ≠ []

section Removals

variable {world : World}

theorem mem_hashesOf_iff (id : Nat) (txHash : Bytes) :
    txHash ∈ world.hashesOf id ↔
      (world.submittedTxs.get? (toLex (id, txHash))).isSome := by
  unfold World.hashesOf
  rw [List.mem_map, Option.isSome_iff_exists]
  constructor
  · rintro ⟨⟨key, mark⟩, member, rfl⟩
    obtain ⟨found, isId⟩ := (world.submittedTxs.mem_iterate_iff _ key mark).mp member
    rw [decide_eq_true_eq] at isId
    rw [← isId]
    exact ⟨mark, found⟩
  · rintro ⟨mark, found⟩
    refine ⟨(toLex (id, txHash), mark), ?_, rfl⟩
    exact (world.submittedTxs.mem_iterate_iff _ _ mark).mpr ⟨found, decide_eq_true rfl⟩

/-- A part of a query's hashes, with the whole of them when the query is done. -/
structure TxQueryToRemove.Of (removal : TxQueryToRemove) (world : World) : Prop where
  stored : removal.hashes ⊆ world.hashesOf removal.id
  complete : removal.completeRemoval → removal.hashes = world.hashesOf removal.id
  useful : removal.completeRemoval ∨ removal.hashes ≠ []

theorem World.calculateTxQueryRemoval_of (world : World) (id limit : Nat) :
    (world.calculateTxQueryRemoval id limit).Of world ∧
      (world.calculateTxQueryRemoval id limit).id = id ∧
      (limit ≠ 0 → (world.calculateTxQueryRemoval id limit).hashes.length ≤ limit) ∧
      (limit = 0 → (world.calculateTxQueryRemoval id limit).completeRemoval) := by
  have isRemoval : world.calculateTxQueryRemoval id limit =
      if limit ≠ 0 ∧ limit ≤ (world.hashesOf id).length then
        ⟨id, (world.hashesOf id).take limit, false⟩
      else ⟨id, world.hashesOf id, true⟩ := rfl
  rw [isRemoval]
  split
  · rename_i cut
    refine ⟨⟨List.take_subset _ _, fun impossible => (nomatch impossible), .inr ?_⟩, rfl,
      fun _ => List.length_take_le _ _, fun none => absurd none cut.1⟩
    intro empty
    have length := congrArg List.length empty
    rw [List.length_take, List.length_nil] at length
    omega
  · rename_i whole
    refine ⟨⟨List.Subset.refl _, fun _ => rfl, .inl rfl⟩, rfl, fun limited => ?_, fun _ => rfl⟩
    by_contra above
    exact whole ⟨limited, (Nat.not_le.mp above).le⟩

theorem queriesToRemove_of (limited : Bool) (ids : List Nat) (limit : Nat) :
    ∀ removal ∈ world.queriesToRemove limited ids limit, removal.Of world := by
  induction ids generalizing limit with
  | nil => exact fun _ member => nomatch member
  | cons id rest ih =>
      have first := (world.calculateTxQueryRemoval_of id limit).1
      intro removal member
      unfold World.queriesToRemove at member
      dsimp only at member
      split at member
      · rw [List.mem_singleton.mp member]
        exact first
      · rcases List.mem_cons.mp member with isFirst | later
        · rw [isFirst]
          exact first
        · exact ih _ removal later

theorem queriesToRemove_length (ids : List Nat) {limit : Nat} (positive : limit ≠ 0) :
    ((world.queriesToRemove true ids limit).map fun removal => removal.hashes.length).sum ≤
      limit := by
  induction ids generalizing limit with
  | nil => exact Nat.zero_le _
  | cons id rest ih =>
      have first := (world.calculateTxQueryRemoval_of id limit).2.2.1 positive
      unfold World.queriesToRemove
      dsimp only
      split
      · rw [List.map_singleton, List.sum_singleton]
        exact first
      · rename_i goesOn
        have left := @ih (limit - (world.calculateTxQueryRemoval id limit).hashes.length)
          fun none => goesOn ⟨rfl, none⟩
        rw [List.map_cons, List.sum_cons, if_pos rfl]
        omega

theorem queriesToRemove_unlimited (ids : List Nat) :
    (world.queriesToRemove false ids 0).map TxQueryToRemove.id = ids ∧
      ∀ removal ∈ world.queriesToRemove false ids 0, removal.completeRemoval := by
  induction ids with
  | nil => exact ⟨rfl, fun _ member => nomatch member⟩
  | cons id rest ih =>
      obtain ⟨_, isId, _, complete⟩ := world.calculateTxQueryRemoval_of id 0
      have unfolded : world.queriesToRemove false (id :: rest) 0 =
          world.calculateTxQueryRemoval id 0 :: world.queriesToRemove false rest 0 := by
        rw [World.queriesToRemove]
        simp
      rw [unfolded, List.map_cons, isId, ih.1]
      exact ⟨rfl, List.forall_mem_cons.mpr ⟨complete rfl, ih.2⟩⟩

theorem queriesToRemove_ne_nil (limited : Bool) {ids : List Nat} (some : ids ≠ []) (limit : Nat) :
    world.queriesToRemove limited ids limit ≠ [] := by
  cases ids with
  | nil => exact absurd rfl some
  | cons id rest =>
      unfold World.queriesToRemove
      dsimp only
      split <;> exact List.cons_ne_nil _ _

theorem get?_foldl_delete (id : Nat) (hashes : List Bytes)
    (submittedTxs : SortedStore (Nat ×ₗ Bytes) Unit) (txHash : Bytes) :
    (hashes.foldl (fun store gone => store.delete (toLex (id, gone))) submittedTxs).get?
        (toLex (id, txHash)) =
      if txHash ∈ hashes then none else submittedTxs.get? (toLex (id, txHash)) := by
  induction hashes generalizing submittedTxs with
  | nil => simp
  | cons gone rest ih =>
      rw [List.foldl_cons, ih, SortedStore.get?_delete]
      by_cases same : txHash = gone
      · simp [same]
      · have differs : toLex (id, txHash) ≠ toLex (id, gone) := fun equal =>
          same (congrArg (fun key => (ofLex key).2) equal)
        simp [same, differs]

theorem submittedTxs_applyRemoval (removal : TxQueryToRemove) (id : Nat) (txHash : Bytes) :
    (world.applyRemoval removal).submittedTxs.get? (toLex (id, txHash)) =
      if id = removal.id ∧ txHash ∈ removal.hashes then none
      else world.submittedTxs.get? (toLex (id, txHash)) := by
  by_cases same : id = removal.id
  · subst same
    simp only [true_and]
    exact get?_foldl_delete removal.id removal.hashes world.submittedTxs txHash
  · rw [if_neg fun both => same both.1]
    exact get?_foldl_delete_of_ne same removal.hashes world.submittedTxs

theorem txQueriesToRemove_applyRemoval (removal : TxQueryToRemove) (id : Nat) :
    (world.applyRemoval removal).txQueriesToRemove.get? id =
      if id = removal.id ∧ removal.completeRemoval then none
      else world.txQueriesToRemove.get? id := by
  unfold World.applyRemoval
  dsimp only
  by_cases complete : removal.completeRemoval
  · rw [if_pos complete, SortedStore.get?_delete]
    simp [complete]
  · rw [if_neg complete]
    simp [complete]

theorem foldl_applyRemoval_get? (removals : List TxQueryToRemove) (world : World) :
    (∀ id txHash, (removals.foldl World.applyRemoval world).submittedTxs.get?
        (toLex (id, txHash)) =
      if removals.any fun removal => decide (id = removal.id ∧ txHash ∈ removal.hashes) then
        none
      else world.submittedTxs.get? (toLex (id, txHash))) ∧
    ∀ id, (removals.foldl World.applyRemoval world).txQueriesToRemove.get? id =
      if removals.any fun removal => decide (id = removal.id) && removal.completeRemoval then
        none
      else world.txQueriesToRemove.get? id := by
  induction removals generalizing world with
  | nil => simp
  | cons removal rest ih =>
      obtain ⟨hashes, marks⟩ := ih (world.applyRemoval removal)
      refine ⟨fun id txHash => ?_, fun id => ?_⟩
      · rw [List.foldl_cons, hashes, submittedTxs_applyRemoval, List.any_cons]
        by_cases now : id = removal.id ∧ txHash ∈ removal.hashes <;> simp [now]
      · rw [List.foldl_cons, marks, txQueriesToRemove_applyRemoval, List.any_cons]
        by_cases now : id = removal.id ∧ removal.completeRemoval <;> simp [now]

theorem foldl_applyRemoval_elsewhere (removals : List TxQueryToRemove) (world : World) :
    removals.foldl World.applyRemoval world =
      { world with
        submittedTxs := (removals.foldl World.applyRemoval world).submittedTxs
        txQueriesToRemove := (removals.foldl World.applyRemoval world).txQueriesToRemove } := by
  induction removals generalizing world with
  | nil => rfl
  | cons removal rest ih =>
      rw [List.foldl_cons, ih]
      rfl

end Removals

def World.removals (world : World) : List TxQueryToRemove :=
  world.queriesToRemove (world.params.txQueryRemovalLimit ≠ 0)
    (world.getTxQueriesToRemove world.params.txQueryRemovalLimit)
    world.params.txQueryRemovalLimit

section Cleanup

variable {world : World}

theorem getTxQueriesToRemove_isPrefix (limit : Nat) :
    world.getTxQueriesToRemove limit <+: world.txQueriesToRemove.entries.map Prod.fst := by
  unfold World.getTxQueriesToRemove
  dsimp only
  split
  · exact List.prefix_refl _
  · exact List.take_prefix _ _

theorem removals_ids :
    world.removals.map TxQueryToRemove.id <+: world.txQueriesToRemove.entries.map Prod.fst :=
  (queriesToRemove_ids world _ _ _).trans (getTxQueriesToRemove_isPrefix _)

theorem marked_of_mem_removals {removal : TxQueryToRemove} (member : removal ∈ world.removals) :
    world.Marked removal.id :=
  (world.txQueriesToRemove.mem_keys_iff _).mp
    (removals_ids.subset (List.mem_map_of_mem member))

theorem submittedTxs_txQueriesCleanup (id : Nat) (txHash : Bytes) :
    world.txQueriesCleanup.submittedTxs.get? (toLex (id, txHash)) =
      if world.removals.any fun removal => decide (id = removal.id ∧ txHash ∈ removal.hashes)
      then none else world.submittedTxs.get? (toLex (id, txHash)) :=
  (foldl_applyRemoval_get? world.removals world).1 id txHash

theorem txQueriesToRemove_txQueriesCleanup (id : Nat) :
    world.txQueriesCleanup.txQueriesToRemove.get? id =
      if world.removals.any fun removal => decide (id = removal.id) && removal.completeRemoval
      then none else world.txQueriesToRemove.get? id :=
  (foldl_applyRemoval_get? world.removals world).2 id

theorem removed_of_mem {removal : TxQueryToRemove} (member : removal ∈ world.removals)
    {txHash : Bytes} (isHash : txHash ∈ removal.hashes) :
    world.txQueriesCleanup.submittedTxs.get? (toLex (removal.id, txHash)) = none := by
  rw [submittedTxs_txQueriesCleanup, if_pos]
  exact List.any_eq_true.mpr ⟨removal, member, decide_eq_true ⟨rfl, isHash⟩⟩

theorem removed_of_complete {removal : TxQueryToRemove} (member : removal ∈ world.removals)
    (complete : removal.completeRemoval) (txHash : Bytes) :
    world.txQueriesCleanup.submittedTxs.get? (toLex (removal.id, txHash)) = none := by
  have isAll := (queriesToRemove_of _ _ _ removal member).complete complete
  by_cases isHash : txHash ∈ removal.hashes
  · exact removed_of_mem member isHash
  · rw [isAll, mem_hashesOf_iff, Option.not_isSome_iff_eq_none] at isHash
    rw [submittedTxs_txQueriesCleanup, isHash, ite_self]

theorem length_forgotten_le :
    (world.forgotten world.txQueriesCleanup).length ≤
      (world.removals.map fun removal => removal.hashes.length).sum := by
  have listed : world.forgotten world.txQueriesCleanup ⊆ world.removals.flatMap fun removal =>
      removal.hashes.map fun txHash => toLex (removal.id, txHash) := by
    intro key member
    obtain ⟨stored, gone⟩ := List.mem_filter.mp member
    rw [SortedStore.mem_keys_iff] at stored
    obtain ⟨id, txHash⟩ := key
    change (world.txQueriesCleanup.submittedTxs.get? (toLex (id, txHash))).isNone at gone
    rw [submittedTxs_txQueriesCleanup] at gone
    split at gone
    · rename_i removed
      obtain ⟨removal, isRemoval, isKey⟩ := List.any_eq_true.mp removed
      obtain ⟨rfl, isHash⟩ := of_decide_eq_true isKey
      exact List.mem_flatMap.mpr ⟨removal, isRemoval, List.mem_map.mpr ⟨txHash, isHash, rfl⟩⟩
    · rw [Option.isNone_iff_eq_none] at gone
      exact absurd stored (by rw [show (id, txHash) = toLex (id, txHash) from rfl, gone]; simp)
  have distinct := world.submittedTxs.nodup_keys.filter fun key =>
    (world.txQueriesCleanup.submittedTxs.get? key).isNone
  have bound := (List.subperm_of_subset distinct listed).length_le
  rw [List.length_flatMap] at bound
  unfold World.forgotten
  simpa using bound

theorem removals_ne_nil (marked : ∃ id, world.Marked id) : world.removals ≠ [] := by
  obtain ⟨id, isMarked⟩ := marked
  have member := (world.txQueriesToRemove.mem_keys_iff id).mpr isMarked
  apply queriesToRemove_ne_nil
  unfold World.getTxQueriesToRemove
  dsimp only
  split
  · exact List.ne_nil_of_mem member
  · rename_i limited
    intro empty
    rcases List.take_eq_nil_iff.mp empty with none | none
    · exact limited none
    · exact List.ne_nil_of_mem member none

theorem txQueriesCleanup_cleanedUp (world : World) :
    CleanedUp world world.txQueriesCleanup where
  elsewhere := foldl_applyRemoval_elsewhere world.removals world
  bounded := by
    intro limited
    refine length_forgotten_le.trans ?_
    unfold World.removals
    rw [decide_eq_true limited]
    exact queriesToRemove_length _ limited
  unlimited := by
    intro unlimited id marked txHash
    have isRemovals : world.removals =
        world.queriesToRemove false (world.txQueriesToRemove.entries.map Prod.fst) 0 := by
      unfold World.removals World.getTxQueriesToRemove
      simp [unlimited]
    obtain ⟨ids, complete⟩ := @queriesToRemove_unlimited world
      (world.txQueriesToRemove.entries.map Prod.fst)
    rw [← isRemovals] at ids complete
    have member := (world.txQueriesToRemove.mem_keys_iff id).mpr marked
    rw [← ids] at member
    obtain ⟨removal, isRemoval, rfl⟩ := List.mem_map.mp member
    exact removed_of_complete isRemoval (complete removal isRemoval) txHash
  hashes := by
    intro id txHash
    rw [submittedTxs_txQueriesCleanup]
    split
    · rename_i removed
      obtain ⟨removal, isRemoval, isKey⟩ := List.any_eq_true.mp removed
      obtain ⟨rfl, _⟩ := of_decide_eq_true isKey
      exact .inr ⟨rfl, marked_of_mem_removals isRemoval⟩
    · exact .inl rfl
  marks := by
    intro id
    rw [txQueriesToRemove_txQueriesCleanup]
    split
    · rename_i removed
      obtain ⟨removal, isRemoval, isDone⟩ := List.any_eq_true.mp removed
      obtain ⟨isId, complete⟩ := Bool.and_eq_true_iff.mp isDone
      obtain rfl := of_decide_eq_true isId
      exact .inr ⟨rfl, removed_of_complete isRemoval complete⟩
    · exact .inl rfl
  progress := by
    intro marked
    obtain ⟨removal, isRemoval⟩ := List.exists_mem_of_ne_nil _ (removals_ne_nil marked)
    have isPart := queriesToRemove_of _ _ _ removal isRemoval
    rcases isPart.useful with complete | someHash
    · left
      refine ⟨removal.id, marked_of_mem_removals isRemoval, ?_⟩
      rw [World.Marked, txQueriesToRemove_txQueriesCleanup, if_pos]
      · exact Bool.false_ne_true
      · exact List.any_eq_true.mpr ⟨removal, isRemoval, by simp [complete]⟩
    · right
      obtain ⟨txHash, isHash⟩ := List.exists_mem_of_ne_nil _ someHash
      refine List.ne_nil_of_mem (a := toLex (removal.id, txHash)) (List.mem_filter.mpr ⟨?_, ?_⟩)
      · exact (world.submittedTxs.mem_keys_iff _).mpr
          ((mem_hashesOf_iff _ _).mp (isPart.stored isHash))
      · rw [removed_of_mem isRemoval isHash]
        rfl

end Cleanup

section Repeated

variable {world now after : World}

/-- Clean-ups on the way: what is no more marked is gone, and nothing else is. -/
structure CleaningUp (world now : World) : Prop where
  elsewhere : now =
    { world with
      submittedTxs := now.submittedTxs
      txQueriesToRemove := now.txQueriesToRemove }
  marked : ∀ id, now.Marked id → world.Marked id
  kept : ∀ id txHash, ¬ world.Marked id →
    now.submittedTxs.get? (toLex (id, txHash)) = world.submittedTxs.get? (toLex (id, txHash))
  done : ∀ id, world.Marked id → ¬ now.Marked id →
    ∀ txHash, now.submittedTxs.get? (toLex (id, txHash)) = none

theorem CleaningUp.refl (world : World) : CleaningUp world world :=
  ⟨rfl, fun _ marked => marked, fun _ _ _ => rfl, fun _ marked unmarked => absurd marked unmarked⟩

theorem CleanedUp.marked (cleaned : CleanedUp now after) {id : Nat} (marked : after.Marked id) :
    now.Marked id := by
  rcases cleaned.marks id with same | ⟨none, _⟩
  · rwa [World.Marked, ← same]
  · rw [World.Marked, none] at marked
    cases marked

theorem CleanedUp.stored (cleaned : CleanedUp now after) {key : Nat ×ₗ Bytes}
    (stored : (after.submittedTxs.get? key).isSome) : (now.submittedTxs.get? key).isSome := by
  obtain ⟨id, txHash⟩ := key
  rcases cleaned.hashes id txHash with same | ⟨none, _⟩
  · exact same ▸ stored
  · exact absurd stored (by rw [show (id, txHash) = toLex (id, txHash) from rfl, none]; simp)

theorem CleaningUp.step (cleaning : CleaningUp world now) (cleaned : CleanedUp now after) :
    CleaningUp world after where
  elsewhere := by
    rw [cleaned.elsewhere, cleaning.elsewhere]
  marked := fun id marked => cleaning.marked id (cleaned.marked marked)
  kept := by
    intro id txHash unmarked
    rcases cleaned.hashes id txHash with same | ⟨_, marked⟩
    · exact same.trans (cleaning.kept id txHash unmarked)
    · exact absurd (cleaning.marked id marked) unmarked
  done := by
    intro id marked unmarked txHash
    rcases cleaned.marks id with same | ⟨_, gone⟩
    · rw [World.Marked, same] at unmarked
      have gone := cleaning.done id marked unmarked txHash
      rcases cleaned.hashes id txHash with sameHash | ⟨none, _⟩
      · exact sameHash.trans gone
      · exact none
    · exact gone txHash

def World.leftToClean (world : World) : Nat :=
  world.submittedTxs.entries.length + world.txQueriesToRemove.entries.length

theorem CleanedUp.leftToClean_lt (cleaned : CleanedUp now after) (marked : ∃ id, now.Marked id) :
    after.leftToClean < now.leftToClean := by
  have fewerHashes := SortedStore.length_entries_le fun _ stored => cleaned.stored stored
  have fewerMarks := SortedStore.length_entries_le fun _ marked => cleaned.marked marked
  unfold World.leftToClean
  rcases cleaned.progress marked with ⟨id, isMarked, unmarked⟩ | forgotten
  · have fewer := SortedStore.length_entries_lt (fun _ marked => cleaned.marked marked)
      (Option.not_isSome_iff_eq_none.mp unmarked) isMarked
    omega
  · obtain ⟨key, member⟩ := List.exists_mem_of_ne_nil _ forgotten
    obtain ⟨stored, gone⟩ := List.mem_filter.mp member
    have fewer := SortedStore.length_entries_lt (fun _ stored => cleaned.stored stored)
      (Option.isNone_iff_eq_none.mp gone) ((now.submittedTxs.mem_keys_iff key).mp stored)
    omega

theorem exists_iterate_unmarked (world : World) :
    ∃ calls, ∀ id, ¬ (World.txQueriesCleanup^[calls] world).Marked id := by
  induction isLeft : world.leftToClean using Nat.strongRecOn generalizing world with
  | ind left ih =>
      by_cases marked : ∃ id, world.Marked id
      · have fewer := (txQueriesCleanup_cleanedUp world).leftToClean_lt marked
        obtain ⟨calls, unmarked⟩ := ih _ (isLeft ▸ fewer) world.txQueriesCleanup rfl
        exact ⟨calls + 1, unmarked⟩
      · exact ⟨0, not_exists.mp marked⟩

theorem iterate_cleaningUp (world : World) (calls : Nat) :
    CleaningUp world (World.txQueriesCleanup^[calls] world) := by
  induction calls with
  | zero => exact CleaningUp.refl world
  | succ calls ih =>
      rw [Function.iterate_succ_apply']
      exact ih.step (txQueriesCleanup_cleanedUp _)

theorem txQueriesCleanup_of_unmarked (unmarked : ∀ id, ¬ world.Marked id) :
    world.txQueriesCleanup = world := by
  have none : world.removals = [] :=
    List.eq_nil_iff_forall_not_mem.mpr fun removal member =>
      unmarked removal.id (marked_of_mem_removals member)
  change world.removals.foldl World.applyRemoval world = world
  rw [none]
  rfl

/-- A clean-up forgets no more than it may and always something; and enough of them forget
the marks and all hashes of marked queries, and nothing else. -/
theorem txQueriesCleanup_correct (world : World) :
    CleanedUp world world.txQueriesCleanup ∧
      ∃ calls, ∀ more, calls ≤ more → ∃ submittedTxs,
        World.txQueriesCleanup^[more] world =
          { world with submittedTxs := submittedTxs, txQueriesToRemove := SortedStore.empty } ∧
        ∀ id txHash, submittedTxs.get? (toLex (id, txHash)) =
          if (world.txQueriesToRemove.get? id).isSome then none
          else world.submittedTxs.get? (toLex (id, txHash)) := by
  refine ⟨txQueriesCleanup_cleanedUp world, ?_⟩
  obtain ⟨calls, unmarked⟩ := exists_iterate_unmarked world
  refine ⟨calls, fun more enough => ?_⟩
  have settled : World.txQueriesCleanup^[more] world = World.txQueriesCleanup^[calls] world := by
    rw [← Nat.sub_add_cancel enough, Function.iterate_add_apply]
    exact Function.iterate_fixed (txQueriesCleanup_of_unmarked unmarked) _
  have cleaning := iterate_cleaningUp world calls
  rw [settled]
  refine ⟨(World.txQueriesCleanup^[calls] world).submittedTxs, ?_, ?_⟩
  · have noMarks : (World.txQueriesCleanup^[calls] world).txQueriesToRemove =
        SortedStore.empty := by
      ext1 id
      rw [SortedStore.get?_empty]
      exact Option.not_isSome_iff_eq_none.mp (unmarked id)
    rw [← noMarks]
    exact cleaning.elsewhere
  · intro id txHash
    split
    · rename_i marked
      exact cleaning.done id marked (unmarked id) txHash
    · rename_i isUnmarked
      exact cleaning.kept id txHash isUnmarked

end Repeated

end Neutron.InterchainQueries
