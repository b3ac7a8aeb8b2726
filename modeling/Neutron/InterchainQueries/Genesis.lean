import Mathlib.Data.List.Induction
import Neutron.InterchainQueries.Delivery

namespace Neutron.InterchainQueries

open Library
open Neutron.Dex (Coins Bank)

structure GenesisState where
  params : Params
  registeredQueries : List RegisteredQuery

def exportGenesis (world : World) : GenesisState := ⟨world.params, world.queries.values⟩

def World.importQueries (world : World) (queries : List RegisteredQuery) : World :=
  queries.foldl
    (fun world elem => { world with lastRegisteredQueryKey := elem.id }.saveQuery elem) world

def initGenesis (world : World) (genState : GenesisState) : World :=
  let sorted := genState.registeredQueries.mergeSort fun left right => left.id ≤ right.id
  { world.importQueries sorted with params := genState.params }

def emptyWorld (authority : String) (bank : Bank) : World :=
  ⟨authority, ⟨0, SortedStore.empty, 0, 0, 0⟩, 0, SortedStore.empty, SortedStore.empty,
    SortedStore.empty, SortedStore.empty, bank, []⟩

structure Agrees (left right : World) : Prop where
  params : left.params = right.params
  queries : left.queries = right.queries
  results : left.results = right.results
  submittedTxs : left.submittedTxs = right.submittedTxs
  txQueriesToRemove : left.txQueriesToRemove = right.txQueriesToRemove
  lastRegisteredQueryKey : left.lastRegisteredQueryKey = right.lastRegisteredQueryKey

section Import

variable {world : World}

theorem importQueries_append_singleton (queries : List RegisteredQuery)
    (query : RegisteredQuery) :
    world.importQueries (queries ++ [query]) =
      { world.importQueries queries with lastRegisteredQueryKey := query.id }.saveQuery query :=
  List.foldl_concat ..

theorem importQueries_elsewhere (world : World) (queries : List RegisteredQuery) :
    world.importQueries queries =
      { world with
        queries := (world.importQueries queries).queries
        lastRegisteredQueryKey := (world.importQueries queries).lastRegisteredQueryKey } := by
  induction queries using List.reverseRecOn with
  | nil => rfl
  | append_singleton queries query ih =>
      rw [importQueries_append_singleton]
      unfold World.saveQuery
      rw [ih]

theorem importQueries_get?_iff (blank : world.queries = SortedStore.empty)
    {queries : List RegisteredQuery} (distinct : (queries.map RegisteredQuery.id).Nodup)
    {id : Nat} {query : RegisteredQuery} :
    (world.importQueries queries).queries.get? id = some query ↔
      query ∈ queries ∧ query.id = id := by
  induction queries using List.reverseRecOn with
  | nil => simp [World.importQueries, blank]
  | append_singleton queries last ih =>
      rw [List.map_append, List.map_singleton, List.nodup_append] at distinct
      have apart : ∀ other ∈ queries, other.id ≠ last.id := fun other member =>
        distinct.2.2 _ (List.mem_map_of_mem member) _ (List.mem_singleton_self _)
      rw [importQueries_append_singleton, World.saveQuery]
      dsimp only
      rw [SortedStore.get?_set, List.mem_append, List.mem_singleton]
      by_cases same : id = last.id
      · subst same
        rw [if_pos rfl, Option.some_inj]
        constructor
        · rintro rfl
          exact ⟨.inr rfl, rfl⟩
        · rintro ⟨earlier | isLast, isId⟩
          · exact absurd isId (apart query earlier)
          · exact isLast.symm
      · rw [if_neg same, ih distinct.1]
        constructor
        · rintro ⟨member, isId⟩
          exact ⟨.inl member, isId⟩
        · rintro ⟨earlier | rfl, isId⟩
          · exact ⟨earlier, isId⟩
          · exact absurd isId.symm same

theorem importQueries_last (queries : List RegisteredQuery) :
    (world.importQueries queries).lastRegisteredQueryKey =
      ((queries.getLast?).map RegisteredQuery.id).getD world.lastRegisteredQueryKey := by
  induction queries using List.reverseRecOn with
  | nil => rfl
  | append_singleton queries query ih =>
      rw [importQueries_append_singleton]
      simp [World.saveQuery]

end Import

section Export

variable {world : World}

theorem World.Indexed.values_increasing (indexed : world.Indexed) :
    world.queries.values.Pairwise fun query later => query.id < later.id := by
  refine List.pairwise_map.mpr (world.queries.increasing.imp_of_mem ?_)
  intro entry later isEntry isLater below
  rw [indexed ((world.queries.mem_entries_iff _ _).mp isEntry),
    indexed ((world.queries.mem_entries_iff _ _).mp isLater)]
  exact below

theorem World.Indexed.sort_values (indexed : world.Indexed) :
    world.queries.values.mergeSort (fun left right => decide (left.id ≤ right.id)) =
      world.queries.values :=
  List.mergeSort_of_pairwise (indexed.values_increasing.imp fun below => decide_eq_true below.le)

theorem World.Indexed.importQueries_values (indexed : world.Indexed) {blank : World}
    (isBlank : blank.queries = SortedStore.empty) :
    (blank.importQueries world.queries.values).queries = world.queries := by
  have distinct : (world.queries.values.map RegisteredQuery.id).Nodup :=
    List.pairwise_map.mpr (indexed.values_increasing.imp ne_of_lt)
  ext1 id
  refine Option.ext fun query => ?_
  rw [importQueries_get?_iff isBlank distinct, SortedStore.mem_values_iff]
  constructor
  · rintro ⟨⟨key, found⟩, rfl⟩
    rwa [indexed found]
  · intro found
    exact ⟨⟨id, found⟩, indexed found⟩

theorem importQueries_last_eq_iff (indexed : world.Indexed)
    (bounded : ∀ id, world.lastRegisteredQueryKey < id → world.queries.get? id = none)
    {blank : World} (isBlank : blank.lastRegisteredQueryKey = 0) :
    (blank.importQueries world.queries.values).lastRegisteredQueryKey =
        world.lastRegisteredQueryKey ↔
      world.lastRegisteredQueryKey = 0 ∨
        (world.queries.get? world.lastRegisteredQueryKey).isSome := by
  have increasing := indexed.values_increasing
  have listed : ∀ query, query ∈ world.queries.values ↔
      world.queries.get? query.id = some query := by
    intro query
    rw [SortedStore.mem_values_iff]
    exact ⟨fun ⟨key, found⟩ => by rwa [indexed found], fun found => ⟨_, found⟩⟩
  have atMost : ∀ query ∈ world.queries.values, query.id ≤ world.lastRegisteredQueryKey := by
    intro query member
    by_contra above
    exact nomatch (bounded _ (Nat.not_le.mp above)).symm.trans ((listed query).mp member)
  rw [importQueries_last]
  generalize world.queries.values = queries at increasing listed atMost
  rcases List.eq_nil_or_concat' queries with none | ⟨before, last, isConcat⟩
  · subst none
    rw [List.getLast?_nil, Option.map_none, Option.getD_none, isBlank]
    constructor
    · exact fun same => .inl same.symm
    · rintro (isZero | isSome)
      · exact isZero.symm
      · obtain ⟨query, found⟩ := Option.isSome_iff_exists.mp isSome
        have member := (listed query).mpr (by rwa [indexed found])
        exact absurd member List.not_mem_nil
  · have isLast : last ∈ queries := by simp [isConcat]
    have isHighest : ∀ query ∈ queries, query.id ≤ last.id := by
      intro query member
      rw [isConcat] at member increasing
      rcases List.mem_append.mp member with earlier | now
      · exact ((List.pairwise_append.mp increasing).2.2 query earlier last (by simp)).le
      · rw [List.mem_singleton.mp now]
    have lastQuery : queries.getLast? = some last := by simp [isConcat]
    rw [lastQuery, Option.map_some, Option.getD_some]
    constructor
    · intro same
      right
      rw [← same, (listed last).mp isLast]
      rfl
    · rintro (isZero | isSome)
      · have below := atMost last isLast
        omega
      · obtain ⟨query, found⟩ := Option.isSome_iff_exists.mp isSome
        have isId := indexed found
        have member := (listed query).mpr (by rwa [isId])
        have below := atMost last isLast
        have above := isHighest query member
        omega

end Export

def processedWorld : World :=
  (Machine.run step start [registerOf .tx, .finish, submitTx, .finish]).world

end Neutron.InterchainQueries
