import Neutron.InterchainQueries.Cleanup

namespace Neutron.InterchainQueries

open Library
open Neutron.Dex (Coins Bank)

structure Terms where
  id : Nat
  owner : String
  queryType : QueryType
  connectionId : String
  deposit : Coins
  submitTimeout : Nat
  registeredAtHeight : Nat

def RegisteredQuery.terms (query : RegisteredQuery) : Terms :=
  ⟨query.id, query.owner, query.queryType, query.connectionId, query.deposit,
    query.submitTimeout, query.registeredAtHeight⟩

/-- Worlds that differ in queries, results, parameters and events only. -/
structure SameLedger (world final : World) : Prop where
  last : final.lastRegisteredQueryKey = world.lastRegisteredQueryKey
  submittedTxs : final.submittedTxs = world.submittedTxs
  txQueriesToRemove : final.txQueriesToRemove = world.txQueriesToRemove
  bank : final.bank = world.bank

/-- What messages do to queries and deposits up to their first hand-over. -/
inductive Handled (environment : Environment) (world : World) : Option Frame → World → Prop
  | register (query : RegisteredQuery)
      (isContract : environment.hasContractInfo query.owner = true)
      (isNext : query.id = world.lastRegisteredQueryKey + 1) :
      Handled environment world (some (.collectDeposit query))
        { world with lastRegisteredQueryKey := world.lastRegisteredQueryKey + 1 }
  | remove (query : RegisteredQuery) (found : world.queries.get? query.id = some query)
      (recipient : String) :
      Handled environment world (some (.payOutDeposit query.deposit recipient))
        (world.removeQuery query)
  | call (query : RegisteredQuery) (call : TxCallback) (blockHeight : Nat)
      (found : world.queries.get? call.queryId = some query) (isTX : query.queryType = .tx) :
      Handled environment world (some (.txCallback call blockHeight)) world
  | rewrite (query changed : RegisteredQuery) (callback : Option (String × Nat)) {final : World}
      (found : world.queries.get? query.id = some query) (sameTerms : changed.terms = query.terms)
      (queries : final.queries = world.queries.set query.id changed)
      (elsewhere : SameLedger world final) :
      Handled environment world (callback.map fun call => .kvCallback call.1 call.2) final
  | keep {final : World} (queries : final.queries = world.queries)
      (elsewhere : SameLedger world final) : Handled environment world none final

section Messages

variable {environment : Environment} {world final : World}

theorem updateInterchainQuery_handled {msg : MsgUpdateInterchainQuery}
    (indexed : world.Indexed) (ok : updateInterchainQuery environment world msg = .ok final) :
    Handled environment world none final := by
  obtain ⟨_, _, ok⟩ := of_bind ok
  obtain ⟨query, isQuery, ok⟩ := of_bind ok
  obtain ⟨_, _, ok⟩ := of_bind ok
  obtain ⟨_, _, ok⟩ := of_bind ok
  have found := World.getQueryByID_eq_ok isQuery
  rw [← indexed found] at found
  cases ok
  refine .rewrite query (msg.apply query) none found rfl ?_ ?_
  · split <;> rfl
  · split <;> exact ⟨rfl, rfl, rfl, rfl⟩

variable {msg : MsgSubmitQueryResult}

theorem submitQueryResult_isTX {call : TxCallback}
    {blockHeight : Nat} (ok : submitQueryResult environment world msg =
      .ok (some (.txCallback call blockHeight), final)) :
    ∃ query, world.queries.get? msg.queryId = some query ∧ query.queryType = .tx := by
  obtain ⟨result, _, ok⟩ := of_bind ok
  obtain ⟨query, isQuery, ok⟩ := of_bind ok
  refine ⟨query, World.getQueryByID_eq_ok isQuery, ?_⟩
  split at ok
  · cases ok
  · obtain ⟨_, _, ok⟩ := of_bind ok
    obtain ⟨saved, _, ok⟩ := of_bind ok
    split at ok
    · obtain ⟨_, _, ok⟩ := of_bind ok
      cases ok
    · split at ok
      · cases ok
      · obtain ⟨_, isTX, _⟩ := of_bind ok
        exact of_require isTX

theorem submitQueryResult_handled {frame : Option Frame}
    (indexed : world.Indexed)
    (ok : submitQueryResult environment world msg = .ok (frame, final)) :
    Handled environment world frame final := by
  obtain ⟨query, result, found, isId, _, submission⟩ := submitQueryResult_eq_ok indexed ok
  cases submission with
  | values checked callback =>
      have rewrites (call : Option (String × Nat)) := @Handled.rewrite environment world query
        { query with
          lastSubmittedResultRemoteHeight := some checked.remoteHeight
          lastSubmittedResultLocalHeight := environment.blockHeight }
        call (saveKVQueryResult environment world query checked) found rfl rfl
        ⟨rfl, rfl, rfl, rfl⟩
      cases callback with
      | false => exact rewrites none
      | true => exact rewrites (some (query.owner, query.id))
  | callback block tx call _ sameQuery =>
      obtain ⟨other, isOther, isTX⟩ := submitQueryResult_isTX ok
      rw [← isId, ← sameQuery] at isOther
      exact .call other call environment.blockHeight isOther isTX
  | processed =>
      exact .rewrite query { query with lastSubmittedResultLocalHeight := environment.blockHeight }
        none found rfl rfl ⟨rfl, rfl, rfl, rfl⟩
  | nothing => exact .keep rfl ⟨rfl, rfl, rfl, rfl⟩

theorem Msg.handle_handled {msg : Msg} {frame : Option Frame} (indexed : world.Indexed)
    (ok : msg.handle environment world = .ok (frame, final)) :
    Handled environment world frame final := by
  cases msg with
  | registerInterchainQuery msg =>
      obtain ⟨⟨query, registered⟩, begun, ok⟩ := of_bind ok
      cases ok
      obtain ⟨isNext, _, isFinal⟩ := beginRegister_eq_ok begun
      obtain ⟨_, _, begun⟩ := of_bind begun
      obtain ⟨_, isContract, begun⟩ := of_bind begun
      obtain ⟨_, _, begun⟩ := of_bind begun
      cases begun
      exact .register _ (of_require isContract) rfl
  | updateInterchainQuery msg =>
      obtain ⟨updated, isUpdated, ok⟩ := of_bind ok
      cases ok
      exact updateInterchainQuery_handled indexed isUpdated
  | removeInterchainQuery msg =>
      obtain ⟨⟨paying, removed⟩, begun, ok⟩ := of_bind ok
      cases ok
      obtain ⟨query, found, rfl, rfl⟩ := beginRemove_eq_ok indexed begun
      exact .remove query found msg.sender
  | submitQueryResult msg => exact submitQueryResult_handled indexed ok
  | updateParams authority params =>
      obtain ⟨_, _, ok⟩ := of_bind ok
      obtain ⟨_, _, ok⟩ := of_bind ok
      cases ok
      exact .keep rfl ⟨rfl, rfl, rfl, rfl⟩

end Messages

def World.deposits (world : World) (denom : String) : Int :=
  world.queries.total fun _ query => Tally.amountOf query.deposit denom

def Frame.payout (denom : String) : Frame → Int
  | .payOutDeposit deposit _ => Tally.amountOf deposit denom
  | _ => 0

theorem Frame.payout_collectDeposit (denom : String) (query : RegisteredQuery) :
    (Frame.collectDeposit query).payout denom = 0 := rfl

def Frame.Inert : Frame → Prop
  | .collectDeposit _ | .payOutDeposit _ _ => False
  | .execution | .kvCallback _ _ | .txCallback _ _ => True

variable {frame : Frame}

theorem Frame.Inert.collectedId (inert : frame.Inert) :
    frame.collectedId = none := by
  cases frame <;> first | rfl | exact inert.elim

theorem Frame.Inert.payout (inert : frame.Inert) (denom : String) :
    frame.payout denom = 0 := by
  cases frame <;> first | rfl | exact inert.elim

structure Secured (world : World) (frames : List Frame) : Prop where
  registry : Registry world frames
  valid : ∀ {id query}, world.queries.get? id = some query → query.deposit.IsValid
  payouts : ∀ {deposit recipient}, .payOutDeposit deposit recipient ∈ frames → deposit.IsValid
  owners : ∀ {query}, .collectDeposit query ∈ frames → query.owner ≠ moduleName
  covered : ∀ denom, world.deposits denom + (frames.map (Frame.payout denom)).sum ≤
    world.bank.balance moduleName denom

section Deposits

variable {world final : World} {frames : List Frame}

theorem World.deposits_set {query changed : RegisteredQuery}
    (found : world.queries.get? query.id = some query) (sameTerms : changed.terms = query.terms)
    (queries : final.queries = world.queries.set query.id changed) (denom : String) :
    final.deposits denom = world.deposits denom := by
  have sameDeposit : changed.deposit = query.deposit := congrArg Terms.deposit sameTerms
  unfold World.deposits
  rw [queries, SortedStore.total_set, found, sameDeposit]
  exact sub_add_cancel _ _

theorem World.deposits_removeQuery {query : RegisteredQuery}
    (found : world.queries.get? query.id = some query) (denom : String) :
    (world.removeQuery query).deposits denom =
      world.deposits denom - Tally.amountOf query.deposit denom := by
  unfold World.deposits
  rw [World.queries_removeQuery, SortedStore.total_delete, found]
  rfl

theorem World.deposits_saveQuery {query : RegisteredQuery}
    (absent : world.queries.get? query.id = none) (denom : String) :
    (world.saveQuery query).deposits denom =
      world.deposits denom + Tally.amountOf query.deposit denom := by
  unfold World.deposits World.saveQuery
  rw [SortedStore.total_set, absent, Entries.share, Option.elim_none, sub_zero]

namespace Secured

theorem rewrite (secured : Secured world frames) {query : RegisteredQuery}
    (changed : RegisteredQuery) (registry : Registry final frames) (found : world.queries.get? query.id = some query)
    (sameTerms : changed.terms = query.terms)
    (queries : final.queries = world.queries.set query.id changed)
    (bank : final.bank = world.bank) : Secured final frames where
  registry := registry
  valid {id other} isOther := by
    rw [queries] at isOther
    rcases SortedStore.of_get?_set isOther with ⟨_, rfl⟩ | ⟨_, isOther⟩
    · rw [show changed.deposit = query.deposit from congrArg Terms.deposit sameTerms]
      exact secured.valid found
    · exact secured.valid isOther
  payouts := secured.payouts
  owners := secured.owners
  covered denom := by
    rw [World.deposits_set found sameTerms queries, bank]
    exact secured.covered denom

theorem keep (secured : Secured world frames) (registry : Registry final frames)
    (queries : final.queries = world.queries)
    (bank : ∀ denom, world.bank.balance moduleName denom ≤ final.bank.balance moduleName denom) :
    Secured final frames where
  registry := registry
  valid found := secured.valid (queries ▸ found)
  payouts := secured.payouts
  owners := secured.owners
  covered denom := by
    have covered := secured.covered denom
    have more := bank denom
    unfold World.deposits at covered ⊢
    rw [queries]
    omega

theorem enter (secured : Secured world frames) (inert : frame.Inert) :
    Secured world (frame :: frames) where
  registry := secured.registry.enter inert.collectedId
  valid := secured.valid
  payouts {deposit recipient} member := by
    rcases List.mem_cons.mp member with rfl | among
    · exact inert.elim
    · exact secured.payouts among
  owners {query} member := by
    rcases List.mem_cons.mp member with rfl | among
    · exact inert.elim
    · exact secured.owners among
  covered denom := by
    rw [List.map_cons, List.sum_cons, inert.payout, zero_add]
    exact secured.covered denom

theorem leave (secured : Secured world (frame :: frames))
    (inert : frame.Inert) : Secured world frames where
  registry := secured.registry.leave inert.collectedId
  valid := secured.valid
  payouts member := secured.payouts (List.mem_cons_of_mem _ member)
  owners member := secured.owners (List.mem_cons_of_mem _ member)
  covered denom := by
    have covered := secured.covered denom
    rwa [List.map_cons, List.sum_cons, inert.payout, zero_add] at covered

theorem remove (secured : Secured world frames) {query : RegisteredQuery} {recipient : String}
    (found : world.queries.get? query.id = some query)
    (registry : Registry (world.removeQuery query)
      (.payOutDeposit query.deposit recipient :: frames)) :
    Secured (world.removeQuery query) (.payOutDeposit query.deposit recipient :: frames) where
  registry := registry
  valid {id other} isOther := by
    rw [World.queries_removeQuery] at isOther
    exact secured.valid (SortedStore.of_get?_delete isOther)
  payouts {deposit address} member := by
    rcases List.mem_cons.mp member with isFrame | among
    · cases isFrame
      exact secured.valid found
    · exact secured.payouts among
  owners {other} member := by
    rcases List.mem_cons.mp member with isFrame | among
    · cases isFrame
    · exact secured.owners among
  covered denom := by
    have covered := secured.covered denom
    have sameBank : (world.removeQuery query).bank = world.bank := by
      unfold World.removeQuery
      split <;> rfl
    rw [World.deposits_removeQuery found, sameBank, List.map_cons, List.sum_cons, Frame.payout]
    omega

theorem handled (secured : Secured world frames) {environment : Environment}
    {frame : Option Frame} (noContract : environment.hasContractInfo moduleName = false)
    (registry : Registry final (frame.toList ++ frames))
    (handled : Handled environment world frame final) :
    Secured final (frame.toList ++ frames) := by
  cases handled with
  | register query isContract isNext =>
      refine ⟨registry, secured.valid, fun {deposit recipient} member => ?_,
        fun {other} member => ?_, fun denom => ?_⟩
      · rcases List.mem_cons.mp member with isFrame | among
        · cases isFrame
        · exact secured.payouts among
      · rcases List.mem_cons.mp member with isFrame | among
        · cases isFrame
          rintro isModule
          rw [isModule, noContract] at isContract
          cases isContract
        · exact secured.owners among
      · have covered := secured.covered denom
        rw [Option.toList_some, List.singleton_append, List.map_cons, List.sum_cons,
          Frame.payout_collectDeposit, zero_add]
        exact covered
  | remove query found recipient => exact secured.remove found registry
  | call query call blockHeight => exact secured.enter trivial
  | rewrite query changed callback found sameTerms queries elsewhere =>
      cases callback with
      | none => exact secured.rewrite changed registry found sameTerms queries elsewhere.bank
      | some call =>
          refine (secured.rewrite changed (registry.leave rfl) found sameTerms queries
            elsewhere.bank).enter trivial
  | keep queries elsewhere =>
      exact secured.keep registry queries fun denom => elsewhere.bank ▸ le_refl _

theorem collect {query : RegisteredQuery}
    (secured : Secured world (.collectDeposit query :: frames)) {bank : Bank}
    (sent : world.bank.sendCoins query.owner moduleName query.deposit = .ok bank) :
    Secured ({ world with bank := bank }.saveQuery query) frames where
  registry := secured.registry.finish bank
  valid {id other} isOther := by
    rw [World.saveQuery] at isOther
    rcases SortedStore.of_get?_set isOther with ⟨_, rfl⟩ | ⟨_, isOther⟩
    · exact Bank.sendCoins_valid sent
    · exact secured.valid isOther
  payouts member := secured.payouts (List.mem_cons_of_mem _ member)
  owners member := secured.owners (List.mem_cons_of_mem _ member)
  covered denom := by
    have absent : world.queries.get? query.id = none :=
      (secured.registry.fresh (.inr List.mem_cons_self)).query
    have external := secured.owners List.mem_cons_self
    have covered := secured.covered denom
    have balance := Bank.sendCoins_balance sent moduleName denom
    rw [if_neg external.symm, if_pos rfl, sub_zero] at balance
    have saved : ({ world with bank := bank }.saveQuery query).deposits denom =
        world.deposits denom + Tally.amountOf query.deposit denom :=
      @World.deposits_saveQuery { world with bank := bank } query absent denom
    change _ ≤ (bank.balance moduleName denom : Int)
    rw [List.map_cons, List.sum_cons, Frame.payout_collectDeposit] at covered
    omega

theorem payout_nonneg (secured : Secured world frames) (among : frame ∈ frames)
    (denom : String) : 0 ≤ frame.payout denom := by
  cases frame with
  | payOutDeposit deposit recipient => exact (secured.payouts among).amountOf_nonneg denom
  | _ => exact le_refl _

theorem deposits_nonneg (secured : Secured world frames) (denom : String) :
    0 ≤ world.deposits denom :=
  SortedStore.total_nonneg _ fun _ _ found => (secured.valid found).amountOf_nonneg denom

theorem pay {deposit : Coins} {recipient : String}
    (secured : Secured world (.payOutDeposit deposit recipient :: frames)) {bank : Bank}
    (sent : world.bank.sendCoins moduleName recipient deposit = .ok bank) :
    Secured { world with bank := bank } frames where
  registry := (secured.registry.leave rfl).setBank bank
  valid := secured.valid
  payouts member := secured.payouts (List.mem_cons_of_mem _ member)
  owners member := secured.owners (List.mem_cons_of_mem _ member)
  covered denom := by
    have covered := secured.covered denom
    have balance := Bank.sendCoins_balance sent moduleName denom
    have nonneg := (secured.payouts List.mem_cons_self).amountOf_nonneg denom
    rw [List.map_cons, List.sum_cons, Frame.payout] at covered
    change world.deposits denom + _ ≤ (bank.balance moduleName denom : Int)
    rw [balance, if_pos rfl]
    split <;> omega

theorem pays {deposit : Coins} {recipient : String}
    (secured : Secured world (.payOutDeposit deposit recipient :: frames)) :
    ∃ bank, world.bank.sendCoins moduleName recipient deposit = .ok bank := by
  refine Bank.sendCoins_total (secured.payouts List.mem_cons_self) fun denom => ?_
  have covered := secured.covered denom
  have deposits := secured.deposits_nonneg denom
  have others : 0 ≤ (frames.map (Frame.payout denom)).sum := by
    refine List.sum_nonneg fun amount member => ?_
    obtain ⟨frame, among, rfl⟩ := List.mem_map.mp member
    exact secured.payout_nonneg (List.mem_cons_of_mem _ among) denom
  rw [List.map_cons, List.sum_cons, Frame.payout] at covered
  omega

theorem finished (secured : Secured world (frame :: frames))
    (ok : frame.finish world = .ok final) : Secured final frames := by
  cases frame with
  | execution =>
      cases ok
      exact secured.leave trivial
  | kvCallback owner queryId =>
      cases ok
      exact secured.leave trivial
  | collectDeposit query =>
      simp only [Frame.finish, finishRegister] at ok
      split at ok
      · cases ok
      · rename_i bank sent
        cases ok
        exact secured.collect sent
  | payOutDeposit deposit recipient =>
      simp only [Frame.finish, finishRemove] at ok
      split at ok
      · cases ok
      · split at ok
        · cases ok
        · rename_i bank sent
          cases ok
          exact secured.pay sent
  | txCallback call blockHeight =>
      have registry := secured.registry.closing (Frame.finish_closing ok)
      obtain ⟨query, found, isFinal⟩ := World.updateLastLocalHeight_eq_ok ok
      subst isFinal
      have left := secured.leave trivial
      have found : world.queries.get? call.queryId = some query := found
      have isId := left.registry.indexed found
      rw [← isId] at found
      exact left.rewrite { query with lastSubmittedResultLocalHeight := blockHeight } registry
        found rfl rfl rfl

end Secured

end Deposits

theorem World.marked_removeQuery {world : World} {query : RegisteredQuery}
    (isTX : query.queryType = .tx) : (world.removeQuery query).Marked query.id := by
  unfold World.removeQuery World.Marked
  rw [isTX]
  simp

theorem World.Marked.removeQuery {world : World} {id : Nat} (marked : world.Marked id)
    (query : RegisteredQuery) : (world.removeQuery query).Marked id := by
  unfold World.removeQuery World.Marked
  split
  · exact marked
  · rw [SortedStore.get?_set]
    split
    · rfl
    · exact marked

/-- The hashes of transactions belong to TX queries, live ones or marked ones. -/
structure Accounted (world : World) (frames : List Frame) : Prop where
  registry : Registry world frames
  hashes : ∀ {id txHash}, (world.submittedTxs.get? (toLex (id, txHash))).isSome →
    (∃ query, world.queries.get? id = some query ∧ query.queryType = .tx) ∨ world.Marked id
  calls : ∀ {call blockHeight}, .txCallback call blockHeight ∈ frames →
    call.queryId ≤ world.lastRegisteredQueryKey ∧ call.queryId ∉ collecting frames ∧
      ∀ query, world.queries.get? call.queryId = some query → query.queryType = .tx

namespace Accounted

variable {world final : World} {frames : List Frame}

theorem enter (accounted : Accounted world frames) (inert : frame.collectedId = none)
    (call : ∀ call blockHeight, frame = .txCallback call blockHeight →
      ∃ query, world.queries.get? call.queryId = some query ∧ query.queryType = .tx) :
    Accounted world (frame :: frames) where
  registry := accounted.registry.enter inert
  hashes := accounted.hashes
  calls {entered blockHeight} member := by
    have same : collecting (frame :: frames) = collecting frames := by
      rw [collecting, List.filterMap_cons_none inert]
      rfl
    rw [same]
    rcases List.mem_cons.mp member with isFrame | among
    · obtain ⟨query, found, isTX⟩ := call entered blockHeight isFrame.symm
      refine ⟨?_, fun collected => ?_, fun other isOther => ?_⟩
      · by_contra above
        exact (accounted.registry.fresh (.inl (Nat.not_le.mp above))).ne found rfl
      · exact (accounted.registry.fresh (.inr collected)).ne found rfl
      · cases Option.some.inj (found.symm.trans isOther)
        exact isTX
    · exact accounted.calls among

theorem leave (accounted : Accounted world (frame :: frames))
    (inert : frame.collectedId = none) : Accounted world frames where
  registry := accounted.registry.leave inert
  hashes := accounted.hashes
  calls member := by
    have calls := accounted.calls (List.mem_cons_of_mem frame member)
    rwa [collecting, List.filterMap_cons_none inert] at calls

theorem rewrite (accounted : Accounted world frames) {query : RegisteredQuery}
    (changed : RegisteredQuery) (registry : Registry final frames)
    (found : world.queries.get? query.id = some query) (sameTerms : changed.terms = query.terms)
    (queries : final.queries = world.queries.set query.id changed)
    (last : final.lastRegisteredQueryKey = world.lastRegisteredQueryKey)
    (toRemove : final.txQueriesToRemove = world.txQueriesToRemove)
    (hashes : ∀ {id txHash}, (final.submittedTxs.get? (toLex (id, txHash))).isSome →
      (world.submittedTxs.get? (toLex (id, txHash))).isSome ∨
        id = query.id ∧ query.queryType = .tx) : Accounted final frames := by
  have sameType : changed.queryType = query.queryType := congrArg Terms.queryType sameTerms
  refine ⟨registry, fun {id txHash} stored => ?_, fun {call blockHeight} member => ?_⟩
  · rw [World.Marked, toRemove, queries]
    rcases hashes stored with before | ⟨rfl, isTX⟩
    · refine (accounted.hashes before).imp_left ?_
      rintro ⟨other, isOther, isTX⟩
      rw [SortedStore.get?_set]
      split
      · rename_i isId
        rw [isId] at isOther
        cases Option.some.inj (found.symm.trans isOther)
        exact ⟨changed, rfl, sameType.trans isTX⟩
      · exact ⟨other, isOther, isTX⟩
    · exact .inl ⟨changed, SortedStore.get?_set_self _ _ _, sameType.trans isTX⟩
  · obtain ⟨within, apart, isTX⟩ := accounted.calls member
    refine ⟨last ▸ within, apart, fun other isOther => ?_⟩
    rw [queries] at isOther
    rcases SortedStore.of_get?_set isOther with ⟨isId, rfl⟩ | ⟨_, isOther⟩
    · exact sameType.trans (isTX query (isId ▸ found))
    · exact isTX other isOther

theorem keep (accounted : Accounted world frames) (registry : Registry final frames)
    (queries : final.queries = world.queries)
    (last : final.lastRegisteredQueryKey = world.lastRegisteredQueryKey)
    (hashes : ∀ {id txHash}, (final.submittedTxs.get? (toLex (id, txHash))).isSome →
      (world.submittedTxs.get? (toLex (id, txHash))).isSome ∧
        (world.Marked id → final.Marked id)) : Accounted final frames where
  registry := registry
  hashes stored := by
    obtain ⟨before, marked⟩ := hashes stored
    rw [queries]
    exact (accounted.hashes before).imp_right marked
  calls member := by
    rw [last, queries]
    exact accounted.calls member

theorem begin (accounted : Accounted world frames) {query : RegisteredQuery}
    (isNext : query.id = world.lastRegisteredQueryKey + 1) :
    Accounted { world with lastRegisteredQueryKey := world.lastRegisteredQueryKey + 1 }
      (.collectDeposit query :: frames) where
  registry := accounted.registry.begin isNext
  hashes := accounted.hashes
  calls {call blockHeight} member := by
    rcases List.mem_cons.mp member with isFrame | among
    · cases isFrame
    · obtain ⟨within, apart, isTX⟩ := accounted.calls among
      refine ⟨Nat.le_succ_of_le within, fun collected => ?_, isTX⟩
      rcases List.mem_cons.mp collected with isNew | isOld
      · omega
      · exact apart isOld

theorem remove (accounted : Accounted world frames) {query : RegisteredQuery}
    (found : world.queries.get? query.id = some query)
    (registry : Registry (world.removeQuery query) frames) :
    Accounted (world.removeQuery query) frames := by
  have sameHashes : (world.removeQuery query).submittedTxs = world.submittedTxs := by
    unfold World.removeQuery
    split <;> rfl
  have sameLast : (world.removeQuery query).lastRegisteredQueryKey =
      world.lastRegisteredQueryKey := by
    unfold World.removeQuery
    split <;> rfl
  refine ⟨registry, fun {id txHash} stored => ?_, fun {call blockHeight} member => ?_⟩
  · rw [sameHashes] at stored
    rcases accounted.hashes stored with ⟨other, isOther, isTX⟩ | marked
    · by_cases isId : id = query.id
      · rw [isId] at isOther ⊢
        cases Option.some.inj (found.symm.trans isOther)
        exact .inr (World.marked_removeQuery isTX)
      · refine .inl ⟨other, ?_, isTX⟩
        rw [World.queries_removeQuery, SortedStore.get?_delete_of_ne _ isId]
        exact isOther
    · exact .inr (marked.removeQuery query)
  · obtain ⟨within, apart, isTX⟩ := accounted.calls member
    refine ⟨sameLast ▸ within, apart, fun other isOther => ?_⟩
    rw [World.queries_removeQuery] at isOther
    exact isTX other (SortedStore.of_get?_delete isOther)

theorem handled (accounted : Accounted world frames) {environment : Environment}
    {frame : Option Frame} (registry : Registry final (frame.toList ++ frames))
    (handled : Handled environment world frame final) :
    Accounted final (frame.toList ++ frames) := by
  cases handled with
  | register query isContract isNext => exact accounted.begin isNext
  | remove query found recipient =>
      exact (accounted.remove found (registry.leave rfl)).enter rfl
        fun _ _ isCall => nomatch isCall
  | call query call blockHeight found isTX =>
      refine accounted.enter rfl fun other otherHeight isCall => ?_
      cases isCall
      exact ⟨query, found, isTX⟩
  | rewrite query changed callback found sameTerms queries elsewhere =>
      have rewritten (registry : Registry final frames) := accounted.rewrite changed registry found
        sameTerms queries elsewhere.last elsewhere.txQueriesToRemove
        fun stored => .inl (elsewhere.submittedTxs ▸ stored)
      cases callback with
      | none => exact rewritten registry
      | some call =>
          exact (rewritten (registry.leave rfl)).enter rfl
            fun _ _ isCall => nomatch isCall
  | keep queries elsewhere =>
      refine accounted.keep registry queries elsewhere.last fun stored => ?_
      rw [World.Marked, World.Marked, elsewhere.txQueriesToRemove, ← elsewhere.submittedTxs]
      exact ⟨stored, id⟩

theorem collect {query : RegisteredQuery}
    (accounted : Accounted world (.collectDeposit query :: frames)) (bank : Bank) :
    Accounted ({ world with bank := bank }.saveQuery query) frames := by
  have fresh := accounted.registry.fresh (.inr (List.mem_cons_self : query.id ∈ _ :: _))
  refine ⟨accounted.registry.finish bank, fun {id txHash} stored => ?_,
    fun {call blockHeight} member => ?_⟩
  · refine (accounted.hashes stored).imp_left ?_
    rintro ⟨other, isOther, isTX⟩
    exact ⟨other, (world.queries.get?_set_of_ne query (fresh.ne isOther).symm).trans isOther,
      isTX⟩
  · obtain ⟨within, apart, isTX⟩ := accounted.calls (List.mem_cons_of_mem _ member)
    refine ⟨within, List.not_mem_of_not_mem_cons apart, fun other isOther => isTX other ?_⟩
    exact (world.queries.get?_set_of_ne query (List.ne_of_not_mem_cons apart)).symm.trans isOther

theorem finished (accounted : Accounted world (frame :: frames))
    (ok : frame.finish world = .ok final) : Accounted final frames := by
  have closing := Frame.finish_closing ok
  have registry := accounted.registry.closing closing
  cases closing with
  | execution => exact accounted.leave rfl
  | kvCallback owner queryId => exact accounted.leave rfl
  | pay deposit recipient bank =>
      exact (accounted.leave rfl).keep registry rfl rfl fun stored => ⟨stored, id⟩
  | register query bank => exact accounted.collect bank
  | deliver query call blockHeight found =>
      have isTX := (accounted.calls List.mem_cons_self).2.2 query found
      have left := accounted.leave rfl
      have isId := left.registry.indexed found
      rw [← isId] at found
      refine left.rewrite { query with lastSubmittedResultLocalHeight := blockHeight } registry
        found rfl rfl rfl rfl fun {id txHash} stored => ?_
      change ((world.submittedTxs.set (toLex (call.queryId, call.txHash)) ()).get?
        (toLex (id, txHash))).isSome at stored
      rw [SortedStore.get?_set] at stored
      split at stored
      · rename_i same
        exact .inr ⟨(congrArg (fun key => (ofLex key).1) same).trans isId.symm, isTX⟩
      · exact .inl stored

theorem cleanup (accounted : Accounted world frames) : Accounted world.txQueriesCleanup frames := by
  have cleans : Cleans world world.txQueriesCleanup := txQueriesCleanup_cleans
  have cleaned := txQueriesCleanup_cleanedUp world
  refine accounted.keep accounted.registry.cleanup cleans.queries cleans.last
    fun {id txHash} stored => ⟨?_, fun marked => ?_⟩
  · rcases cleaned.hashes id txHash with same | ⟨gone, _⟩
    · exact same ▸ stored
    · rw [gone] at stored
      cases stored
  · rcases cleaned.marks id with same | ⟨_, gone⟩
    · rw [World.Marked, same]
      exact marked
    · rw [gone] at stored
      cases stored

end Accounted

/-- Queries under identifiers that were given out before are the queries from before. -/
structure Continues (start world : World) (frames : List Frame) : Prop where
  registry : Registry world frames
  last : start.lastRegisteredQueryKey ≤ world.lastRegisteredQueryKey
  new : ∀ id ∈ collecting frames, start.lastRegisteredQueryKey < id
  terms : ∀ {id query}, id ≤ start.lastRegisteredQueryKey → world.queries.get? id = some query →
    ∃ original, start.queries.get? id = some original ∧ query.terms = original.terms

namespace Continues

variable {start world final : World} {frames : List Frame}

theorem rewrite (continues : Continues start world frames) {query : RegisteredQuery}
    (changed : RegisteredQuery) (registry : Registry final frames)
    (found : world.queries.get? query.id = some query) (sameTerms : changed.terms = query.terms)
    (queries : final.queries = world.queries.set query.id changed)
    (last : final.lastRegisteredQueryKey = world.lastRegisteredQueryKey) :
    Continues start final frames where
  registry := registry
  last := last ▸ continues.last
  new := continues.new
  terms {id other} old isOther := by
    rw [queries] at isOther
    rcases SortedStore.of_get?_set isOther with ⟨isId, rfl⟩ | ⟨_, isOther⟩
    · rw [sameTerms]
      exact continues.terms old (isId ▸ found)
    · exact continues.terms old isOther

theorem keep (continues : Continues start world frames) (registry : Registry final frames)
    (queries : ∀ {id query}, final.queries.get? id = some query →
      world.queries.get? id = some query)
    (last : final.lastRegisteredQueryKey = world.lastRegisteredQueryKey) :
    Continues start final frames where
  registry := registry
  last := last ▸ continues.last
  new := continues.new
  terms old found := continues.terms old (queries found)

theorem enter (continues : Continues start world frames)
    (inert : frame.collectedId = none) : Continues start world (frame :: frames) where
  registry := continues.registry.enter inert
  last := continues.last
  new id member := by
    rw [collecting, List.filterMap_cons_none inert] at member
    exact continues.new id member
  terms := continues.terms

theorem leave (continues : Continues start world (frame :: frames))
    (inert : frame.collectedId = none) : Continues start world frames where
  registry := continues.registry.leave inert
  last := continues.last
  new id member := by
    refine continues.new id ?_
    rw [collecting, List.filterMap_cons_none inert]
    exact member
  terms := continues.terms

theorem handled (continues : Continues start world frames) {environment : Environment}
    {frame : Option Frame} (registry : Registry final (frame.toList ++ frames))
    (handled : Handled environment world frame final) :
    Continues start final (frame.toList ++ frames) := by
  cases handled with
  | register query isContract isNext =>
      refine ⟨registry, Nat.le_succ_of_le continues.last, fun id member => ?_, continues.terms⟩
      rcases List.mem_cons.mp member with isNew | isOld
      · have last := continues.last
        omega
      · exact continues.new id isOld
  | remove query found recipient =>
      refine (continues.keep (registry.leave rfl) (fun {id other} isOther => ?_) ?_).enter rfl
      · rw [World.queries_removeQuery] at isOther
        exact SortedStore.of_get?_delete isOther
      · unfold World.removeQuery
        split <;> rfl
  | call query call blockHeight => exact continues.enter rfl
  | rewrite query changed callback found sameTerms queries elsewhere =>
      have rewritten (registry : Registry final frames) :=
        continues.rewrite changed registry found sameTerms queries elsewhere.last
      cases callback with
      | none => exact rewritten registry
      | some call => exact (rewritten (registry.leave rfl)).enter rfl
  | keep queries elsewhere =>
      exact continues.keep registry (fun found => queries ▸ found) elsewhere.last

theorem finished (continues : Continues start world (frame :: frames))
    (ok : frame.finish world = .ok final) : Continues start final frames := by
  have closing := Frame.finish_closing ok
  have registry := continues.registry.closing closing
  cases closing with
  | execution => exact continues.leave rfl
  | kvCallback owner queryId => exact continues.leave rfl
  | pay deposit recipient bank => exact (continues.leave rfl).keep registry id rfl
  | register query bank =>
      have isNew := continues.new query.id List.mem_cons_self
      refine ⟨registry, continues.last, fun id member =>
        continues.new id (List.mem_cons_of_mem _ member), fun {id other} old isOther => ?_⟩
      have different : id ≠ query.id := by omega
      exact continues.terms old
        ((world.queries.get?_set_of_ne query different).symm.trans isOther)
  | deliver query call blockHeight found =>
      have left := continues.leave rfl
      have isId := left.registry.indexed found
      rw [← isId] at found
      exact left.rewrite { query with lastSubmittedResultLocalHeight := blockHeight } registry
        found rfl rfl rfl

end Continues

def Trusted (state : State) : Step → Prop
  | .message environment _ => environment.hasContractInfo moduleName = false
  | .setBank bank =>
      ∀ denom, state.world.bank.balance moduleName denom ≤ bank.balance moduleName denom
  | .execute | .finish | .fail | .endBlock => True

section Runs

theorem secured_maintained : Maintained Secured Trusted where
  execute secured := secured.enter trivial
  handle secured trusted handled := secured.handled trusted
    (registry_preserved.maintained.handle secured.registry trivial handled)
    (Msg.handle_handled secured.registry.indexed handled)
  finish := Secured.finished
  setBank secured trusted := secured.keep (secured.registry.setBank _) rfl trusted
  cleanup {world frames} secured := by
    have bank : world.txQueriesCleanup.bank = world.bank := by
      rw [(txQueriesCleanup_cleanedUp world).elsewhere]
    exact secured.keep secured.registry.cleanup txQueriesCleanup_cleans.queries
      fun denom => bank ▸ le_refl _

theorem accounted_maintained : Maintained Accounted fun _ _ => True where
  execute accounted := accounted.enter rfl fun _ _ isCall => nomatch isCall
  handle accounted _ handled := accounted.handled
    (registry_preserved.maintained.handle accounted.registry trivial handled)
    (Msg.handle_handled accounted.registry.indexed handled)
  finish := Accounted.finished
  setBank accounted _ := accounted.keep (accounted.registry.setBank _) rfl rfl
    fun stored => ⟨stored, id⟩
  cleanup := Accounted.cleanup

theorem continues_maintained (start : World) : Maintained (Continues start) fun _ _ => True where
  execute continues := continues.enter rfl
  handle continues _ handled := continues.handled
    (registry_preserved.maintained.handle continues.registry trivial handled)
    (Msg.handle_handled continues.registry.indexed handled)
  finish := Continues.finished
  setBank continues _ := continues.keep (continues.registry.setBank _) id rfl
  cleanup continues := continues.keep continues.registry.cleanup
    (fun found => txQueriesCleanup_cleans.queries ▸ found) txQueriesCleanup_cleans.last

end Runs

def Sent (before after : Bank) (sender recipient : String) (coins : Coins) : Prop :=
  ∀ address denom, (after.balance address denom : Int) = before.balance address denom -
    (if address = sender then Tally.amountOf coins denom else 0) +
    (if address = recipient then Tally.amountOf coins denom else 0)

structure Refundable (state : State) : Prop where
  covered : ∀ denom, state.world.deposits denom ≤ state.world.bank.balance moduleName denom
  collects : ∀ {query final}, (Frame.collectDeposit query).finish state.world = .ok final →
    final.queries.get? query.id = some query ∧
      Sent state.world.bank final.bank query.owner moduleName query.deposit
  /-- Whatever ran since the removal began, it pays. -/
  pays : ∀ {deposit recipient others},
    state.frames = .payOutDeposit deposit recipient :: others →
    state.world.bank.blockedAddr recipient = false →
    ∃ bank, Sent state.world.bank bank moduleName recipient deposit ∧
      step state .finish = state.leave { state.world with bank := bank }
  removes : ∀ {environment msg query}, msg.validate environment = .ok () →
    state.world.queries.get? msg.queryId = some query →
    query.validateRemoval environment.blockHeight msg.sender = .ok () →
    state.world.bank.blockedAddr msg.sender = false →
    ∃ bank, Sent state.world.bank bank moduleName msg.sender query.deposit ∧
      Machine.run step state [.message environment (.removeInterchainQuery msg), .finish] =
        state.update { state.world.removeQuery query with bank := bank }
  hashes : ∀ {id txHash}, (state.world.submittedTxs.get? (toLex (id, txHash))).isSome →
    (state.world.queries.get? id).isSome ∨ state.world.Marked id

section Refundable

variable {state : State}

theorem Secured.finishes {deposit : Coins} {recipient : String} {others : List Frame}
    (secured : Secured state.world state.frames)
    (top : state.frames = .payOutDeposit deposit recipient :: others)
    (unblocked : state.world.bank.blockedAddr recipient = false) :
    ∃ bank, Sent state.world.bank bank moduleName recipient deposit ∧
      step state .finish = state.leave { state.world with bank := bank } := by
  obtain ⟨world, stack⟩ := state
  cases stack with
  | nil => cases top
  | cons entry rest =>
      obtain ⟨frame, snapshot⟩ := entry
      obtain ⟨rfl, rfl⟩ := List.cons.inj top
      obtain ⟨bank, sent⟩ := secured.pays
      have finished : (Frame.payOutDeposit deposit recipient).finish world =
          .ok { world with bank := bank } := by
        simp only [Frame.finish, finishRemove]
        rw [if_neg (by rw [unblocked]; decide), sent]
      refine ⟨bank, Bank.sendCoins_balance sent, ?_⟩
      unfold step
      dsimp only
      rw [finished]

theorem Secured.refundable (secured : Secured state.world state.frames)
    (accounted : Accounted state.world state.frames) : Refundable state where
  covered denom := by
    have covered := secured.covered denom
    have others : 0 ≤ (state.frames.map (Frame.payout denom)).sum := by
      refine List.sum_nonneg fun amount member => ?_
      obtain ⟨frame, among, rfl⟩ := List.mem_map.mp member
      exact secured.payout_nonneg among denom
    omega
  collects {query final} ok := by
    simp only [Frame.finish, finishRegister] at ok
    split at ok
    · cases ok
    · rename_i bank sent
      cases ok
      exact ⟨SortedStore.get?_set_self _ _ _, Bank.sendCoins_balance sent⟩
  pays := secured.finishes
  removes {environment msg query} valid found authorised unblocked := by
    have isQuery : state.world.getQueryByID msg.queryId = .ok query := by
      rw [World.getQueryByID, found]
    have handled : (Msg.removeInterchainQuery msg).handle environment state.world =
        .ok (some (.payOutDeposit query.deposit msg.sender), state.world.removeQuery query) :=
      Outcome.bind_ok (Outcome.bind_ok valid (Outcome.bind_ok isQuery
        (Outcome.bind_ok authorised rfl))) rfl
    have begun : step state (.message environment (.removeInterchainQuery msg)) =
        state.enter (.payOutDeposit query.deposit msg.sender)
          (state.world.removeQuery query) := by
      unfold step
      dsimp only
      rw [handled]
    have registry := registry_preserved.maintained.handle secured.registry trivial handled
    rw [← secured.registry.indexed found] at found
    have sameBank : (state.world.removeQuery query).bank = state.world.bank := by
      unfold World.removeQuery
      split <;> rfl
    rw [← sameBank] at unblocked ⊢
    obtain ⟨bank, sent, finished⟩ := @Secured.finishes
      (state.enter (.payOutDeposit query.deposit msg.sender) (state.world.removeQuery query)) _ _
      _ (secured.remove found registry) rfl unblocked
    refine ⟨bank, sent, ?_⟩
    rw [Machine.run_cons, begun, Machine.run_cons, finished]
    rfl
  hashes stored := by
    refine (accounted.hashes stored).imp_left ?_
    rintro ⟨query, found, _⟩
    rw [found]
    rfl

end Refundable

/-- In every run the module has what it owes for the queries, every removal pays the deposit
of its query back, and the hashes that are stored belong to queries that are live or marked.
A query that is stored under an identifier from before is the one from before. -/
theorem deposits_refundable (authority : String) (params : Params) (bank : Bank)
    (steps later : List Step) (trusted : Machine.Allowed step Trusted
      (initial authority params bank) steps)
    (trustedLater : Machine.Allowed step Trusted
      (Machine.run step (initial authority params bank) steps) later) :
    let state := Machine.run step (initial authority params bank) steps
    Refundable (Machine.run step state later) ∧
      (state.stack = [] → Continues state.world (Machine.run step state later).world
        (Machine.run step state later).frames) := by
  intro state
  have all : Machine.Allowed step Trusted (initial authority params bank) (steps ++ later) :=
    Machine.allowed_append trusted trustedLater
  have isRun : Machine.run step state later =
      Machine.run step (initial authority params bank) (steps ++ later) :=
    (Machine.run_append _ _ _).symm
  have always {start : State} {actions : List Step} :
      Machine.Allowed step (fun _ _ => True) start actions :=
    Machine.allowed_of_forall fun _ _ => trivial
  have registry := registry_initial authority params bank
  constructor
  · rw [isRun]
    have secured := secured_maintained.run rfl
      ⟨registry, fun found => (by cases found), fun member => (by cases member),
        fun member => (by cases member), fun _ => Int.natCast_nonneg _⟩ all
    exact secured.refundable (accounted_maintained.run rfl
      ⟨registry, fun stored => (by cases stored), fun member => (by cases member)⟩ always)
  · intro idle
    have now : Registry state.world [] := by
      have reached := run_registry authority params bank steps
      rwa [Nested.frames, show (Machine.run step (initial authority params bank) steps).stack = []
        from idle] at reached
    exact (continues_maintained state.world).run idle
      ⟨now, le_refl _, fun _ member => (by cases member), fun _ found => ⟨_, found, rfl⟩⟩ always

section Examples

def contractsOnly : Environment :=
  { agreeable with hasContractInfo := fun address => decide (address ≠ moduleName) }

def depositParams : Params :=
  { freeParams with queryDeposit := SortedStore.empty.set "untrn" 3 }

def ownerBank : Bank :=
  { emptyBank with
    balance := fun address denom => if address = "owner" ∧ denom = "untrn" then 5 else 0 }

def registerTx : Step :=
  .message contractsOnly (.registerInterchainQuery
    ⟨"owner", some .tx, [], "[]", "connection-0", 5⟩)

theorem deposits_refundable_owner :
    let state := Machine.run step (initial "gov" depositParams ownerBank) [registerTx, .finish]
    let later := [.message contractsOnly (.removeInterchainQuery ⟨"owner", 1⟩), .finish]
    state.stack.length = 0 ∧ (state.world.queries.get? 1).isSome ∧
      state.world.bank.balance "owner" "untrn" = 2 ∧
      (Machine.run step state later).world.bank.balance "owner" "untrn" = 5 ∧
      Refundable (Machine.run step state later) ∧
      Continues state.world (Machine.run step state later).world
        (Machine.run step state later).frames := by
  intro state later
  have idle : state.stack.length = 0 := by decide +kernel
  have notContract : contractsOnly.hasContractInfo moduleName = false := by decide
  obtain ⟨refundable, continues⟩ := deposits_refundable "gov" depositParams ownerBank
    [registerTx, .finish] later ⟨notContract, trivial, trivial⟩ ⟨notContract, trivial, trivial⟩
  exact ⟨idle, by decide +kernel, by decide +kernel, by decide +kernel, refundable,
    continues (List.length_eq_zero_iff.mp idle)⟩

end Examples

end Neutron.InterchainQueries
