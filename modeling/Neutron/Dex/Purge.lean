import Neutron.Dex.Bookkeeping

namespace Neutron.Dex

open Library PrecDec

/-! What a purge of expired limit orders removes.  The loop visits the expiration records
in the order of their keys, which is the order of their times to the second only. -/

/-- Whether the loop of `PurgeExpiredLimitOrders` returns because of the gas consumed. -/
def hitsGasCutoff (curTime : Time) (gasCutoff : Nat) (gasConsumed : Nat → Nat) :
    List LimitOrderExpiration → Nat → Bool → Bool
  | [], _, _ => false
  | record :: rest, turn, inGoodTilSegment =>
      if curTime < record.expirationTime then
        false
      else
        let inGoodTilSegment :=
          inGoodTilSegment || decide (record.expirationTime ≠ jitGoodTilTime)
        if inGoodTilSegment ∧ gasCutoff ≤ gasConsumed turn then
          true
        else
          hitsGasCutoff curTime gasCutoff gasConsumed rest (turn + 1) inGoodTilSegment

def purgeHitsGasCutoff (dex : DexState) (curTime : Time) (gasAtStart : Nat)
    (gasConsumed : Nat → Nat) : Bool :=
  hitsGasCutoff curTime ((gasAtStart + dex.params.goodTilPurgeAllowance) % 2 ^ 64)
    gasConsumed dex.expirations.values 0 false

/-- A purge has removed what has expired and nothing else that expires. -/
structure Purged (dex final : DexState) (curTime : Time) : Prop where
  noRecord : ∀ record ∈ final.expirations.values, curTime < record.expirationTime
  noTranche : ∀ {key tranche expirationTime},
    final.book.getLimitOrderTranche key = some tranche →
      tranche.expirationTime = some expirationTime → curTime < expirationTime
  laterRecord : ∀ record ∈ dex.expirations.values, curTime < record.expirationTime →
    record ∈ final.expirations.values
  laterTranche : ∀ {key tranche expirationTime},
    dex.book.getLimitOrderTranche key = some tranche →
      tranche.expirationTime = some expirationTime → curTime < expirationTime →
        final.book.getLimitOrderTranche key = some tranche

/-- No record of a later time comes before one that is due: the keys hold the second and
the tranche, and within a second the tranche decides. -/
def DexState.DueFirst (dex : DexState) (curTime : Time) : Prop :=
  ∀ due ∈ dex.expirations.values, ∀ later ∈ dex.expirations.values,
    due.expirationTime ≤ curTime → curTime < later.expirationTime → due.key < later.key

/-- Records and tranches on the book that are due belong together. -/
structure DexState.DueLinked (dex : DexState) (curTime : Time) : Prop where
  recorded : ∀ {key tranche expirationTime},
    dex.book.getLimitOrderTranche key = some tranche →
      tranche.expirationTime = some expirationTime → expirationTime ≤ curTime →
        ∃ record ∈ dex.expirations.values,
          record.trancheRef = key ∧ record.expirationTime ≤ curTime
  dated : ∀ record ∈ dex.expirations.values, record.expirationTime ≤ curTime →
    ∀ {tranche expirationTime},
      dex.book.getLimitOrderTranche record.trancheRef = some tranche →
        tranche.expirationTime = some expirationTime → expirationTime ≤ curTime

/-- What the records of a list are removed from: the records themselves, and the active
tranches that they refer to. -/
structure Removes (records : List LimitOrderExpiration) (dex final : DexState) : Prop where
  gone : ∀ record ∈ records, final.expirations.get? record.key = none
  kept : ∀ key, (∀ record ∈ records, record.key ≠ key) →
    final.expirations.get? key = dex.expirations.get? key
  archived : ∀ record ∈ records,
    final.book.getLimitOrderTranche record.trancheRef = none
  active : ∀ key, (∀ record ∈ records, record.trancheRef ≠ key) →
    final.book.getLimitOrderTranche key = dex.book.getLimitOrderTranche key

namespace Removes

variable {records : List LimitOrderExpiration} {record : LimitOrderExpiration}
  {dex middle final : DexState}

theorem nil (dex : DexState) : Removes [] dex dex where
  gone _ impossible := absurd impossible List.not_mem_nil
  kept _ _ := rfl
  archived _ impossible := absurd impossible List.not_mem_nil
  active _ _ := rfl

theorem cons (deleted : middle.expirations = dex.expirations.delete record.key)
    (taken : ∀ key, middle.book.getLimitOrderTranche key =
      if key = record.trancheRef then none else dex.book.getLimitOrderTranche key)
    (removes : Removes records middle final) : Removes (record :: records) dex final where
  gone other member := by
    by_cases again : ∃ later ∈ records, later.key = other.key
    · obtain ⟨later, isLater, same⟩ := again
      exact same ▸ removes.gone later isLater
    · have isFirst : other = record := (List.mem_cons.mp member).resolve_right
        fun inRest => again ⟨other, inRest, rfl⟩
      rw [removes.kept _ fun later isLater same => again ⟨later, isLater, same⟩, deleted,
        isFirst, IndexedStore.get?_delete_self]
  kept key different := by
    obtain ⟨first, rest⟩ := List.forall_mem_cons.mp different
    rw [removes.kept key rest, deleted, IndexedStore.get?_delete_of_ne _ first.symm]
  archived other member := by
    by_cases again : ∃ later ∈ records, later.trancheRef = other.trancheRef
    · obtain ⟨later, isLater, same⟩ := again
      exact same ▸ removes.archived later isLater
    · have isFirst : other = record := (List.mem_cons.mp member).resolve_right
        fun inRest => again ⟨other, inRest, rfl⟩
      rw [removes.active _ fun later isLater same => again ⟨later, isLater, same⟩, taken,
        if_pos (congrArg LimitOrderExpiration.trancheRef isFirst)]
  active key different := by
    obtain ⟨first, rest⟩ := List.forall_mem_cons.mp different
    rw [removes.active key rest, taken, if_neg first.symm]

end Removes

theorem purgeRecord_expirations (state : PurgeState) (record : LimitOrderExpiration) :
    (purgeRecord state record).dex.expirations =
      state.dex.expirations.delete record.key := by
  unfold purgeRecord
  dsimp only
  split
  · rfl
  · split <;> rfl

theorem purgeRecord_inGoodTilSegment (state : PurgeState) (record : LimitOrderExpiration) :
    (purgeRecord state record).inGoodTilSegment = state.inGoodTilSegment := by
  unfold purgeRecord
  dsimp only
  split
  · rfl
  · split <;> rfl

variable {state : PurgeState}

theorem purgeRecord_getLimitOrderTranche (archived : state.Archived)
    (record : LimitOrderExpiration) (key : LimitOrderTrancheKey) :
    (purgeRecord state record).dex.book.getLimitOrderTranche key =
      if key = record.trancheRef then none
      else state.dex.book.getLimitOrderTranche key := by
  unfold purgeRecord
  dsimp only
  split
  · rename_i before
    split
    · rename_i same
      rw [same]
      exact archived _ before
    · rfl
  · split
    · rename_i absent
      split
      · rename_i same
        rw [same]
        exact absent
      · rfl
    · rename_i tranche stored
      rw [← OrderBook.getLimitOrderTranche_key stored]
      exact OrderBook.getLimitOrderTranche_archiveTranche state.dex.book tranche key

variable {curTime : Time} {gasConsumed : Nat → Nat}

theorem purgeLoop_removes {gasCutoff : Nat}
    (records : List LimitOrderExpiration) (turn : Nat)
    (archived : state.Archived)
    (uncut : hitsGasCutoff curTime gasCutoff gasConsumed records turn
      state.inGoodTilSegment = false) :
    Removes (records.takeWhile fun record => decide (record.expirationTime ≤ curTime))
      state.dex (purgeLoop curTime gasCutoff gasConsumed records turn state).dex := by
  induction records generalizing turn state with
  | nil => exact .nil _
  | cons record rest ih =>
      unfold hitsGasCutoff at uncut
      unfold purgeLoop
      by_cases later : curTime < record.expirationTime
      · rw [if_pos later, List.takeWhile_cons_of_neg (by simpa using later)]
        exact .nil _
      · rw [if_neg later] at uncut ⊢
        dsimp only at uncut ⊢
        split at uncut
        · cases uncut
        · rename_i goesOn
          rw [if_neg goesOn, List.takeWhile_cons_of_pos (by simpa using later)]
          have entered : PurgeState.Archived ⟨state.dex, state.inGoodTilSegment ||
              decide (record.expirationTime ≠ jitGoodTilTime), state.archivedTranches⟩ :=
            archived
          have after := (@purgeRecord_moves (.free curTime) _ entered record).2
          refine .cons ?_ (purgeRecord_getLimitOrderTranche entered record)
            (ih (turn + 1) after ?_)
          · exact purgeRecord_expirations _ _
          · rw [purgeRecord_inGoodTilSegment]
            exact uncut

theorem purgeExpiredLimitOrders_removes {dex : DexState} {gasAtStart : Nat}
    (uncut : purgeHitsGasCutoff dex curTime gasAtStart gasConsumed = false) :
    Removes (dex.expirations.values.takeWhile
        fun record => decide (record.expirationTime ≤ curTime)) dex
      (purgeExpiredLimitOrders dex curTime gasAtStart gasConsumed) := by
  have start : PurgeState.Archived ⟨dex, false, []⟩ := by rintro key ⟨⟩
  exact purgeLoop_removes _ 0 start uncut

/-- Every tranche on the book that expires has its record, and records say when their
tranche expires. -/
structure DexState.ExpirationsLinked (dex : DexState) : Prop where
  recorded : ∀ {key tranche expirationTime},
    dex.book.getLimitOrderTranche key = some tranche →
      tranche.expirationTime = some expirationTime →
        dex.expirations.get? (LimitOrderExpiration.key ⟨key, expirationTime⟩) =
          some ⟨key, expirationTime⟩
  dated : ∀ {recordKey record tranche}, dex.expirations.get? recordKey = some record →
    dex.book.getLimitOrderTranche record.trancheRef = some tranche →
      tranche.expirationTime = some record.expirationTime
  issued : ∀ {recordKey record}, dex.expirations.get? recordKey = some record →
    Issued dex.trancheCount record.trancheRef.trancheKey

theorem DexState.ExpirationsLinked.dueLinked {dex : DexState}
    (linked : dex.ExpirationsLinked) (curTime : Time) : dex.DueLinked curTime where
  recorded found expires due :=
    ⟨_, (dex.expirations.mem_values_iff _).mpr (linked.recorded found expires), rfl, due⟩
  dated record stored due {tranche expirationTime} found expires := by
    have dated := linked.dated ((dex.expirations.mem_values_iff record).mp stored) found
    rw [expires] at dated
    exact (Option.some.inj dated).trans_le due

def OrderBook.Continues (book next : OrderBook) : Prop :=
  ∀ key tranche, next.getLimitOrderTranche key = some tranche →
    ∃ before, book.getLimitOrderTranche key = some before ∧
      before.expirationTime = tranche.expirationTime

namespace OrderBook

variable {book : OrderBook} {tranche updated : LimitOrderTranche}

theorem continues_of_eq {next : OrderBook}
    (same : ∀ key, next.getLimitOrderTranche key = book.getLimitOrderTranche key) :
    book.Continues next :=
  fun key tranche found => ⟨tranche, (same key).symm.trans found, rfl⟩

theorem continues_updateTranche {key : LimitOrderTrancheKey}
    (stored : book.getLimitOrderTranche key = some tranche) (sameKey : updated.key = key)
    (sameTime : updated.expirationTime = tranche.expirationTime) :
    book.Continues (book.writeAll (updateTranche updated)) := by
  intro other found isFound
  rw [getLimitOrderTranche_updateTranche] at isFound
  split at isFound
  · rename_i isUpdated
    split at isFound
    · cases isFound
      exact ⟨tranche, by rw [isUpdated, sameKey, stored], sameTime.symm⟩
    · cases isFound
  · exact ⟨found, isFound, rfl⟩

theorem continues_updateInactiveTranche :
    book.Continues (book.writeAll (updateInactiveTranche updated)) :=
  continues_of_eq fun key => by
    unfold getLimitOrderTranche
    rw [tickLiquidity_updateInactiveTranche]

theorem continues_archiveTranche :
    book.Continues (book.writeAll (archiveTranche tranche)) := by
  intro key found isFound
  rw [getLimitOrderTranche_archiveTranche] at isFound
  split at isFound
  · cases isFound
  · exact ⟨found, isFound, rfl⟩

end OrderBook

theorem Visit.continues {now : Time} {tradePairID : TradePairID} {book next : OrderBook}
    {inAmount outAmount : PrecDec}
    (visit : Visit now tradePairID book inAmount outAmount next) : book.Continues next := by
  cases visit with
  | pool _ _ _ _ _ _ _ =>
      exact OrderBook.continues_of_eq fun key => OrderBook.getLimitOrderTranche_updatePool ..
  | tranche stored _ _ _ _ _ _ =>
      exact OrderBook.continues_updateTranche stored rfl rfl

namespace DexState.ExpirationsLinked

variable {dex next : DexState}

theorem evolve (linked : dex.ExpirationsLinked) (continues : dex.book.Continues next.book)
    (records : ∀ {recordKey record}, next.expirations.get? recordKey = some record →
      dex.expirations.get? recordKey = some record)
    (kept : ∀ {key tranche expirationTime},
      next.book.getLimitOrderTranche key = some tranche →
        next.expirations.get? (LimitOrderExpiration.key ⟨key, expirationTime⟩) =
          dex.expirations.get? (LimitOrderExpiration.key ⟨key, expirationTime⟩))
    (count : dex.trancheCount ≤ next.trancheCount) : next.ExpirationsLinked where
  recorded found expires := by
    obtain ⟨before, stored, sameTime⟩ := continues _ _ found
    rw [kept found]
    exact linked.recorded stored (sameTime.trans expires)
  dated stored found := by
    obtain ⟨before, active, sameTime⟩ := continues _ _ found
    rw [← sameTime]
    exact linked.dated (records stored) active
  issued stored := (linked.issued (records stored)).mono count

theorem keep (linked : dex.ExpirationsLinked) (continues : dex.book.Continues next.book)
    (records : next.expirations = dex.expirations)
    (count : dex.trancheCount ≤ next.trancheCount) : next.ExpirationsLinked :=
  linked.evolve continues (fun stored => records ▸ stored) (fun _ => by rw [records]) count

theorem drop (linked : dex.ExpirationsLinked) (continues : dex.book.Continues next.book)
    {record : LimitOrderExpiration}
    (records : next.expirations = dex.expirations.delete record.key)
    (inactive : next.book.getLimitOrderTranche record.trancheRef = none)
    (count : dex.trancheCount ≤ next.trancheCount) : next.ExpirationsLinked := by
  refine linked.evolve continues (fun stored => ?_) (fun {key tranche _} found => ?_) count
  · rw [records] at stored
    exact (IndexedStore.get?_of_get?_delete _ stored).2
  · rw [records, IndexedStore.get?_delete_of_ne]
    intro same
    have sameRef : key = record.trancheRef := congrArg Prod.snd (toLex_inj.mp same)
    rw [sameRef, inactive] at found
    cases found

theorem dropExpiration (linked : dex.ExpirationsLinked)
    {updated : DexState} {cancelled : LimitOrderTranche}
    (continues : dex.book.Continues updated.book)
    (records : updated.expirations = dex.expirations)
    (inactive : ¬ cancelled.HasTokenIn →
      updated.book.getLimitOrderTranche cancelled.key = none)
    (count : dex.trancheCount ≤ updated.trancheCount) :
    (dropExpiration updated cancelled).ExpirationsLinked := by
  unfold Dex.dropExpiration
  split
  · exact linked.keep continues records count
  · rename_i expirationTime _
    split
    · exact linked.keep continues records count
    · rename_i empty
      refine @drop dex _ linked continues ⟨cancelled.key, expirationTime⟩ ?_
        (inactive empty) count
      rw [← records]
      rfl

theorem place_fresh (linked : dex.ExpirationsLinked)
    (orders : Orders dex.book dex.trancheUsers dex.trancheCount)
    {tranche : LimitOrderTranche}
    (isNew : tranche.key.trancheKey = trancheKeyText dex.trancheCount)
    (book : next.book = dex.book.writeAll (updateTranche tranche))
    (records : next.expirations =
      match tranche.expirationTime with
      | none => dex.expirations
      | some expirationTime => dex.expirations.set ⟨tranche.key, expirationTime⟩)
    (count : next.trancheCount = dex.trancheCount + 1) : next.ExpirationsLinked := by
  have oldActive : ∀ {key found}, dex.book.getLimitOrderTranche key = some found →
      key ≠ tranche.key := by
    rintro key found stored rfl
    have sameKey := OrderBook.getLimitOrderTranche_key stored
    exact orders.not_holds_next (.of_active stored)
      ((congrArg LimitOrderTrancheKey.trancheKey sameKey).trans isNew)
  have oldRecord : ∀ {recordKey record}, dex.expirations.get? recordKey = some record →
      record.trancheRef ≠ tranche.key := by
    intro recordKey record stored same
    have issued := linked.issued stored
    rw [same, isNew] at issued
    exact not_issued_next _ issued
  have stored : ∀ {recordKey record}, next.expirations.get? recordKey = some record →
      (record.trancheRef = tranche.key ∧
        tranche.expirationTime = some record.expirationTime) ∨
      dex.expirations.get? recordKey = some record := by
    intro recordKey record found
    rw [records] at found
    split at found
    · exact .inr found
    · rename_i expirationTime expires
      rcases IndexedStore.get?_of_get?_set _ found with rfl | ⟨_, old⟩
      · exact .inl ⟨rfl, expires⟩
      · exact .inr old
  have active : ∀ {key found}, next.book.getLimitOrderTranche key = some found →
      (key = tranche.key ∧ found = tranche) ∨
        (key ≠ tranche.key ∧ dex.book.getLimitOrderTranche key = some found) := by
    intro key found isFound
    rw [book, OrderBook.getLimitOrderTranche_updateTranche] at isFound
    split at isFound
    · rename_i same
      split at isFound
      · exact .inl ⟨same, (Option.some.inj isFound).symm⟩
      · cases isFound
    · rename_i different
      exact .inr ⟨different, isFound⟩
  refine ⟨?_, ?_, ?_⟩
  · intro key found expirationTime isFound expires
    rcases active isFound with ⟨rfl, rfl⟩ | ⟨different, old⟩
    · rw [records, expires]
      exact IndexedStore.get?_set_self _ _
    · have recorded := linked.recorded old expires
      rw [records]
      split
      · exact recorded
      · rw [IndexedStore.get?_set_of_ne]
        · exact recorded
        · exact fun same => different (congrArg Prod.snd (toLex_inj.mp same))
  · intro recordKey record found isStored isFound
    rcases stored isStored with ⟨sameRef, expires⟩ | oldStored
    · rcases active isFound with ⟨_, rfl⟩ | ⟨different, _⟩
      · exact expires
      · exact absurd sameRef different
    · rcases active isFound with ⟨same, _⟩ | ⟨_, old⟩
      · exact absurd same (oldRecord oldStored)
      · exact linked.dated oldStored old
  · intro recordKey record isStored
    rw [count]
    rcases stored isStored with ⟨sameRef, _⟩ | oldStored
    · rw [sameRef, isNew]
      exact ⟨dex.trancheCount, Nat.lt_succ_self _, rfl⟩
    · exact (linked.issued oldStored).mono (Nat.le_succ _)

end DexState.ExpirationsLinked

theorem LimitOrderTranche.withdraw_expirationTime {tranche withdrawn : LimitOrderTranche}
    {user : LimitOrderTrancheUser} {shares takerOut : PrecDec}
    (withdraw : tranche.withdraw user = .ok (shares, takerOut, withdrawn)) :
    withdrawn.expirationTime = tranche.expirationTime := by
  obtain ⟨_, _, rfl⟩ := withdraw_eq_ok withdraw
  rfl

theorem Move.expirationsLinked {rules : Rules} {dex next : DexState} {flow : Flow}
    (move : Move rules dex flow next) (wellFormed : dex.WellFormed)
    (linked : dex.ExpirationsLinked) : next.ExpirationsLinked := by
  have same : dex.book.Continues dex.book := OrderBook.continues_of_eq fun _ => rfl
  cases move with
  | visit visit => exact linked.keep visit.continues rfl le_rfl
  | registerPool _ _ _ => exact linked.keep same rfl le_rfl
  | deposit _ _ _ _ _ _ | withdraw _ _ _ _ _ _ =>
      exact linked.keep
        (OrderBook.continues_of_eq (OrderBook.getLimitOrderTranche_updatePool _ _)) rfl le_rfl
  | issueTrancheKey => exact linked.keep same rfl (Nat.le_succ _)
  | @place tranche opened _ _ amount opens _ _ _ =>
      rw [DexState.updateTrancheUser_eq]
      cases opens with
      | existing stored permanent _ =>
          have unrecorded : dex.recordExpirationOf (tranche.placed amount) = dex := by
            rw [DexState.recordExpirationOf, LimitOrderTranche.placed, permanent]
          rw [unrecorded]
          exact linked.keep (OrderBook.continues_updateTranche stored rfl rfl) rfl le_rfl
      | @fresh tradePairID tickIndex goodTil _ _ =>
          cases goodTil with
          | none => exact linked.place_fresh wellFormed.orders rfl rfl rfl rfl
          | some _ => exact linked.place_fresh wellFormed.orders rfl rfl rfl rfl
  | @cancelActive _ _ _ _ cancelled _ _ holder stored cancel _ =>
      have cancels := cancelInTranche_cancels cancel
      have key := cancels.key.trans (OrderBook.getLimitOrderTranche_key stored)
      rw [DexState.updateTrancheUser_eq]
      refine linked.dropExpiration
        (OrderBook.continues_updateTranche stored key cancels.expirationTime) rfl ?_ le_rfl
      intro empty
      have written := OrderBook.getLimitOrderTranche_updateTranche dex.book cancelled
        cancelled.key
      rw [if_pos rfl, if_neg empty] at written
      exact written
  | cancelInactive holder stored notActive cancel =>
      have cancels := cancelInTranche_cancels cancel
      have key := cancels.key.trans (dex.book.inactiveTranches.keyOf_eq stored)
      rw [DexState.updateTrancheUser_eq]
      refine linked.dropExpiration OrderBook.continues_updateInactiveTranche rfl ?_ le_rfl
      intro _
      rw [key]
      unfold OrderBook.getLimitOrderTranche at notActive ⊢
      unfold DexState.updateBook
      rw [OrderBook.tickLiquidity_updateInactiveTranche]
      exact notActive
  | withdrawActive holder stored withdraw _ _ =>
      rw [DexState.updateTrancheUser_eq]
      have key := (LimitOrderTranche.Sound.of_withdraw (wellFormed.book.active stored).2
        withdraw).2.trans (OrderBook.getLimitOrderTranche_key stored)
      exact linked.keep (OrderBook.continues_updateTranche stored key
        (LimitOrderTranche.withdraw_expirationTime withdraw)) rfl le_rfl
  | withdrawInactive _ _ _ _ _ =>
      rw [DexState.updateTrancheUser_eq]
      exact linked.keep OrderBook.continues_updateInactiveTranche rfl le_rfl
  | dropRecord gone => exact linked.drop same rfl gone le_rfl
  | archive stored =>
      refine linked.drop OrderBook.continues_archiveTranche rfl ?_ le_rfl
      refine (OrderBook.getLimitOrderTranche_archiveTranche dex.book _ _).trans ?_
      exact if_pos (OrderBook.getLimitOrderTranche_key stored).symm
  | countJITs _ => exact linked.keep same rfl le_rfl
  | setParams _ => exact linked.keep same rfl le_rfl

theorem World.Reachable.expirationsLinked {world : World} (reachable : world.Reachable) :
    world.dex.ExpirationsLinked :=
  reachable.dex_invariant (fun wellFormed linked move => move.expirationsLinked wellFormed linked)
    (fun _ linked => ⟨linked.recorded, linked.dated, linked.issued⟩)
    fun _ => ⟨(nomatch ·), (nomatch ·), (nomatch ·)⟩

section Examples

def inFirstMinute (milliseconds : Fin 60000) : Timestamp where
  time := (milliseconds.val : Int) * 10 ^ 6
  afterYearOne := by
    have nonneg : (0 : Int) ≤ milliseconds.val * 10 ^ 6 := by omega
    exact le_trans (by decide) nonneg
  beforeYear10000 := by
    have below : (milliseconds.val : Int) * 10 ^ 6 < 60000 * 10 ^ 6 := by omega
    exact lt_trans below (by decide)

def goodTilOrder (milliseconds : Fin 60000) : MsgPlaceLimitOrder :=
  ⟨alice, "alice", "untrn", "uatom", 0, 1, .goodTilTime, some (inFirstMinute milliseconds),
    none, none, none⟩

def goodTilWorld (expirations : List (Fin 60000)) : World :=
  Machine.run step openWorld
    (expirations.map fun milliseconds => .message (.placeLimitOrder (goodTilOrder milliseconds)))

end Examples

end Neutron.Dex
