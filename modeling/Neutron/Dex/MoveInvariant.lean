import Neutron.Dex.WellFormed

namespace Neutron.Dex

open Library PrecDec

/-- A stored tranche is replaced by an updated one under the same key. -/
structure Replaces (book : OrderBook) (tranche updated : LimitOrderTranche)
    (next : OrderBook) : Prop where
  wellFormed : next.WellFormed
  owed : next.owed = book.owed + (updated.owed - tranche.owed)
  holds : ∀ {other}, next.Holds other →
    other = updated ∨ (other.key ≠ updated.key ∧ book.Holds other)
  poolReserves : ∀ key, next.getPoolReserves key = book.getPoolReserves key

namespace OrderBook.WellFormed

variable {book : OrderBook} (wellFormed : book.WellFormed)
  {key : LimitOrderTrancheKey} {tranche updated : LimitOrderTranche}

include wellFormed

theorem replaceActive (stored : book.getLimitOrderTranche key = some tranche)
    (sound : updated.Sound) (sameKey : updated.key = tranche.key) :
    Replaces book tranche updated (book.writeAll (Dex.updateTranche updated)) := by
  have storedKey := getLimitOrderTranche_key stored
  have notInactive : book.getInactiveLimitOrderTranche updated.key = none := by
    rw [sameKey, storedKey]
    exact wellFormed.exclusive stored
  refine ⟨wellFormed.updateTranche sound notInactive, ?_,
    fun held => held.of_updateTranche notInactive,
    getPoolReserves_updateTranche _ _⟩
  rw [owed_updateTranche sound notInactive, sameKey, storedKey, stored,
    Option.elim_some]

theorem replaceInactive
    (stored : book.getInactiveLimitOrderTranche key = some tranche)
    (notActive : book.getLimitOrderTranche key = none)
    (sound : updated.Sound) (sameKey : updated.key = tranche.key) :
    Replaces book tranche updated
      (book.writeAll (Dex.updateInactiveTranche updated)) := by
  have storedKey : tranche.key = key := book.inactiveTranches.keyOf_eq stored
  rw [← storedKey, ← sameKey] at stored notActive
  refine ⟨wellFormed.updateInactiveTranche sound notActive, ?_,
    fun held => held.of_updateInactiveTranche notActive,
    getPoolReserves_updateInactiveTranche _ _⟩
  rw [owed_updateInactiveTranche sound, stored, Option.elim_some]

end OrderBook.WellFormed

variable {shares : PrecDec}

section Users

variable {dex : DexState} {address trancheKey : String} {user : LimitOrderTrancheUser}
  {tranche updated : LimitOrderTranche} {next : OrderBook}

theorem user_key_of_stored
    (holder : dex.getLimitOrderTrancheUser address trancheKey = some user) :
    dex.trancheUsers.get? user.key = some user := by
  have same := dex.trancheUsers.keyOf_eq holder
  rw [same]
  exact holder

theorem Orders.cancel (orders : Orders dex.book dex.trancheUsers dex.trancheCount)
    (holder : dex.getLimitOrderTrancheUser address trancheKey = some user)
    (held : dex.book.Holds tranche) (trancheKeyEq : tranche.key = user.limitOrderTrancheKey)
    (sameKey : updated.key = tranche.key)
    (total : updated.totalMakerDenom = tranche.totalMakerDenom - user.sharesOwned)
    (holds : ∀ {other}, next.Holds other →
      other = updated ∨ (other.key ≠ updated.key ∧ dex.book.Holds other)) :
    Orders next (dex.trancheUsers.delete user.key) dex.trancheCount := by
  refine orders.exit (user_key_of_stored holder) ?_
  intro other after
  rcases holds after with rfl | ⟨_, before⟩
  · exact ⟨tranche, held, sameKey.symm, .inr ⟨sameKey.trans trancheKeyEq, le_of_eq
      total.symm⟩⟩
  · exact ⟨other, before, rfl, .inl (le_refl _)⟩

theorem Orders.leave (orders : Orders dex.book dex.trancheUsers dex.trancheCount)
    (holder : dex.getLimitOrderTrancheUser address trancheKey = some user)
    (held : dex.book.Holds tranche) (sameKey : updated.key = tranche.key)
    (total : updated.totalMakerDenom = tranche.totalMakerDenom)
    (holds : ∀ {other}, next.Holds other →
      other = updated ∨ (other.key ≠ updated.key ∧ dex.book.Holds other)) :
    Orders next (dex.trancheUsers.delete user.key) dex.trancheCount := by
  refine orders.exit (user_key_of_stored holder) ?_
  intro other after
  obtain ⟨before, heldBefore, key, sameTotal⟩ :=
    OrderBook.holds_of_update (holds after) held sameKey total
  exact ⟨before, heldBefore, key, .inl (le_of_eq sameTotal)⟩

variable {takerOut : PrecDec}

theorem withdrawn_bounds (sound : user.Sound)
    (amounts : tranche.calcWithdrawAmount user = .ok (shares, takerOut)) :
    0 ≤ (user.decSharesWithdrawn + shares).i ∧
      (user.decSharesWithdrawn + shares).i ≤ user.sharesOwned * precisionReuse := by
  have withdrawn := sound.withdrawn
  have remaining := sound.remaining
  rcases LimitOrderTranche.calcWithdrawAmount_eq_ok amounts with
    ⟨rfl, _⟩ | ⟨ratio, filled, rfl, positive, _⟩
  · rw [add_i, zeroPrecDec_i]
    omega
  · have ratioLe := LimitOrderTranche.ratioFilled_le filled
    have owned := sound.owned
    have bound : ratio.i * user.sharesOwned ≤ precisionReuse * user.sharesOwned :=
      mul_le_mul_of_nonneg_right ratioLe (le_of_lt owned)
    rw [sub_i, mulInt_i] at positive
    rw [add_i, sub_i, mulInt_i]
    rw [mul_comm (precisionReuse : Int)] at bound
    omega

theorem Orders.withdrawFilled
    (orders : Orders dex.book dex.trancheUsers dex.trancheCount)
    (holder : dex.getLimitOrderTrancheUser address trancheKey = some user)
    (held : dex.book.Holds tranche) (sameKey : updated.key = tranche.key)
    (total : updated.totalMakerDenom = tranche.totalMakerDenom)
    (holds : ∀ {other}, next.Holds other →
      other = updated ∨ (other.key ≠ updated.key ∧ dex.book.Holds other))
    (amounts : tranche.calcWithdrawAmount user = .ok (shares, takerOut)) :
    Orders next
      (({ dex with book := next }.updateTrancheUser
        { user with decSharesWithdrawn := user.decSharesWithdrawn + shares })).trancheUsers
      dex.trancheCount := by
  have stored := user_key_of_stored holder
  have sound := orders.userSound stored
  obtain ⟨nonneg, bounded⟩ := withdrawn_bounds sound amounts
  rw [DexState.updateTrancheUser_eq]
  dsimp only
  split_ifs with empty
  · have left := orders.leave holder held sameKey total holds
    exact left
  · refine orders.withdraw stored ⟨sound.owned, nonneg, ?_⟩ rfl rfl rfl ?_
    · refine lt_of_le_of_ne bounded ?_
      intro full
      exact empty (PrecDec.ext full)
    · intro other after
      exact OrderBook.holds_of_update (holds after) held sameKey total

end Users

structure Keeps (dex : DexState) (flow : Flow) (next : DexState) : Prop where
  wellFormed : next.WellFormed
  owed : next.book.owed = dex.book.owed + flow

namespace Keeps

variable {dex next : DexState} {flow : Flow}

theorem idle (wellFormed : dex.WellFormed) (book : next.book = dex.book)
    (poolMetadata : next.poolMetadata = dex.poolMetadata)
    (poolIDs : next.poolIDs = dex.poolIDs) (poolCount : next.poolCount = dex.poolCount)
    (users : next.trancheUsers = dex.trancheUsers)
    (trancheCount : next.trancheCount = dex.trancheCount) : Keeps dex 0 next where
  wellFormed := ⟨book ▸ wellFormed.book,
    poolMetadata ▸ poolIDs ▸ poolCount ▸ wellFormed.registry,
    book ▸ poolIDs ▸ wellFormed.pools, book ▸ users ▸ trancheCount ▸ wellFormed.orders⟩
  owed := by rw [book, add_zero]

theorem reserve (wellFormed : dex.WellFormed) {pool : Pool} {key : PoolIDKey}
    (registered : dex.poolIDs.get? key = some pool.id) (readAt : pool.ReadAt dex.book key)
    {reserves0 reserves1 : PrecDec} (nonneg0 : 0 ≤ reserves0.i) (nonneg1 : 0 ≤ reserves1.i)
    (change : flow =
      (Flow.coin key.pairID.token0 reserves0 + Flow.coin key.pairID.token1 reserves1) -
        (Flow.coin key.pairID.token0 pool.lowerTick0.decReservesMakerDenom +
          Flow.coin key.pairID.token1 pool.upperTick1.decReservesMakerDenom)) :
    Keeps dex flow
      (dex.updateBook (updatePool (pool.withReserves reserves0 reserves1))) where
  wellFormed := {
    book := wellFormed.book.updatePool readAt.loaded
      (pool.withReserves_updates nonneg0 nonneg1)
    registry := wellFormed.registry
    pools := wellFormed.pools.updatePool readAt.loaded
      (pool.withReserves_updates nonneg0 nonneg1)
      ⟨pool.id, by rw [readAt.upper_poolIDKey]; exact registered⟩
    orders := wellFormed.orders.ofTranches fun held =>
      ⟨_, OrderBook.holds_updatePool_iff.mp held, rfl, rfl⟩ }
  owed := by
    have lowerMaker : pool.lowerTick0.key.tradePairID.makerDenom = key.pairID.token0 := by
      rw [readAt.loaded.counterpart, readAt.upperKey]
      exact newTradePairIDFromMaker_token1_takerDenom key.pairID
    have upperMaker : pool.upperTick1.key.tradePairID.makerDenom = key.pairID.token1 := by
      rw [readAt.upperKey]
      exact newTradePairIDFromMaker_makerDenom key.pairID key.pairID.token1
    refine (OrderBook.owed_updatePool readAt.loaded
      (pool.withReserves_updates nonneg0 nonneg1)).trans ?_
    simp only [Pool.owed, Pool.withReserves, PoolReserves.owed, lowerMaker, upperMaker,
      change]

section Tranche

variable {address trancheKey : String} {user : LimitOrderTrancheUser}
  {tranche updated : LimitOrderTranche} {book : OrderBook} {makerOut takerOut : PrecDec}
  (wellFormed : dex.WellFormed)
  (holder : dex.getLimitOrderTrancheUser address trancheKey = some user)
  (held : dex.book.Holds tranche) (key : tranche.key = user.limitOrderTrancheKey)
  (replaces : Replaces dex.book tranche updated book)

include wellFormed holder held key replaces

theorem cancel (cancels : Cancels tranche user makerOut takerOut updated)
    (expirations : IndexedStore LimitOrderExpirationKey LimitOrderExpiration
      LimitOrderExpiration.key) :
    Keeps dex (-(Flow.coin user.tradePairID.makerDenom makerOut +
        Flow.coin user.tradePairID.takerDenom takerOut))
      { dex.updateTrancheUser user.exited with
        book := book
        expirations := expirations } where
  wellFormed := by
    have total : updated.totalMakerDenom =
        tranche.totalMakerDenom - user.sharesOwned := by
      rw [cancels.eq_cancelled]
      rfl
    rw [DexState.updateTrancheUser_eq, if_pos user.exited_isEmpty, user.exited_key]
    exact ⟨replaces.wellFormed, wellFormed.registry,
      wellFormed.pools.congr replaces.poolReserves,
      wellFormed.orders.cancel holder held key cancels.key total replaces.holds⟩
  owed := by
    refine replaces.owed.trans ?_
    rw [cancels.owed, key]
    rfl

theorem payTaker
    (withdraw : tranche.withdraw user = .ok (shares, takerOut, updated)) :
    Keeps dex (-(Flow.coin user.tradePairID.takerDenom takerOut))
      ({ dex with book := book }.updateTrancheUser
        { user with decSharesWithdrawn := user.decSharesWithdrawn + shares }) := by
  obtain ⟨amounts, _, isUpdated⟩ := LimitOrderTranche.withdraw_eq_ok withdraw
  have sameKey : updated.key = tranche.key := by rw [isUpdated]
  have total : updated.totalMakerDenom = tranche.totalMakerDenom := by rw [isUpdated]
  have owed : updated.owed - tranche.owed =
      -(Flow.coin user.tradePairID.takerDenom takerOut) := by
    have denom : tranche.key.tradePairID = user.tradePairID := by
      rw [key]
      rfl
    rw [isUpdated]
    simp only [LimitOrderTranche.owed, Flow.coin_sub, denom]
    abel
  have orders := wellFormed.orders.withdrawFilled holder held sameKey total
    replaces.holds amounts
  rw [DexState.updateTrancheUser_eq] at orders ⊢
  exact ⟨⟨replaces.wellFormed, wellFormed.registry,
    wellFormed.pools.congr replaces.poolReserves, orders⟩,
    replaces.owed.trans (by rw [owed])⟩

theorem payBoth (sameKey : updated.key = tranche.key)
    (total : updated.totalMakerDenom = tranche.totalMakerDenom)
    (owed : updated.owed - tranche.owed =
      -(Flow.coin tranche.key.tradePairID.makerDenom makerOut +
        Flow.coin tranche.key.tradePairID.takerDenom takerOut)) :
    Keeps dex (-(Flow.coin user.tradePairID.makerDenom makerOut +
        Flow.coin user.tradePairID.takerDenom takerOut))
      ({ dex with book := book }.updateTrancheUser user.exited) := by
  rw [DexState.updateTrancheUser_eq, if_pos user.exited_isEmpty, user.exited_key]
  refine ⟨⟨replaces.wellFormed, wellFormed.registry,
    wellFormed.pools.congr replaces.poolReserves,
    wellFormed.orders.leave holder held sameKey total replaces.holds⟩,
    replaces.owed.trans ?_⟩
  rw [owed, key]
  rfl

end Tranche

variable {now : Time} {opened : DexState} {tranche : LimitOrderTranche}

theorem owed_opened
    (opens : Opened now dex tranche opened) (wellFormed : dex.WellFormed) :
    (dex.book.getLimitOrderTranche tranche.key).elim 0 LimitOrderTranche.owed =
      tranche.owed := by
  cases opens with
  | existing stored _ _ => rw [stored, Option.elim_some]
  | @fresh tradePairID tickIndex goodTil _ _ =>
      cases stored : dex.book.getLimitOrderTranche
          ⟨tradePairID, tickIndex, trancheKeyText dex.trancheCount⟩ with
      | none =>
          rw [LimitOrderTranche.owed, LimitOrderTranche.new]
          dsimp only
          rw [stored, Option.elim_none, Flow.coin_zero, Flow.coin_zero, add_zero]
      | some other =>
          have key := OrderBook.getLimitOrderTranche_key stored
          exact absurd (congrArg LimitOrderTrancheKey.trancheKey key)
            (wellFormed.orders.not_holds_next (.of_active stored))

theorem place {now : Time} {opened : DexState} {tranche : LimitOrderTranche}
    {address : String} {user : LimitOrderTrancheUser} {amount : Int}
    (wellFormed : dex.WellFormed) (opens : Opened now dex tranche opened)
    (holder : Holder dex tranche.key address user) (positive : 0 < amount) :
    Keeps dex (Flow.coin tranche.key.tradePairID.makerDenom (newPrecDecFromInt amount))
      (((opened.recordExpirationOf (tranche.placed amount)).updateBook
        (updateTranche (tranche.placed amount))).updateTrancheUser
          { user with sharesOwned := user.sharesOwned + amount }) := by
  have sound := opens.sound wellFormed positive
  have notInactive := opens.notInactive wellFormed
  have registry : Registry opened.poolMetadata opened.poolIDs opened.poolCount := by
    cases opens <;> exact wellFormed.registry
  have pools : PoolsRegistered (dex.book.writeAll
      (updateTranche (tranche.placed amount))) opened.poolIDs := by
    refine PoolsRegistered.congr ?_ (OrderBook.getPoolReserves_updateTranche dex.book _)
    cases opens <;> exact wellFormed.pools
  rw [DexState.updateTrancheUser_eq,
    if_neg (holder.sound wellFormed.orders positive).not_isEmpty,
    DexState.recordExpirationOf_eq, DexState.updateBook]
  dsimp only
  rw [opens.book, opens.trancheUsers]
  refine ⟨⟨wellFormed.book.updateTranche sound notInactive, registry, pools,
    opens.orders holder wellFormed positive⟩, ?_⟩
  refine (OrderBook.owed_updateTranche sound notInactive).trans ?_
  have before : (dex.book.getLimitOrderTranche (tranche.placed amount).key).elim 0
      LimitOrderTranche.owed = tranche.owed := owed_opened opens wellFormed
  rw [before]
  simp only [LimitOrderTranche.owed, LimitOrderTranche.placed, Flow.coin_add]
  abel

end Keeps

variable {id : Nat}

namespace Move

variable {rules : Rules} {dex next : DexState} {flow : Flow}

theorem keeps (move : Move rules dex flow next) (wellFormed : dex.WellFormed) :
    Keeps dex flow next := by
  cases move with
  | visit visit =>
      exact ⟨⟨visit.wellFormed wellFormed.book, wellFormed.registry,
        visit.poolsRegistered wellFormed.book wellFormed.pools,
        wellFormed.orders.ofTranches (visit.holds wellFormed.book)⟩,
        visit.owed wellFormed.book⟩
  | registerPool absent upperInRange lowerInRange =>
      exact ⟨⟨wellFormed.book,
        wellFormed.registry.register absent upperInRange lowerInRange,
        wellFormed.pools.register _ _, wellFormed.orders⟩, (add_zero _).symm⟩
  | deposit registered _ readAt nonneg0 nonneg1 _ =>
      have lower := readAt.loaded.lower_nonneg wellFormed.book
      have upper := readAt.loaded.upper_nonneg wellFormed.book
      refine .reserve wellFormed registered readAt (Int.add_nonneg lower nonneg0)
        (Int.add_nonneg upper nonneg1) ?_
      rw [Flow.coin_add, Flow.coin_add]
      abel
  | withdraw registered readAt nonneg0 nonneg1 within0 within1 =>
      refine .reserve wellFormed registered readAt (Int.sub_nonneg_of_le within0)
        (Int.sub_nonneg_of_le within1) ?_
      rw [Flow.coin_sub, Flow.coin_sub]
      abel
  | issueTrancheKey =>
      exact ⟨⟨wellFormed.book, wellFormed.registry, wellFormed.pools,
        wellFormed.orders.issue⟩,
        (add_zero _).symm⟩
  | place opens holder positive _ => exact .place wellFormed opens holder positive
  | cancelActive holder stored cancel _ =>
      have cancels := cancelInTranche_cancels cancel
      have replaces := wellFormed.book.replaceActive stored
        (cancels.sound (wellFormed.book.active stored).2) cancels.key
      rw [dropExpiration_eq, DexState.updateBook, DexState.updateTrancheUser_book]
      exact .cancel wellFormed holder (.of_active stored)
        (OrderBook.getLimitOrderTranche_key stored) replaces cancels _
  | cancelInactive holder stored notActive cancel =>
      have cancels := cancelInTranche_cancels cancel
      have replaces := wellFormed.book.replaceInactive stored notActive
        (cancels.sound (wellFormed.book.inactive stored).2) cancels.key
      rw [dropExpiration_eq, DexState.updateBook, DexState.updateTrancheUser_book]
      exact .cancel wellFormed holder (.of_inactive stored)
        (dex.book.inactiveTranches.keyOf_eq stored) replaces cancels _
  | withdrawActive holder stored withdraw _ _ =>
      obtain ⟨sound, sameKey⟩ :=
        LimitOrderTranche.Sound.of_withdraw (wellFormed.book.active stored).2 withdraw
      have replaces := wellFormed.book.replaceActive stored sound sameKey
      exact .payTaker wellFormed holder (.of_active stored)
        (OrderBook.getLimitOrderTranche_key stored) replaces withdraw
  | withdrawInactive holder stored notActive withdraw remove =>
      obtain ⟨_, taker, rfl⟩ := LimitOrderTranche.withdraw_eq_ok withdraw
      obtain ⟨maker, rfl⟩ := LimitOrderTranche.removeTokenIn_eq_ok remove
      have sound := (wellFormed.book.inactive stored).2.paidOut maker taker
      have replaces := wellFormed.book.replaceInactive stored notActive sound rfl
      exact .payBoth wellFormed holder (.of_inactive stored)
        (dex.book.inactiveTranches.keyOf_eq stored) replaces rfl rfl
        (LimitOrderTranche.owed_paidOut _ _ _)
  | dropRecord _ => exact .idle wellFormed rfl rfl rfl rfl rfl rfl
  | archive stored =>
      have key := OrderBook.getLimitOrderTranche_key stored
      rw [← key] at stored
      refine ⟨⟨wellFormed.book.archiveTranche stored, wellFormed.registry,
        wellFormed.pools.congr (OrderBook.getPoolReserves_archiveTranche _ _),
        wellFormed.orders.ofTranches fun held =>
          ⟨_, held.of_archiveTranche stored, rfl, rfl⟩⟩, ?_⟩
      rw [add_zero]
      exact OrderBook.owed_archiveTranche stored (wellFormed.book.exclusive stored)
  | countJITs _ => exact .idle wellFormed rfl rfl rfl rfl rfl rfl
  | setParams _ => exact .idle wellFormed rfl rfl rfl rfl rfl rfl

theorem fractionalBalances (move : Move rules dex flow next) :
    next.fractionalBalances = dex.fractionalBalances := by
  cases move with
  | place opens _ _ _ =>
      rw [DexState.updateTrancheUser_eq, DexState.recordExpirationOf_eq]
      cases opens <;> rfl
  | cancelActive _ _ _ _ | cancelInactive _ _ _ _ =>
      rw [dropExpiration_eq, DexState.updateTrancheUser_eq]
      rfl
  | withdrawActive _ _ _ _ _ | withdrawInactive _ _ _ _ _ =>
      rw [DexState.updateTrancheUser_eq]
      rfl
  | _ => rfl

theorem registered (move : Move rules dex flow next) {key : PoolIDKey}
    (isID : dex.poolIDs.get? key = some id) : next.poolIDs.get? key = some id := by
  cases move with
  | registerPool absent _ _ =>
      refine (SortedStore.get?_set_of_ne _ _ ?_).trans isID
      rintro rfl
      rw [absent] at isID
      cases isID
  | place opens _ _ _ =>
      rw [DexState.updateTrancheUser_eq, DexState.recordExpirationOf_eq]
      cases opens <;> exact isID
  | cancelActive _ _ _ _ | cancelInactive _ _ _ _ =>
      rw [dropExpiration_eq, DexState.updateTrancheUser_eq]
      exact isID
  | withdrawActive _ _ _ _ _ | withdrawInactive _ _ _ _ _ =>
      rw [DexState.updateTrancheUser_eq]
      exact isID
  | _ => exact isID

end Move

namespace Moves

variable {rules : Rules} {dex final : DexState} {flow : Flow}

theorem keeps (moves : Moves rules dex flow final) (wellFormed : dex.WellFormed) :
    Keeps dex flow final := by
  induction moves with
  | nil dex => exact ⟨wellFormed, (add_zero _).symm⟩
  | cons move _ ih =>
      have first := move.keeps wellFormed
      have rest := ih first.wellFormed
      refine ⟨rest.wellFormed, ?_⟩
      rw [rest.owed, first.owed, add_assoc]

theorem fractionalBalances (moves : Moves rules dex flow final) :
    final.fractionalBalances = dex.fractionalBalances := by
  induction moves with
  | nil dex => rfl
  | cons move _ ih => rw [ih, move.fractionalBalances]

theorem registered (moves : Moves rules dex flow final) {key : PoolIDKey}
    (isID : dex.poolIDs.get? key = some id) : final.poolIDs.get? key = some id :=
  moves.invariant (fun isRegistered move => move.registered isRegistered) isID

theorem wellFormed (moves : Moves rules dex flow final) (start : dex.WellFormed) :
    final.WellFormed :=
  (moves.keeps start).wellFormed

end Moves

end Neutron.Dex
