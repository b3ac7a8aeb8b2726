import Neutron.Dex.Moves
import Neutron.Dex.Orders
import Neutron.Dex.TrancheSpec

namespace Neutron.Dex

open Library PrecDec

/-- Pools are numbered, and the numbers and the parameters refer to each other. -/
structure Registry (poolMetadata : IndexedStore Nat PoolMetadata PoolMetadata.id)
    (poolIDs : SortedStore PoolIDKey Nat) (poolCount : Nat) : Prop where
  ids : ∀ id, (∃ metadata, poolMetadata.get? id = some metadata) ↔ id < poolCount
  referenced : ∀ {id metadata}, poolMetadata.get? id = some metadata →
    poolIDs.get? ⟨metadata.pairID, metadata.tick, metadata.fee⟩ = some id
  described : ∀ {key id}, poolIDs.get? key = some id →
    poolMetadata.get? id =
      some ⟨id, key.pairID, key.centerTickIndexNormalized, key.fee⟩
  inRange : ∀ {key id}, poolIDs.get? key = some id →
    ¬ IsTickOutOfRange (key.centerTickIndexNormalized + key.fee) ∧
      ¬ IsTickOutOfRange (-key.centerTickIndexNormalized + key.fee)

structure DexState.WellFormed (dex : DexState) : Prop where
  book : dex.book.WellFormed
  registry : Registry dex.poolMetadata dex.poolIDs dex.poolCount
  pools : PoolsRegistered dex.book dex.poolIDs
  orders : Orders dex.book dex.trancheUsers dex.trancheCount

theorem DexState.wellFormed_empty (params : Params) :
    (DexState.empty params).WellFormed where
  book := OrderBook.wellFormed_empty
  registry := {
    ids := fun id => ⟨fun ⟨_, impossible⟩ => (nomatch impossible),
      fun impossible => absurd impossible (Nat.not_lt_zero id)⟩
    referenced := fun impossible => nomatch impossible
    described := fun impossible => nomatch impossible
    inRange := fun impossible => nomatch impossible }
  pools := fun _ _ impossible => nomatch impossible
  orders := {
    issued := fun held => by rcases held with impossible | impossible <;> cases impossible
    unique := fun held => by rcases held with impossible | impossible <;> cases impossible
    userIssued := fun impossible => nomatch impossible
    userSound := fun impossible => nomatch impossible
    userKey := fun impossible => nomatch impossible
    shares := fun held => by
      rcases held with impossible | impossible <;> cases impossible }

theorem DexState.updateTrancheUser_eq (dex : DexState) (user : LimitOrderTrancheUser) :
    dex.updateTrancheUser user = { dex with
      trancheUsers :=
        if user.IsEmpty then dex.trancheUsers.delete user.key
        else dex.trancheUsers.set user } := by
  unfold updateTrancheUser
  split <;> rfl

@[simp] theorem DexState.updateTrancheUser_book (dex : DexState)
    (user : LimitOrderTrancheUser) : (dex.updateTrancheUser user).book = dex.book := by
  rw [updateTrancheUser_eq]

theorem LimitOrderTrancheUser.exited_isEmpty (user : LimitOrderTrancheUser) :
    user.exited.IsEmpty := rfl

@[simp] theorem LimitOrderTrancheUser.exited_key (user : LimitOrderTrancheUser) :
    user.exited.key = user.key := rfl

theorem dropExpiration_eq (dex : DexState) (tranche : LimitOrderTranche) :
    dropExpiration dex tranche =
      { dex with expirations := (dropExpiration dex tranche).expirations } := by
  unfold dropExpiration
  split
  · rfl
  · split <;> rfl

theorem DexState.recordExpirationOf_eq (dex : DexState) (tranche : LimitOrderTranche) :
    dex.recordExpirationOf tranche =
      { dex with expirations := (dex.recordExpirationOf tranche).expirations } := by
  unfold recordExpirationOf
  split <;> rfl

theorem Registry.register {dex : DexState} {pairID : PairID} {center : Int} {fee : Nat}
    (registry : Registry dex.poolMetadata dex.poolIDs dex.poolCount)
    (absent : dex.poolIDs.get? ⟨pairID, center, fee⟩ = none)
    (upperInRange : ¬ IsTickOutOfRange (center + fee))
    (lowerInRange : ¬ IsTickOutOfRange (-center + fee)) :
    Registry (dex.poolMetadata.set ⟨dex.poolCount, pairID, center, fee⟩)
      (dex.poolIDs.set ⟨pairID, center, fee⟩ dex.poolCount) (dex.poolCount + 1) where
  ids id := by
    constructor
    · rintro ⟨metadata, stored⟩
      rcases IndexedStore.get?_of_get?_set _ stored with rfl | ⟨_, before⟩
      · have same := IndexedStore.keyOf_eq _ stored
        dsimp only at same
        omega
      · have below := (registry.ids id).mp ⟨metadata, before⟩
        omega
    · intro below
      rw [IndexedStore.get?_set]
      split
      · exact ⟨_, rfl⟩
      · rename_i different
        have different : id ≠ dex.poolCount := different
        exact (registry.ids id).mpr (by omega)
  referenced {id metadata} stored := by
    rcases IndexedStore.get?_of_get?_set _ stored with rfl | ⟨_, before⟩
    · have same := IndexedStore.keyOf_eq _ stored
      dsimp only at same
      rw [← same, SortedStore.get?_set_self]
    · have reference := registry.referenced before
      rw [SortedStore.get?_set_of_ne]
      · exact reference
      · intro same
        rw [same, absent] at reference
        cases reference
  described {key id} stored := by
    rcases SortedStore.of_get?_set stored with ⟨isNew, rfl⟩ | ⟨_, stored⟩
    · rw [isNew]
      exact IndexedStore.get?_set_self _ _
    · have before := registry.described stored
      have below := (registry.ids id).mp ⟨_, before⟩
      rw [IndexedStore.get?_set_of_ne]
      · exact before
      · exact Nat.ne_of_lt below
  inRange {key id} stored := by
    rw [SortedStore.get?_set] at stored
    split at stored
    · rename_i isNew
      rw [isNew]
      exact ⟨upperInRange, lowerInRange⟩
    · exact registry.inRange stored

theorem Pool.withReserves_updates (pool : Pool) {reserves0 reserves1 : PrecDec}
    (nonneg0 : 0 ≤ reserves0.i) (nonneg1 : 0 ≤ reserves1.i) :
    pool.Updates (pool.withReserves reserves0 reserves1) :=
  ⟨rfl, rfl, rfl, rfl, nonneg0, nonneg1⟩

namespace OrderBook

variable {book : OrderBook}

theorem holds_of_update {tranche updated other : LimitOrderTranche}
    (after : other = updated ∨ (other.key ≠ updated.key ∧ book.Holds other))
    (held : book.Holds tranche) (sameKey : updated.key = tranche.key)
    (sameTotal : updated.totalMakerDenom = tranche.totalMakerDenom) :
    ∃ before, book.Holds before ∧ before.key = other.key ∧
      before.totalMakerDenom = other.totalMakerDenom := by
  rcases after with rfl | ⟨_, before⟩
  · exact ⟨tranche, held, sameKey.symm, sameTotal.symm⟩
  · exact ⟨other, before, rfl, rfl⟩

end OrderBook

theorem LimitOrderTrancheUser.key_eq_of_stored {users : TrancheUsers}
    {address trancheKey : String} {user : LimitOrderTrancheUser}
    (stored : users.get? (toLex (address, trancheKey)) = some user) :
    user.address = address ∧ user.trancheKey = trancheKey := by
  have same := users.keyOf_eq stored
  exact ⟨congrArg (fun key => (ofLex key).1) same,
    congrArg (fun key => (ofLex key).2) same⟩

namespace Visit

variable {now : Time} {tradePairID : TradePairID} {book next : OrderBook}
  {inAmount outAmount : PrecDec}

theorem holds (visit : Visit now tradePairID book inAmount outAmount next)
    (wellFormed : book.WellFormed) {other : LimitOrderTranche}
    (held : next.Holds other) :
    ∃ before, book.Holds before ∧ before.key = other.key ∧
      before.totalMakerDenom = other.totalMakerDenom := by
  cases visit with
  | pool _ _ _ _ _ _ _ =>
      exact ⟨other, OrderBook.holds_updatePool_iff.mp held, rfl, rfl⟩
  | @tranche tranche _ _ stored _ _ _ _ _ =>
      exact OrderBook.holds_of_update
        (held.of_updateTranche (wellFormed.exclusive stored)) (.inl stored) rfl rfl

theorem poolsRegistered (visit : Visit now tradePairID book inAmount outAmount next)
    (wellFormed : book.WellFormed) {poolIDs : SortedStore PoolIDKey Nat}
    (registered : PoolsRegistered book poolIDs) : PoolsRegistered next poolIDs := by
  cases visit with
  | @pool pool _ _ loaded stored _ _ inNonneg outNonneg outLe =>
      refine registered.updatePool loaded
        (loaded.traded_updates wellFormed inNonneg outLe) ?_
      have known := registered _ _ stored
      rcases pool.sides_cases tradePairID with ⟨maker, _⟩ | ⟨_, maker⟩
      · rwa [← maker, loaded.counterpart, PoolReservesKey.poolIDKey_counterpart] at known
      · rwa [← maker] at known
  | tranche _ _ _ _ _ _ _ =>
      exact registered.congr fun key => OrderBook.getPoolReserves_updateTranche _ _ _

end Visit

section Place

variable {now : Time} {dex opened : DexState} {tranche : LimitOrderTranche}
  {user : LimitOrderTrancheUser} {address : String} {amount : Int}

theorem Opened.book (opens : Opened now dex tranche opened) :
    opened.book = dex.book := by
  cases opens <;> rfl

theorem Opened.trancheUsers (opens : Opened now dex tranche opened) :
    opened.trancheUsers = dex.trancheUsers := by
  cases opens <;> rfl

theorem Orders.not_holds_next (orders : Orders dex.book dex.trancheUsers dex.trancheCount)
    {other : LimitOrderTranche} (held : dex.book.Holds other) :
    other.key.trancheKey ≠ trancheKeyText dex.trancheCount := fun same =>
  not_issued_next dex.trancheCount (same ▸ orders.issued held)

theorem Orders.no_user_next (orders : Orders dex.book dex.trancheUsers dex.trancheCount)
    {key : String ×ₗ String} (stored : dex.trancheUsers.get? key = some user) :
    user.trancheKey ≠ trancheKeyText dex.trancheCount := fun same =>
  not_issued_next dex.trancheCount (same ▸ orders.userIssued stored)

theorem Opened.notInactive (opens : Opened now dex tranche opened)
    (wellFormed : dex.WellFormed) :
    dex.book.getInactiveLimitOrderTranche tranche.key = none := by
  cases opens with
  | existing stored _ _ => exact wellFormed.book.exclusive stored
  | @fresh tradePairID tickIndex goodTil _ _ =>
      cases stored : dex.book.getInactiveLimitOrderTranche
          ⟨tradePairID, tickIndex, trancheKeyText dex.trancheCount⟩ with
      | none => exact stored
      | some other =>
          have key : other.key = _ := dex.book.inactiveTranches.keyOf_eq stored
          exact absurd (congrArg LimitOrderTrancheKey.trancheKey key)
            (wellFormed.orders.not_holds_next (.of_inactive stored))

theorem Opened.sound (opens : Opened now dex tranche opened)
    (wellFormed : dex.WellFormed) (positive : 0 < amount) :
    (tranche.placed amount).Sound := by
  have placed : 0 ≤ (newPrecDecFromInt amount).i :=
    Int.mul_nonneg (le_of_lt positive) (Int.natCast_nonneg _)
  cases opens with
  | existing stored _ _ =>
      have sound := (wellFormed.book.active stored).2
      have maker := sound.maker
      refine ⟨?_, sound.taker, sound.totalTaker, sound.price, sound.inRange⟩
      simp only [LimitOrderTranche.placed, add_i]
      omega
  | fresh inRange _ =>
      refine ⟨?_, le_refl 0, le_refl 0, rfl, inRange⟩
      simp only [LimitOrderTranche.placed, LimitOrderTranche.new, add_i, zeroPrecDec_i]
      omega

theorem Holder.key (holder : Holder dex tranche.key address user) :
    user.limitOrderTrancheKey = tranche.key := by
  cases holder with
  | existing _ sameKey => exact sameKey
  | fresh _ => rfl

theorem Holder.user_address (holder : Holder dex tranche.key address user) :
    user.address = address := by
  cases holder with
  | existing stored _ => exact (LimitOrderTrancheUser.key_eq_of_stored stored).1
  | fresh _ => rfl

theorem Holder.sound (holder : Holder dex tranche.key address user)
    (orders : Orders dex.book dex.trancheUsers dex.trancheCount)
    (positive : 0 < amount) :
    ({ user with sharesOwned := user.sharesOwned + amount } :
      LimitOrderTrancheUser).Sound := by
  have unit : (0 : Int) < precisionReuse := by decide
  cases holder with
  | existing stored _ =>
      have sound := orders.userSound stored
      have owned := sound.owned
      refine ⟨by dsimp only; omega, sound.withdrawn, ?_⟩
      have grows : user.sharesOwned * precisionReuse ≤
          (user.sharesOwned + amount) * precisionReuse :=
        mul_le_mul_of_nonneg_right (by omega) (le_of_lt unit)
      exact lt_of_lt_of_le sound.remaining grows
  | fresh _ =>
      refine ⟨by dsimp only; omega, le_refl 0, ?_⟩
      dsimp only
      rw [zero_add, zeroPrecDec_i]
      exact Int.mul_pos positive unit

theorem Holder.sharesOwned_set (holder : Holder dex tranche.key address user)
    (amount : Int) :
    sharesOwned (dex.trancheUsers.set
        { user with sharesOwned := user.sharesOwned + amount }) tranche.key.trancheKey =
      sharesOwned dex.trancheUsers tranche.key.trancheKey + amount := by
  have text : user.trancheKey = tranche.key.trancheKey :=
    congrArg LimitOrderTrancheKey.trancheKey holder.key
  have key : ({ user with sharesOwned := user.sharesOwned + amount } :
      LimitOrderTrancheUser).key = toLex (address, tranche.key.trancheKey) := by
    rw [← text, ← holder.user_address]
    rfl
  rw [Dex.sharesOwned_set, key, if_pos text]
  cases holder with
  | existing stored _ =>
      have found : dex.trancheUsers.get? (toLex (address, tranche.key.trancheKey)) =
        some user := stored
      rw [found, Option.elim_some, if_pos text]
      dsimp only
      omega
  | fresh absent =>
      have found : dex.trancheUsers.get? (toLex (address, tranche.key.trancheKey)) =
        none := absent
      rw [found, Option.elim_none]
      dsimp only
      omega

theorem Opened.orders (opens : Opened now dex tranche opened)
    (holder : Holder dex tranche.key address user) (wellFormed : dex.WellFormed)
    (positive : 0 < amount) :
    Orders (dex.book.writeAll (updateTranche (tranche.placed amount)))
      (dex.trancheUsers.set { user with sharesOwned := user.sharesOwned + amount })
      opened.trancheCount := by
  have orders := wellFormed.orders
  have tranches : ∀ {other : LimitOrderTranche},
      (dex.book.writeAll (updateTranche (tranche.placed amount))).Holds other →
        other = tranche.placed amount ∨
          (other.key ≠ (tranche.placed amount).key ∧ dex.book.Holds other) :=
    fun held => held.of_updateTranche (opens.notInactive wellFormed)
  have sound := holder.sound orders positive
  have grown := holder.sharesOwned_set amount
  have userKey := holder.key
  cases opens with
  | existing stored _ _ =>
      have opened : dex.book.Holds tranche := .inl stored
      have issued := orders.issued opened
      refine orders.place tranches sound userKey issued ?_ ?_ ?_
      · intro other held same
        exact (orders.unique held opened same :)
      · intro key coholder storedUser same
        exact (orders.userKey storedUser opened same.symm :)
      · have bound := orders.shares opened
        change sharesOwned _ tranche.key.trancheKey ≤ tranche.totalMakerDenom + amount
        rw [grown]
        omega
  | fresh _ _ =>
      refine orders.issue.place tranches sound userKey
        ⟨dex.trancheCount, Nat.lt_succ_self _, rfl⟩ ?_ ?_ ?_
      · exact fun held same => absurd same (orders.not_holds_next held)
      · exact fun storedUser same => absurd same (orders.no_user_next storedUser)
      · have nobody : sharesOwned dex.trancheUsers
            (trancheKeyText dex.trancheCount) = 0 :=
          sharesOwned_eq_zero orders.no_user_next
        refine le_of_eq (grown.trans ?_)
        rw [LimitOrderTranche.new, nobody]
        rfl

end Place

end Neutron.Dex
