import Neutron.Dex.Reserves

namespace Neutron.Dex

open Library PrecDec

namespace PoolReservesKey

theorem counterpart_ne (key : PoolReservesKey) : key.counterpart ≠ key := fun same =>
  key.tradePairID.reversed_ne (congrArg PoolReservesKey.tradePairID same)

end PoolReservesKey

theorem PoolReserves.Loaded.updatePoolReserves_of_ne {book : OrderBook}
    {loaded updated : PoolReserves} (wasLoaded : loaded.Loaded book)
    (different : loaded.key ≠ updated.key) :
    loaded.Loaded (book.write (updatePoolReserves updated)) := by
  unfold Loaded
  rw [OrderBook.getPoolReserves_updatePoolReserves, if_neg different]
  exact wasLoaded

namespace Pool

def owed (pool : Pool) : Flow := pool.lowerTick0.owed + pool.upperTick1.owed

structure Loaded (book : OrderBook) (pool : Pool) : Prop where
  lower : pool.lowerTick0.Loaded book
  upper : pool.upperTick1.Loaded book
  counterpart : pool.lowerTick0.key = pool.upperTick1.key.counterpart
  lowerPriced : pool.lowerTick0.Priced
  upperPriced : pool.upperTick1.Priced

structure Updates (pool updated : Pool) : Prop where
  lowerKey : updated.lowerTick0.key = pool.lowerTick0.key
  upperKey : updated.upperTick1.key = pool.upperTick1.key
  lowerPrice : updated.lowerTick0.makerPrice = pool.lowerTick0.makerPrice
  upperPrice : updated.upperTick1.makerPrice = pool.upperTick1.makerPrice
  lowerNonneg : 0 ≤ updated.lowerTick0.decReservesMakerDenom.i
  upperNonneg : 0 ≤ updated.upperTick1.decReservesMakerDenom.i

theorem Loaded.lowerKey_ne_upperKey {book : OrderBook} {pool : Pool}
    (loaded : pool.Loaded book) : pool.lowerTick0.key ≠ pool.upperTick1.key := by
  rw [loaded.counterpart]
  exact PoolReservesKey.counterpart_ne _

namespace Updates

variable {pool updated : Pool} (updates : pool.Updates updated)

include updates

theorem lowerPriced (priced : pool.lowerTick0.Priced) :
    updated.lowerTick0.Priced where
  price := by rw [updates.lowerPrice, updates.lowerKey, priced.price]
  inRange := by rw [updates.lowerKey]; exact priced.inRange

theorem upperPriced (priced : pool.upperTick1.Priced) :
    updated.upperTick1.Priced where
  price := by rw [updates.upperPrice, updates.upperKey, priced.price]
  inRange := by rw [updates.upperKey]; exact priced.inRange

end Updates

end Pool

namespace OrderBook

variable {book : OrderBook}

theorem getPoolReserves_updatePool (book : OrderBook) (pool : Pool)
    (key : PoolReservesKey) :
    (book.writeAll (updatePool pool)).getPoolReserves key =
      if key = pool.upperTick1.key then
        if pool.upperTick1.HasToken then some pool.upperTick1 else none
      else if key = pool.lowerTick0.key then
        if pool.lowerTick0.HasToken then some pool.lowerTick0 else none
      else
        book.getPoolReserves key := by
  simp only [updatePool, writeAll_cons, writeAll_nil,
    getPoolReserves_updatePoolReserves]

@[simp] theorem getLimitOrderTranche_updatePool (book : OrderBook) (pool : Pool)
    (key : LimitOrderTrancheKey) :
    (book.writeAll (updatePool pool)).getLimitOrderTranche key =
      book.getLimitOrderTranche key := by
  simp [updatePool]

@[simp] theorem inactiveTranches_updatePool (book : OrderBook) (pool : Pool) :
    (book.writeAll (updatePool pool)).inactiveTranches = book.inactiveTranches := by
  simp [updatePool]

@[simp] theorem getInactiveLimitOrderTranche_updatePool (book : OrderBook) (pool : Pool)
    (key : LimitOrderTrancheKey) :
    (book.writeAll (updatePool pool)).getInactiveLimitOrderTranche key =
      book.getInactiveLimitOrderTranche key := by
  simp [getInactiveLimitOrderTranche]

theorem getPoolReserves_of_updatePool {pool : Pool} {key : PoolReservesKey}
    {reserves : PoolReserves}
    (found : (book.writeAll (updatePool pool)).getPoolReserves key = some reserves) :
    (reserves = pool.upperTick1 ∧ key = pool.upperTick1.key ∧ reserves.HasToken) ∨
      (reserves = pool.lowerTick0 ∧ key = pool.lowerTick0.key ∧ reserves.HasToken) ∨
      (key ≠ pool.upperTick1.key ∧ key ≠ pool.lowerTick0.key ∧
        book.getPoolReserves key = some reserves) := by
  rw [getPoolReserves_updatePool] at found
  split_ifs at found with isUpper token isLower token
  · cases found
    exact .inl ⟨rfl, isUpper, token⟩
  · cases found
    exact .inr (.inl ⟨rfl, isLower, token⟩)
  · exact .inr (.inr ⟨isUpper, isLower, found⟩)

variable {updated : Pool}

theorem owed_updatePool {pool : Pool} (loaded : pool.Loaded book)
    (updates : pool.Updates updated) :
    (book.writeAll (updatePool updated)).owed =
      book.owed + (updated.owed - pool.owed) := by
  have upperLoaded : pool.upperTick1.Loaded
      (book.write (updatePoolReserves updated.lowerTick0)) := by
    apply loaded.upper.updatePoolReserves_of_ne
    rw [updates.lowerKey]
    exact loaded.lowerKey_ne_upperKey.symm
  change ((book.write (updatePoolReserves updated.lowerTick0)).write
    (updatePoolReserves updated.upperTick1)).owed = _
  rw [owed_updatePoolReserves upperLoaded updates.upperKey updates.upperNonneg,
    owed_updatePoolReserves loaded.lower updates.lowerKey updates.lowerNonneg,
    Pool.owed, Pool.owed]
  abel

namespace WellFormed

variable (wellFormed : book.WellFormed)

include wellFormed

theorem updatePool {pool : Pool} (loaded : pool.Loaded book)
    (updates : pool.Updates updated) :
    (book.writeAll (updatePool updated)).WellFormed where
  pool found := by
    rcases getPoolReserves_of_updatePool found with
      ⟨isUpper, _, token⟩ | ⟨isLower, _, token⟩ | ⟨_, _, before⟩
    · exact ⟨token, isUpper ▸ updates.upperPriced loaded.upperPriced⟩
    · exact ⟨token, isLower ▸ updates.lowerPriced loaded.lowerPriced⟩
    · exact wellFormed.pool before
  active found := by
    rw [getLimitOrderTranche_updatePool] at found
    exact wellFormed.active found
  inactive found := by
    rw [getInactiveLimitOrderTranche_updatePool] at found
    exact wellFormed.inactive found
  exclusive found := by
    rw [getLimitOrderTranche_updatePool] at found
    rw [getInactiveLimitOrderTranche_updatePool]
    exact wellFormed.exclusive found

variable {tranche : LimitOrderTranche}

theorem updateTranche (sound : tranche.Sound)
    (notInactive : book.getInactiveLimitOrderTranche tranche.key = none) :
    (book.writeAll (updateTranche tranche)).WellFormed where
  pool found := by
    rw [getPoolReserves_updateTranche] at found
    exact wellFormed.pool found
  active found := by
    rw [getLimitOrderTranche_updateTranche] at found
    split_ifs at found with same token
    · cases found
      exact ⟨token, sound⟩
    · exact wellFormed.active found
  inactive found := by
    rw [getInactiveLimitOrderTranche_updateTranche] at found
    split_ifs at found with left
    · cases found
      exact ⟨.inr left.2.2, sound⟩
    · exact wellFormed.inactive found
  exclusive found := by
    rw [getLimitOrderTranche_updateTranche] at found
    rw [getInactiveLimitOrderTranche_updateTranche]
    split_ifs at found with same token
    · rw [if_neg fun left => left.2.1 token, same]
      exact notInactive
    · rw [if_neg fun left => same left.1]
      exact wellFormed.exclusive found

theorem updateInactiveTranche (sound : tranche.Sound)
    (notActive : book.getLimitOrderTranche tranche.key = none) :
    (book.writeAll (updateInactiveTranche tranche)).WellFormed where
  pool found := by
    rw [getPoolReserves, tickLiquidity_updateInactiveTranche] at found
    exact wellFormed.pool found
  active found := by
    rw [getLimitOrderTranche, tickLiquidity_updateInactiveTranche] at found
    exact wellFormed.active found
  inactive found := by
    rw [getInactiveLimitOrderTranche_updateInactiveTranche] at found
    split_ifs at found with same tokens
    · cases found
      exact ⟨tokens, sound⟩
    · exact wellFormed.inactive found
  exclusive {key other} found := by
    rw [getLimitOrderTranche, tickLiquidity_updateInactiveTranche] at found
    change book.getLimitOrderTranche key = some other at found
    have different : key ≠ tranche.key := by
      intro same
      rw [same, notActive] at found
      cases found
    rw [getInactiveLimitOrderTranche_updateInactiveTranche, if_neg different]
    exact wellFormed.exclusive found

theorem archiveTranche
    (stored : book.getLimitOrderTranche tranche.key = some tranche) :
    (book.writeAll (archiveTranche tranche)).WellFormed where
  pool found := by
    rw [getPoolReserves_archiveTranche] at found
    exact wellFormed.pool found
  active found := by
    rw [getLimitOrderTranche_archiveTranche] at found
    split_ifs at found
    exact wellFormed.active found
  inactive found := by
    rw [getInactiveLimitOrderTranche_archiveTranche] at found
    split_ifs at found
    · cases found
      obtain ⟨token, sound⟩ := wellFormed.active stored
      exact ⟨.inl token, sound⟩
    · exact wellFormed.inactive found
  exclusive found := by
    rw [getLimitOrderTranche_archiveTranche] at found
    rw [getInactiveLimitOrderTranche_archiveTranche]
    split_ifs at found with different
    rw [if_neg different]
    exact wellFormed.exclusive found

end WellFormed

end OrderBook

end Neutron.Dex
