import Neutron.Dex.BookInvariant
import Neutron.Dex.PoolKeeper

namespace Neutron.Dex

open Library PrecDec

namespace TradePairID

variable (tradePairID : TradePairID)

@[simp] theorem pairID_reversed : tradePairID.reversed.pairID = tradePairID.pairID := by
  unfold pairID reversed
  dsimp only
  split
  · rename_i below
    rw [dif_neg (lt_asymm below)]
  · rename_i notBelow
    rw [dif_pos (lt_of_le_of_ne (not_lt.mp notBelow) tradePairID.different.symm)]

theorem isMakerDenomToken0_reversed :
    tradePairID.reversed.IsMakerDenomToken0 ↔ ¬ tradePairID.IsMakerDenomToken0 := by
  rw [isMakerDenomToken0_iff_not_isTakerDenomToken0 tradePairID, not_not]
  unfold IsMakerDenomToken0 IsTakerDenomToken0
  rw [pairID_reversed, reversed_makerDenom]

end TradePairID

@[simp] theorem newTradePairIDFromMaker_token1_pairID (pairID : PairID) :
    (newTradePairIDFromMaker pairID pairID.token1).pairID = pairID := by
  obtain ⟨token0, token1, sorted⟩ := pairID
  have maker := newTradePairIDFromMaker_makerDenom ⟨token0, token1, sorted⟩ token1
  have taker := newTradePairIDFromMaker_token1_takerDenom ⟨token0, token1, sorted⟩
  unfold TradePairID.pairID
  dsimp only at maker taker ⊢
  simp only [maker, taker]
  rw [dif_neg (lt_asymm sorted)]

theorem not_isMakerDenomToken0_token1 (pairID : PairID) :
    ¬ (newTradePairIDFromMaker pairID pairID.token1).IsMakerDenomToken0 := by
  unfold TradePairID.IsMakerDenomToken0
  rw [newTradePairIDFromMaker_token1_pairID, newTradePairIDFromMaker_makerDenom]
  exact pairID.token0_ne_token1.symm

namespace PoolReservesKey

def poolIDKey (key : PoolReservesKey) : PoolIDKey where
  pairID := key.tradePairID.pairID
  centerTickIndexNormalized :=
    if key.tradePairID.IsMakerDenomToken0 then key.fee - key.tickIndexTakerToMaker
    else key.tickIndexTakerToMaker - key.fee
  fee := key.fee

@[simp] theorem poolIDKey_counterpart (key : PoolReservesKey) :
    key.counterpart.poolIDKey = key.poolIDKey := by
  unfold poolIDKey counterpart
  dsimp only
  simp only [TradePairID.pairID_reversed, TradePairID.isMakerDenomToken0_reversed]
  by_cases isMaker : key.tradePairID.IsMakerDenomToken0 <;> simp [isMaker] <;> omega

end PoolReservesKey

@[simp] theorem poolIDKey_upperTickKey (pairID : PairID) (center : Int) (fee : Nat) :
    (upperTickKey pairID center fee).poolIDKey = ⟨pairID, center, fee⟩ := by
  unfold PoolReservesKey.poolIDKey upperTickKey
  dsimp only
  rw [newTradePairIDFromMaker_token1_pairID, if_neg (not_isMakerDenomToken0_token1 pairID)]
  simp

structure Pool.ReadAt (book : OrderBook) (key : PoolIDKey) (pool : Pool) : Prop where
  loaded : pool.Loaded book
  upperKey : pool.upperTick1.key =
    upperTickKey key.pairID key.centerTickIndexNormalized key.fee

namespace Pool.ReadAt

variable {book : OrderBook} {key : PoolIDKey} {pool : Pool}

theorem upper_poolIDKey (readAt : pool.ReadAt book key) :
    pool.upperTick1.key.poolIDKey = key := by
  rw [readAt.upperKey, poolIDKey_upperTickKey]

theorem lower_poolIDKey (readAt : pool.ReadAt book key) :
    pool.lowerTick0.key.poolIDKey = key := by
  rw [readAt.loaded.counterpart, PoolReservesKey.poolIDKey_counterpart,
    readAt.upper_poolIDKey]

end Pool.ReadAt

theorem counterpart_upperTickKey_tick (pairID : PairID) (center : Int) (fee : Nat) :
    (upperTickKey pairID center fee).counterpart.tickIndexTakerToMaker = -center + fee := by
  simp only [upperTickKey, PoolReservesKey.counterpart]
  omega

theorem isTickOutOfRange_neg (tickIndex : Int) :
    IsTickOutOfRange (-tickIndex) ↔ IsTickOutOfRange tickIndex := by
  simp [IsTickOutOfRange]

theorem newPoolReservesFromCounterpart_eq_ok_iff {counterpart reserves : PoolReserves} :
    newPoolReservesFromCounterpart counterpart = .ok reserves ↔
      ¬ IsTickOutOfRange counterpart.key.counterpart.tickIndexTakerToMaker ∧
        reserves = ⟨counterpart.key.counterpart, zeroPrecDec,
          tickPrice counterpart.key.counterpart.tickIndexTakerToMaker⟩ := by
  unfold newPoolReservesFromCounterpart
  dsimp only
  rw [Outcome.bind_eq_ok_iff]
  constructor
  · rintro ⟨price, priced, created⟩
    obtain ⟨inRange, rfl⟩ := mustCalcPrice_eq_ok_iff.mp priced
    exact ⟨inRange, (Except.ok.inj created).symm⟩
  · rintro ⟨inRange, rfl⟩
    exact ⟨_, mustCalcPrice_eq_ok_iff.mpr ⟨inRange, rfl⟩, rfl⟩

def emptyPool (key : PoolIDKey) (id : Nat) : Pool :=
  let upperKey := upperTickKey key.pairID key.centerTickIndexNormalized key.fee
  ⟨⟨upperKey.counterpart, zeroPrecDec, tickPrice upperKey.counterpart.tickIndexTakerToMaker⟩,
    ⟨upperKey, zeroPrecDec, tickPrice upperKey.tickIndexTakerToMaker⟩, id⟩

theorem newPool_eq_ok_iff {pairID : PairID} {center : Int} {fee id : Nat} {pool : Pool} :
    newPool pairID center fee id = .ok pool ↔
      ¬ IsTickOutOfRange (center + fee) ∧ ¬ IsTickOutOfRange (-center + fee) ∧
        pool = emptyPool ⟨pairID, center, fee⟩ id := by
  have lowerTick := counterpart_upperTickKey_tick pairID center fee
  unfold newPool newPoolReserves
  constructor
  · intro ok
    obtain ⟨upper, created, ok⟩ := of_bind ok
    obtain ⟨lower, rebuilt, ok⟩ := of_bind ok
    obtain ⟨price, priced, created⟩ := of_bind created
    obtain ⟨_, _, created⟩ := of_bind created
    obtain ⟨upperInRange, rfl⟩ := calcPrice_eq_ok_iff.mp priced
    cases created
    obtain ⟨lowerInRange, rfl⟩ := newPoolReservesFromCounterpart_eq_ok_iff.mp rebuilt
    refine ⟨upperInRange, ?_, (Except.ok.inj ok).symm⟩
    rw [← lowerTick]
    exact lowerInRange
  · rintro ⟨upperInRange, lowerInRange, rfl⟩
    rw [← lowerTick] at lowerInRange
    refine (Outcome.bind_eq_ok_iff _ _ _).mpr ⟨⟨upperTickKey pairID center fee, zeroPrecDec,
      tickPrice (center + fee)⟩, ?_, ?_⟩
    · refine (Outcome.bind_eq_ok_iff _ _ _).mpr
        ⟨_, calcPrice_eq_ok_iff.mpr ⟨upperInRange, rfl⟩, ?_⟩
      refine (Outcome.bind_eq_ok_iff _ _ _).mpr
        ⟨_, calcPrice_eq_ok_iff.mpr ⟨?_, rfl⟩, rfl⟩
      rw [isTickOutOfRange_neg]
      exact lowerInRange
    · exact (Outcome.bind_eq_ok_iff _ _ _).mpr
        ⟨_, newPoolReservesFromCounterpart_eq_ok_iff.mpr ⟨lowerInRange, rfl⟩, rfl⟩

section Read

variable {book : OrderBook} {key : PoolIDKey} {id : Nat} {pool : Pool}

theorem emptyPool_readAt
    (upperInRange : ¬ IsTickOutOfRange (key.centerTickIndexNormalized + key.fee))
    (lowerInRange : ¬ IsTickOutOfRange (-key.centerTickIndexNormalized + key.fee))
    (noUpper : book.getPoolReserves
      (upperTickKey key.pairID key.centerTickIndexNormalized key.fee) = none)
    (noLower : book.getPoolReserves
      (upperTickKey key.pairID key.centerTickIndexNormalized key.fee).counterpart = none) :
    (emptyPool key id).ReadAt book key where
  loaded := {
    lower := .inr ⟨noLower, rfl⟩
    upper := .inr ⟨noUpper, rfl⟩
    counterpart := rfl
    lowerPriced := ⟨rfl, by
      rw [← counterpart_upperTickKey_tick key.pairID] at lowerInRange
      exact lowerInRange⟩
    upperPriced := ⟨rfl, upperInRange⟩ }
  upperKey := rfl

theorem getPoolByPoolID_total
    (upperInRange : ¬ IsTickOutOfRange (key.centerTickIndexNormalized + key.fee))
    (lowerInRange : ¬ IsTickOutOfRange (-key.centerTickIndexNormalized + key.fee)) :
    ∃ pool, getPoolByPoolID book id key.pairID key.centerTickIndexNormalized key.fee =
      .ok pool := by
  unfold getPoolByPoolID
  dsimp only
  split
  · exact ⟨_, rfl⟩
  · rename_i stored
    rw [newPoolReservesFromCounterpart_eq_ok_iff.mpr ⟨?_, rfl⟩]
    · exact ⟨_, rfl⟩
    · rwa [OrderBook.getPoolReserves_key stored, counterpart_upperTickKey_tick]
  · rename_i stored _
    rw [newPoolReservesFromCounterpart_eq_ok_iff.mpr ⟨?_, rfl⟩]
    · exact ⟨_, rfl⟩
    · rwa [OrderBook.getPoolReserves_key stored, PoolReservesKey.counterpart_counterpart]
  · rw [newPool_eq_ok_iff.mpr ⟨upperInRange, lowerInRange, rfl⟩]
    exact ⟨_, rfl⟩

theorem getPoolByPoolID_eq_ok (wellFormed : book.WellFormed)
    (ok : getPoolByPoolID book id key.pairID key.centerTickIndexNormalized key.fee =
      .ok pool) :
    pool.ReadAt book key ∧ pool.id = id := by
  unfold getPoolByPoolID at ok
  dsimp only at ok
  split at ok
  · rename_i lower upper lowerStored upperStored
    cases ok
    refine ⟨⟨⟨.of_getPoolReserves lowerStored, .of_getPoolReserves upperStored, ?_,
      (wellFormed.pool lowerStored).2, (wellFormed.pool upperStored).2⟩,
      OrderBook.getPoolReserves_key upperStored⟩, rfl⟩
    rw [OrderBook.getPoolReserves_key lowerStored,
      OrderBook.getPoolReserves_key upperStored]
  · rename_i upper noLower upperStored
    obtain ⟨lower, rebuilt, ok⟩ := of_bind ok
    cases ok
    obtain ⟨lowerKey, zero, priced⟩ := newPoolReservesFromCounterpart_eq_ok rebuilt
    have upperKey := OrderBook.getPoolReserves_key upperStored
    refine ⟨⟨⟨.inr ⟨?_, zero⟩, .of_getPoolReserves upperStored, lowerKey, priced,
      (wellFormed.pool upperStored).2⟩, upperKey⟩, rfl⟩
    rw [lowerKey, upperKey]
    exact noLower
  · rename_i lower lowerStored noUpper
    obtain ⟨upper, rebuilt, ok⟩ := of_bind ok
    cases ok
    obtain ⟨upperKey, zero, priced⟩ := newPoolReservesFromCounterpart_eq_ok rebuilt
    have lowerKey := OrderBook.getPoolReserves_key lowerStored
    rw [lowerKey, PoolReservesKey.counterpart_counterpart] at upperKey
    refine ⟨⟨⟨.of_getPoolReserves lowerStored, .inr ⟨?_, zero⟩, ?_,
      (wellFormed.pool lowerStored).2, priced⟩, upperKey⟩, rfl⟩
    · rw [upperKey]
      exact noUpper
    · rw [upperKey, lowerKey]
  · rename_i noLower noUpper
    split at ok
    · rename_i created new
      cases ok
      obtain ⟨upperInRange, lowerInRange, rfl⟩ := newPool_eq_ok_iff.mp new
      exact ⟨emptyPool_readAt upperInRange lowerInRange noUpper noLower, rfl⟩
    · cases ok

end Read

def PoolsRegistered (book : OrderBook) (poolIDs : SortedStore PoolIDKey Nat) : Prop :=
  ∀ (key : PoolReservesKey) (reserves : PoolReserves),
    book.getPoolReserves key = some reserves → ∃ id, poolIDs.get? key.poolIDKey = some id

namespace PoolsRegistered

variable {book next : OrderBook} {poolIDs : SortedStore PoolIDKey Nat}

theorem congr (registered : PoolsRegistered book poolIDs)
    (same : ∀ key, next.getPoolReserves key = book.getPoolReserves key) :
    PoolsRegistered next poolIDs := fun key reserves stored =>
  registered key reserves ((same key).symm.trans stored)

theorem updatePool (registered : PoolsRegistered book poolIDs) {pool updated : Pool}
    (loaded : pool.Loaded book) (updates : pool.Updates updated)
    (known : ∃ id, poolIDs.get? pool.upperTick1.key.poolIDKey = some id) :
    PoolsRegistered (book.writeAll (Dex.updatePool updated)) poolIDs := by
  intro key reserves stored
  rcases OrderBook.getPoolReserves_of_updatePool stored with
    ⟨_, isUpper, _⟩ | ⟨_, isLower, _⟩ | ⟨_, _, before⟩
  · rw [isUpper, updates.upperKey]
    exact known
  · rw [isLower, updates.lowerKey, loaded.counterpart,
      PoolReservesKey.poolIDKey_counterpart]
    exact known
  · exact registered key reserves before

theorem register (registered : PoolsRegistered book poolIDs) (key : PoolIDKey) (id : Nat) :
    PoolsRegistered book (poolIDs.set key id) := by
  intro side reserves stored
  rw [SortedStore.get?_set]
  split
  · exact ⟨id, rfl⟩
  · exact registered side reserves stored

end PoolsRegistered

end Neutron.Dex
