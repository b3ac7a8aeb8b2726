import Neutron.Dex.BookUpdate

namespace Neutron.Dex

open Library PrecDec

/-- Amounts per denom, in units of `10^-27`. -/
abbrev Flow := String → Int

namespace Flow

def coin (denom : String) (amount : PrecDec) : Flow :=
  fun other => if other = denom then amount.i else 0

@[simp] theorem coin_zero (denom : String) : coin denom zeroPrecDec = 0 := by
  funext other
  simp [coin]

theorem coin_add (denom : String) (left right : PrecDec) :
    coin denom (left + right) = coin denom left + coin denom right := by
  funext other
  by_cases same : other = denom <;> simp [coin, same]

theorem coin_sub (denom : String) (left right : PrecDec) :
    coin denom (left - right) = coin denom left - coin denom right := by
  funext other
  by_cases same : other = denom <;> simp [coin, same]

theorem coin_nonneg {amount : PrecDec} (nonneg : 0 ≤ amount.i)
    (denom other : String) : 0 ≤ coin denom amount other := by
  unfold coin
  split
  · exact nonneg
  · exact le_refl 0

end Flow

namespace PoolReserves

def owed (reserves : PoolReserves) : Flow :=
  Flow.coin reserves.key.tradePairID.makerDenom reserves.decReservesMakerDenom

/-- The price of a side is the price of its tick, which is in range. -/
structure Priced (reserves : PoolReserves) : Prop where
  price : reserves.makerPrice = tickPrice reserves.key.tickIndexTakerToMaker
  inRange : ¬ IsTickOutOfRange reserves.key.tickIndexTakerToMaker

def Loaded (book : OrderBook) (reserves : PoolReserves) : Prop :=
  book.getPoolReserves reserves.key = some reserves ∨
    (book.getPoolReserves reserves.key = none ∧
      reserves.decReservesMakerDenom = zeroPrecDec)

theorem Loaded.of_getPoolReserves {book : OrderBook} {key : PoolReservesKey}
    {reserves : PoolReserves} (stored : book.getPoolReserves key = some reserves) :
    reserves.Loaded book := by
  have same := OrderBook.getPoolReserves_key stored
  rw [← same] at stored
  exact Or.inl stored

end PoolReserves

theorem newPoolReservesFromCounterpart_eq_ok {counterpart reserves : PoolReserves}
    (created : newPoolReservesFromCounterpart counterpart = .ok reserves) :
    reserves.key = counterpart.key.counterpart ∧
      reserves.decReservesMakerDenom = zeroPrecDec ∧ reserves.Priced := by
  obtain ⟨price, priced, result⟩ := of_bind created
  obtain ⟨inRange, value⟩ := mustCalcPrice_eq_ok_iff.mp priced
  cases result
  exact ⟨rfl, rfl, value.symm, inRange⟩

namespace LimitOrderTranche

def owed (tranche : LimitOrderTranche) : Flow :=
  Flow.coin tranche.key.tradePairID.makerDenom tranche.decReservesMakerDenom +
    Flow.coin tranche.key.tradePairID.takerDenom tranche.decReservesTakerDenom

/-- Amounts are never negative, and the price is the price of the tick. -/
structure Sound (tranche : LimitOrderTranche) : Prop where
  maker : 0 ≤ tranche.decReservesMakerDenom.i
  taker : 0 ≤ tranche.decReservesTakerDenom.i
  totalTaker : 0 ≤ tranche.decTotalTakerDenom.i
  price : tranche.makerPrice = tickPrice tranche.key.tickIndexTakerToMaker
  inRange : ¬ IsTickOutOfRange tranche.key.tickIndexTakerToMaker

theorem Sound.price_pos {tranche : LimitOrderTranche} (sound : tranche.Sound) :
    0 < tranche.makerPrice.i := by
  rw [sound.price]
  exact tickPrice_pos sound.inRange

theorem owed_eq_zero {tranche : LimitOrderTranche} (sound : tranche.Sound)
    (noMaker : ¬ tranche.HasTokenIn) (noTaker : ¬ tranche.HasTokenOut) :
    tranche.owed = 0 := by
  have maker : tranche.decReservesMakerDenom = zeroPrecDec :=
    PrecDec.ext (le_antisymm (not_lt.mp noMaker) sound.maker)
  have taker : tranche.decReservesTakerDenom = zeroPrecDec :=
    PrecDec.ext (le_antisymm (not_lt.mp noTaker) sound.taker)
  rw [owed, maker, taker, Flow.coin_zero, Flow.coin_zero, add_zero]

end LimitOrderTranche

def TickLiquidity.owed : TickLiquidity → Flow
  | poolReserves reserves => reserves.owed
  | limitOrderTranche tranche => tranche.owed

@[simp] theorem TickLiquidity.owed_poolReserves (reserves : PoolReserves) :
    (poolReserves reserves).owed = reserves.owed := rfl

@[simp] theorem TickLiquidity.owed_limitOrderTranche (tranche : LimitOrderTranche) :
    (limitOrderTranche tranche).owed = tranche.owed := rfl

namespace OrderBook

def owed (book : OrderBook) : Flow := fun denom =>
  book.tickLiquidity.total (fun tick => tick.owed denom) +
    book.inactiveTranches.total (fun tranche => tranche.owed denom)

structure WellFormed (book : OrderBook) : Prop where
  pool : ∀ {key reserves}, book.getPoolReserves key = some reserves →
    reserves.HasToken ∧ reserves.Priced
  active : ∀ {key tranche}, book.getLimitOrderTranche key = some tranche →
    tranche.HasTokenIn ∧ tranche.Sound
  inactive : ∀ {key tranche},
    book.getInactiveLimitOrderTranche key = some tranche →
      (tranche.HasTokenIn ∨ tranche.HasTokenOut) ∧ tranche.Sound
  exclusive : ∀ {key tranche}, book.getLimitOrderTranche key = some tranche →
    book.getInactiveLimitOrderTranche key = none

theorem wellFormed_empty : OrderBook.empty.WellFormed where
  pool stored := nomatch stored
  active stored := nomatch stored
  inactive stored := nomatch stored
  exclusive stored := nomatch stored

variable (book : OrderBook)

theorem share_poolReserves (denom : String) (key : PoolReservesKey) :
    book.tickLiquidity.share (fun tick => tick.owed denom) (.poolReserves key) =
      (book.getPoolReserves key).elim 0 fun reserves => reserves.owed denom := by
  cases stored : book.getPoolReserves key with
  | none =>
      rw [IndexedStore.share_of_get?_none _ (getPoolReserves_eq_none_iff.mp stored)]
      rfl
  | some reserves =>
      rw [IndexedStore.share_of_get? _ (getPoolReserves_eq_some_iff.mp stored)]
      rfl

theorem share_limitOrderTranche (denom : String) (key : LimitOrderTrancheKey) :
    book.tickLiquidity.share (fun tick => tick.owed denom) (.limitOrderTranche key) =
      (book.getLimitOrderTranche key).elim 0 fun tranche => tranche.owed denom := by
  cases stored : book.getLimitOrderTranche key with
  | none =>
      rw [IndexedStore.share_of_get?_none _
        (getLimitOrderTranche_eq_none_iff.mp stored)]
      rfl
  | some tranche =>
      rw [IndexedStore.share_of_get? _ (getLimitOrderTranche_eq_some_iff.mp stored)]
      rfl

theorem share_inactive (denom : String) (key : LimitOrderTrancheKey) :
    book.inactiveTranches.share (fun tranche => tranche.owed denom) key =
      (book.getInactiveLimitOrderTranche key).elim 0 fun tranche =>
        tranche.owed denom := rfl

variable {book}

theorem owed_of_loaded {reserves : PoolReserves} (loaded : reserves.Loaded book)
    (denom : String) :
    ((book.getPoolReserves reserves.key).elim 0 fun stored => stored.owed denom) =
      reserves.owed denom := by
  rcases loaded with stored | ⟨absent, zero⟩
  · rw [stored, Option.elim_some]
  · rw [absent, Option.elim_none, PoolReserves.owed, zero, Flow.coin_zero]
    rfl

theorem owed_updatePoolReserves {loaded updated : PoolReserves}
    (wasLoaded : loaded.Loaded book) (sameKey : updated.key = loaded.key)
    (nonneg : 0 ≤ updated.decReservesMakerDenom.i) :
    (book.write (updatePoolReserves updated)).owed =
      book.owed + (updated.owed - loaded.owed) := by
  funext denom
  have share := book.share_poolReserves denom updated.key
  rw [sameKey, owed_of_loaded wasLoaded] at share
  unfold updatePoolReserves
  rw [Pi.add_apply, Pi.sub_apply]
  unfold owed
  split
  · have total := book.tickLiquidity.total_set (fun tick => tick.owed denom)
      (.poolReserves updated)
    simp only [TickLiquidity.key, TickLiquidity.owed_poolReserves, sameKey] at total
    simp only [write]
    rw [total, share]
    abel
  · rename_i noToken
    have total := book.tickLiquidity.total_delete (fun tick => tick.owed denom)
      (.poolReserves updated.key)
    have zero : updated.owed denom = 0 := by
      have amount : updated.decReservesMakerDenom = zeroPrecDec :=
        PrecDec.ext (le_antisymm (not_lt.mp noToken) nonneg)
      rw [PoolReserves.owed, amount, Flow.coin_zero]
      rfl
    simp only [write]
    rw [total, sameKey, share, zero]
    abel

theorem owed_updateTranche {tranche : LimitOrderTranche} (sound : tranche.Sound)
    (notInactive : book.getInactiveLimitOrderTranche tranche.key = none) :
    (book.writeAll (updateTranche tranche)).owed =
      book.owed + (tranche.owed -
        ((book.getLimitOrderTranche tranche.key).elim 0 LimitOrderTranche.owed)) := by
  funext denom
  have active := book.share_limitOrderTranche denom tranche.key
  have inactive := book.share_inactive denom tranche.key
  rw [notInactive, Option.elim_none] at inactive
  have stored : (book.getLimitOrderTranche tranche.key).elim 0
      LimitOrderTranche.owed denom =
      (book.getLimitOrderTranche tranche.key).elim 0 fun tranche =>
        tranche.owed denom := by
    cases book.getLimitOrderTranche tranche.key <;> rfl
  have set := book.tickLiquidity.total_set (fun tick => tick.owed denom)
    (.limitOrderTranche tranche)
  have delete := book.tickLiquidity.total_delete (fun tick => tick.owed denom)
    (.limitOrderTranche tranche.key)
  have setInactive := book.inactiveTranches.total_set
    (fun tranche => tranche.owed denom) tranche
  simp only [TickLiquidity.key, TickLiquidity.owed_limitOrderTranche] at set
  rw [Pi.add_apply, Pi.sub_apply, stored, ← active]
  unfold updateTranche owed
  split_ifs with hasMaker hasTaker
  · simp only [writeAll_cons, writeAll_nil, write]
    rw [set]
    abel
  · simp only [writeAll_cons, writeAll_nil, write]
    rw [delete, setInactive, inactive]
    abel
  · have zero : tranche.owed denom = 0 := by
      rw [LimitOrderTranche.owed_eq_zero sound hasMaker hasTaker]
      rfl
    simp only [writeAll_cons, writeAll_nil, write]
    rw [delete, zero]
    abel

theorem owed_updateInactiveTranche {tranche : LimitOrderTranche}
    (sound : tranche.Sound) :
    (book.writeAll (updateInactiveTranche tranche)).owed =
      book.owed + (tranche.owed -
        ((book.getInactiveLimitOrderTranche tranche.key).elim 0
          LimitOrderTranche.owed)) := by
  funext denom
  have inactive := book.share_inactive denom tranche.key
  have stored : (book.getInactiveLimitOrderTranche tranche.key).elim 0
      LimitOrderTranche.owed denom =
      (book.getInactiveLimitOrderTranche tranche.key).elim 0 fun tranche =>
        tranche.owed denom := by
    cases book.getInactiveLimitOrderTranche tranche.key <;> rfl
  have set := book.inactiveTranches.total_set
    (fun tranche => tranche.owed denom) tranche
  have delete := book.inactiveTranches.total_delete
    (fun tranche => tranche.owed denom) tranche.key
  rw [Pi.add_apply, Pi.sub_apply, stored, ← inactive]
  unfold updateInactiveTranche owed
  split_ifs with hasTokens
  · simp only [writeAll_cons, writeAll_nil, write]
    rw [set]
    abel
  · have zero : tranche.owed denom = 0 := by
      rw [LimitOrderTranche.owed_eq_zero sound (fun hasMaker => hasTokens (.inl hasMaker))
        (fun hasTaker => hasTokens (.inr hasTaker))]
      rfl
    simp only [writeAll_cons, writeAll_nil, write]
    rw [delete, zero]
    abel

theorem owed_archiveTranche {tranche : LimitOrderTranche}
    (stored : book.getLimitOrderTranche tranche.key = some tranche)
    (notInactive : book.getInactiveLimitOrderTranche tranche.key = none) :
    (book.writeAll (archiveTranche tranche)).owed = book.owed := by
  funext denom
  have active := book.share_limitOrderTranche denom tranche.key
  have inactive := book.share_inactive denom tranche.key
  rw [stored, Option.elim_some] at active
  rw [notInactive, Option.elim_none] at inactive
  have delete := book.tickLiquidity.total_delete (fun tick => tick.owed denom)
    (.limitOrderTranche tranche.key)
  have setInactive := book.inactiveTranches.total_set
    (fun tranche => tranche.owed denom) tranche
  unfold archiveTranche owed
  simp only [writeAll_cons, writeAll_nil, write]
  rw [delete, setInactive, active, inactive]
  abel

end OrderBook

end Neutron.Dex
