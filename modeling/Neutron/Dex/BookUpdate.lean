import Neutron.Dex.State
import Mathlib.Algebra.Group.Pi.Basic

namespace Neutron.Dex

open Library PrecDec

namespace OrderBook

variable (book : OrderBook)

theorem get?_updatePoolReserves (reserves : PoolReserves) (key : TickLiquidityKey) :
    (book.write (updatePoolReserves reserves)).tickLiquidity.get? key =
      if key = .poolReserves reserves.key then
        if reserves.HasToken then some (.poolReserves reserves) else none
      else
        book.tickLiquidity.get? key := by
  unfold updatePoolReserves
  by_cases same : key = .poolReserves reserves.key
  · split <;> simp [write, IndexedStore.get?_set, TickLiquidity.key, same]
  · split <;> simp [write, IndexedStore.get?_set, IndexedStore.get?_delete,
      TickLiquidity.key, same]

theorem getPoolReserves_updatePoolReserves (reserves : PoolReserves)
    (key : PoolReservesKey) :
    (book.write (updatePoolReserves reserves)).getPoolReserves key =
      if key = reserves.key then
        if reserves.HasToken then some reserves else none
      else
        book.getPoolReserves key := by
  unfold getPoolReserves
  rw [get?_updatePoolReserves]
  by_cases same : key = reserves.key
  · by_cases token : reserves.HasToken <;> simp [same, token]
  · simp [same]

@[simp] theorem getLimitOrderTranche_updatePoolReserves (reserves : PoolReserves)
    (key : LimitOrderTrancheKey) :
    (book.write (updatePoolReserves reserves)).getLimitOrderTranche key =
      book.getLimitOrderTranche key := by
  simp [getLimitOrderTranche, get?_updatePoolReserves]

@[simp] theorem inactiveTranches_updatePoolReserves (reserves : PoolReserves) :
    (book.write (updatePoolReserves reserves)).inactiveTranches =
      book.inactiveTranches := by
  unfold updatePoolReserves
  split <;> rfl

theorem get?_updateTranche (tranche : LimitOrderTranche) (key : TickLiquidityKey) :
    (book.writeAll (updateTranche tranche)).tickLiquidity.get? key =
      if key = .limitOrderTranche tranche.key then
        if tranche.HasTokenIn then some (.limitOrderTranche tranche) else none
      else
        book.tickLiquidity.get? key := by
  unfold updateTranche
  by_cases same : key = .limitOrderTranche tranche.key
  · rw [if_pos same]
    split_ifs <;> simp [write, IndexedStore.get?_set, TickLiquidity.key, same]
  · split_ifs <;> simp [write, IndexedStore.get?_set, IndexedStore.get?_delete,
      TickLiquidity.key, same]

theorem getLimitOrderTranche_updateTranche (tranche : LimitOrderTranche)
    (key : LimitOrderTrancheKey) :
    (book.writeAll (updateTranche tranche)).getLimitOrderTranche key =
      if key = tranche.key then
        if tranche.HasTokenIn then some tranche else none
      else
        book.getLimitOrderTranche key := by
  unfold getLimitOrderTranche
  rw [get?_updateTranche]
  by_cases same : key = tranche.key
  · by_cases token : tranche.HasTokenIn <;> simp [same, token]
  · simp [same]

theorem getInactiveLimitOrderTranche_updateTranche (tranche : LimitOrderTranche)
    (key : LimitOrderTrancheKey) :
    (book.writeAll (updateTranche tranche)).getInactiveLimitOrderTranche key =
      if key = tranche.key ∧ ¬ tranche.HasTokenIn ∧ tranche.HasTokenOut then
        some tranche
      else
        book.getInactiveLimitOrderTranche key := by
  unfold updateTranche
  by_cases same : key = tranche.key
  · subst same
    split_ifs with active filled both both <;>
      simp_all [getInactiveLimitOrderTranche, write]
  · split_ifs <;> simp_all [getInactiveLimitOrderTranche, write,
      IndexedStore.get?_set]

@[simp] theorem getPoolReserves_updateTranche (tranche : LimitOrderTranche)
    (key : PoolReservesKey) :
    (book.writeAll (updateTranche tranche)).getPoolReserves key =
      book.getPoolReserves key := by
  simp [getPoolReserves, get?_updateTranche]

theorem getInactiveLimitOrderTranche_updateInactiveTranche
    (tranche : LimitOrderTranche) (key : LimitOrderTrancheKey) :
    (book.writeAll (updateInactiveTranche tranche)).getInactiveLimitOrderTranche key =
      if key = tranche.key then
        if tranche.HasTokenIn ∨ tranche.HasTokenOut then some tranche else none
      else
        book.getInactiveLimitOrderTranche key := by
  unfold updateInactiveTranche
  by_cases same : key = tranche.key
  · subst same
    rw [if_pos rfl]
    split_ifs <;> simp [getInactiveLimitOrderTranche, write]
  · split_ifs <;> simp [getInactiveLimitOrderTranche, write, IndexedStore.get?_set,
      IndexedStore.get?_delete, same]

@[simp] theorem tickLiquidity_updateInactiveTranche (tranche : LimitOrderTranche) :
    (book.writeAll (updateInactiveTranche tranche)).tickLiquidity =
      book.tickLiquidity := by
  unfold updateInactiveTranche
  split <;> rfl

@[simp] theorem getPoolReserves_updateInactiveTranche (tranche : LimitOrderTranche)
    (key : PoolReservesKey) :
    (book.writeAll (updateInactiveTranche tranche)).getPoolReserves key =
      book.getPoolReserves key := by
  simp [getPoolReserves]

end OrderBook

def archiveTranche (tranche : LimitOrderTranche) : List BookWrite :=
  [.setInactiveLimitOrderTranche tranche,
    .removeTickLiquidity (.limitOrderTranche tranche.key)]

namespace OrderBook

variable (book : OrderBook)

theorem getLimitOrderTranche_archiveTranche (tranche : LimitOrderTranche)
    (key : LimitOrderTrancheKey) :
    (book.writeAll (archiveTranche tranche)).getLimitOrderTranche key =
      if key = tranche.key then none else book.getLimitOrderTranche key := by
  by_cases same : key = tranche.key <;>
    simp [archiveTranche, getLimitOrderTranche, write, IndexedStore.get?_delete, same]

theorem getInactiveLimitOrderTranche_archiveTranche (tranche : LimitOrderTranche)
    (key : LimitOrderTrancheKey) :
    (book.writeAll (archiveTranche tranche)).getInactiveLimitOrderTranche key =
      if key = tranche.key then some tranche
      else book.getInactiveLimitOrderTranche key := by
  simp [archiveTranche, getInactiveLimitOrderTranche, write, IndexedStore.get?_set]

@[simp] theorem getPoolReserves_archiveTranche (tranche : LimitOrderTranche)
    (key : PoolReservesKey) :
    (book.writeAll (archiveTranche tranche)).getPoolReserves key =
      book.getPoolReserves key := by
  simp [archiveTranche, getPoolReserves, write, IndexedStore.get?_delete]

end OrderBook

end Neutron.Dex
