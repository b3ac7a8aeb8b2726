import Neutron.Library.IndexedStore
import Neutron.Dex.Tranche

namespace Neutron.Dex

open Library PrecDec

abbrev TickStore :=
  IndexedStore TickLiquidityKey TickLiquidity TickLiquidity.key

abbrev TrancheStore :=
  IndexedStore LimitOrderTrancheKey LimitOrderTranche LimitOrderTranche.key

/-- The stores a swap reads and writes: resting liquidity and the tranches that
left the book. -/
structure OrderBook where
  tickLiquidity : TickStore
  inactiveTranches : TrancheStore

inductive BookWrite where
  | setTickLiquidity (tick : TickLiquidity)
  | removeTickLiquidity (key : TickLiquidityKey)
  | setInactiveLimitOrderTranche (tranche : LimitOrderTranche)
  | removeInactiveLimitOrderTranche (key : LimitOrderTrancheKey)

namespace OrderBook

def empty : OrderBook := ⟨IndexedStore.empty, IndexedStore.empty⟩

def write (book : OrderBook) : BookWrite → OrderBook
  | .setTickLiquidity tick =>
      { book with tickLiquidity := book.tickLiquidity.set tick }
  | .removeTickLiquidity key =>
      { book with tickLiquidity := book.tickLiquidity.delete key }
  | .setInactiveLimitOrderTranche tranche =>
      { book with inactiveTranches := book.inactiveTranches.set tranche }
  | .removeInactiveLimitOrderTranche key =>
      { book with inactiveTranches := book.inactiveTranches.delete key }

def writeAll (book : OrderBook) (writes : List BookWrite) : OrderBook :=
  writes.foldl write book

@[simp] theorem writeAll_nil (book : OrderBook) : book.writeAll [] = book := rfl

@[simp] theorem writeAll_cons (book : OrderBook) (first : BookWrite)
    (rest : List BookWrite) :
    book.writeAll (first :: rest) = (book.write first).writeAll rest := rfl

@[simp] theorem writeAll_append (book : OrderBook) (first second : List BookWrite) :
    book.writeAll (first ++ second) = (book.writeAll first).writeAll second :=
  List.foldl_append

def getPoolReserves (book : OrderBook) (poolReservesID : PoolReservesKey) :
    Option PoolReserves :=
  match book.tickLiquidity.get? (.poolReserves poolReservesID) with
  | some (.poolReserves reserves) => some reserves
  | _ => none

def getLimitOrderTranche (book : OrderBook) (key : LimitOrderTrancheKey) :
    Option LimitOrderTranche :=
  match book.tickLiquidity.get? (.limitOrderTranche key) with
  | some (.limitOrderTranche tranche) => some tranche
  | _ => none

def getInactiveLimitOrderTranche (book : OrderBook) (key : LimitOrderTrancheKey) :
    Option LimitOrderTranche :=
  book.inactiveTranches.get? key

/-- `FindLimitOrderTranche`: an active tranche first, then an inactive one;
the flag tells which. -/
def findLimitOrderTranche (book : OrderBook) (key : LimitOrderTrancheKey) :
    Option (LimitOrderTranche × Bool) :=
  match book.getLimitOrderTranche key with
  | some tranche => some (tranche, false)
  | none => (book.getInactiveLimitOrderTranche key).map fun tranche => (tranche, true)

/-- The snapshot a `TickIterator` walks over. -/
def ticks (book : OrderBook) (tradePairID : TradePairID) : List TickLiquidity :=
  book.tickLiquidity.iterate fun key => decide (key.tradePairID = tradePairID)

variable {book : OrderBook} {key : PoolReservesKey} {reserves : PoolReserves}

theorem getPoolReserves_eq_some_iff
    :
    book.getPoolReserves key = some reserves ↔
      book.tickLiquidity.get? (.poolReserves key) =
        some (.poolReserves reserves) := by
  unfold getPoolReserves
  split
  · rename_i found stored
    rw [stored]
    simp
  · rename_i other
    constructor
    · intro impossible
      cases impossible
    · intro stored
      exact absurd stored (other reserves)

theorem getPoolReserves_eq_none_iff :
    book.getPoolReserves key = none ↔
      book.tickLiquidity.get? (.poolReserves key) = none := by
  cases stored : book.tickLiquidity.get? (.poolReserves key) with
  | none => simp [getPoolReserves, stored]
  | some tick =>
      cases tick with
      | poolReserves reserves => simp [getPoolReserves, stored]
      | limitOrderTranche tranche =>
          exact nomatch book.tickLiquidity.keyOf_eq stored

theorem getPoolReserves_key
    (found : book.getPoolReserves key = some reserves) :
    reserves.key = key :=
  TickLiquidityKey.poolReserves.inj
    (book.tickLiquidity.keyOf_eq (getPoolReserves_eq_some_iff.mp found))

variable {tranche : LimitOrderTranche}

theorem getLimitOrderTranche_eq_some_iff
    {key : LimitOrderTrancheKey} :
    book.getLimitOrderTranche key = some tranche ↔
      book.tickLiquidity.get? (.limitOrderTranche key) =
        some (.limitOrderTranche tranche) := by
  unfold getLimitOrderTranche
  split
  · rename_i found stored
    rw [stored]
    simp
  · rename_i other
    constructor
    · intro impossible
      cases impossible
    · intro stored
      exact absurd stored (other tranche)

theorem getLimitOrderTranche_eq_none_iff
    {key : LimitOrderTrancheKey} :
    book.getLimitOrderTranche key = none ↔
      book.tickLiquidity.get? (.limitOrderTranche key) = none := by
  cases stored : book.tickLiquidity.get? (.limitOrderTranche key) with
  | none => simp [getLimitOrderTranche, stored]
  | some tick =>
      cases tick with
      | poolReserves reserves =>
          exact nomatch book.tickLiquidity.keyOf_eq stored
      | limitOrderTranche tranche => simp [getLimitOrderTranche, stored]

theorem getLimitOrderTranche_key {key : LimitOrderTrancheKey}
    (found : book.getLimitOrderTranche key = some tranche) : tranche.key = key :=
  TickLiquidityKey.limitOrderTranche.inj
    (book.tickLiquidity.keyOf_eq (getLimitOrderTranche_eq_some_iff.mp found))

theorem mem_ticks_iff {tradePairID : TradePairID}
    {tick : TickLiquidity} :
    tick ∈ book.ticks tradePairID ↔
      book.tickLiquidity.get? tick.key = some tick ∧
        tick.key.tradePairID = tradePairID := by
  rw [ticks, IndexedStore.mem_iterate_iff, decide_eq_true_eq]

theorem ticks_increasing (book : OrderBook) (tradePairID : TradePairID) :
    (book.ticks tradePairID).Pairwise fun left right => left.key < right.key :=
  book.tickLiquidity.iterate_increasing _

end OrderBook

/-- `UpdatePoolReserves`: an empty side is deleted. -/
def updatePoolReserves (reserves : PoolReserves) : BookWrite :=
  if reserves.HasToken then
    .setTickLiquidity (.poolReserves reserves)
  else
    .removeTickLiquidity (.poolReserves reserves.key)

def updatePool (pool : Pool) : List BookWrite :=
  [updatePoolReserves pool.lowerTick0, updatePoolReserves pool.upperTick1]

/-- `UpdateTranche`: a tranche without maker reserves leaves the book, and is
kept as inactive while takers' payments are still in it. -/
def updateTranche (tranche : LimitOrderTranche) : List BookWrite :=
  if tranche.HasTokenIn then
    [.setTickLiquidity (.limitOrderTranche tranche)]
  else if tranche.HasTokenOut then
    [.setInactiveLimitOrderTranche tranche,
      .removeTickLiquidity (.limitOrderTranche tranche.key)]
  else
    [.removeTickLiquidity (.limitOrderTranche tranche.key)]

def updateInactiveTranche (tranche : LimitOrderTranche) : List BookWrite :=
  if tranche.HasTokenIn ∨ tranche.HasTokenOut then
    [.setInactiveLimitOrderTranche tranche]
  else
    [.removeInactiveLimitOrderTranche tranche.key]

structure PoolMetadata where
  id : Nat
  pairID : PairID
  tick : Int
  fee : Nat
  deriving DecidableEq

structure Params where
  feeTiers : List Nat
  paused : Bool
  maxJitsPerBlock : Nat
  goodTilPurgeAllowance : Nat
  whitelistedLps : List String
  withdrawOnly : Bool
  deriving DecidableEq

def defaultParams : Params where
  feeTiers := [0, 1, 2, 3, 4, 5, 10, 20, 50, 100, 150, 200]
  paused := false
  maxJitsPerBlock := 25
  goodTilPurgeAllowance := 540000
  whitelistedLps := []
  withdrawOnly := false

abbrev FractionalBalances := SortedStore (String ×ₗ String) PrecDec

structure DexState where
  book : OrderBook
  trancheUsers : IndexedStore (String ×ₗ String) LimitOrderTrancheUser
    LimitOrderTrancheUser.key
  expirations : IndexedStore LimitOrderExpirationKey LimitOrderExpiration
    LimitOrderExpiration.key
  poolMetadata : IndexedStore Nat PoolMetadata PoolMetadata.id
  poolIDs : SortedStore PoolIDKey Nat
  poolCount : Nat
  trancheCount : Nat
  fractionalBalances : FractionalBalances
  params : Params
  /-- Kept in the transient store, which every block starts empty. -/
  jitsInBlock : Nat

def DexState.empty (params : Params) : DexState where
  book := OrderBook.empty
  trancheUsers := IndexedStore.empty
  expirations := IndexedStore.empty
  poolMetadata := IndexedStore.empty
  poolIDs := SortedStore.empty
  poolCount := 0
  trancheCount := 0
  fractionalBalances := SortedStore.empty
  params := params
  jitsInBlock := 0

/-- The dex module, the bank and the block it runs in.  `authority` is the
account that may change the params. -/
structure World where
  dex : DexState
  bank : Bank
  blockTime : Time
  authority : String

namespace DexState

variable (dex : DexState)

def updateBook (writes : List BookWrite) : DexState :=
  { dex with book := dex.book.writeAll writes }

def getLimitOrderTrancheUser (address trancheKey : String) :
    Option LimitOrderTrancheUser :=
  dex.trancheUsers.get? (toLex (address, trancheKey))

/-- `UpdateTrancheUser`: a user without withdrawable shares is deleted. -/
def updateTrancheUser (trancheUser : LimitOrderTrancheUser) : DexState :=
  if trancheUser.IsEmpty then
    { dex with trancheUsers := dex.trancheUsers.delete trancheUser.key }
  else
    { dex with trancheUsers := dex.trancheUsers.set trancheUser }

def setLimitOrderExpiration (goodTilRecord : LimitOrderExpiration) : DexState :=
  { dex with expirations := dex.expirations.set goodTilRecord }

def removeLimitOrderExpiration (goodTilDate : Time)
    (trancheRef : LimitOrderTrancheKey) : DexState :=
  { dex with expirations :=
      dex.expirations.delete (toLex (timeBytes goodTilDate, trancheRef)) }

end DexState

end Neutron.Dex
