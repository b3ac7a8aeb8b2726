import Neutron.Dex.SwapSpec

namespace Neutron.Dex

open Library PrecDec

namespace TickLiquidity

structure Live (now : Time) (book : OrderBook) (tick : TickLiquidity) : Prop where
  stored : book.tickLiquidity.get? tick.key = some tick
  token : tick.HasToken
  unexpired : ¬ tick.IsExpired now

def reserves : TickLiquidity → PrecDec
  | poolReserves reserves => reserves.decReservesMakerDenom
  | limitOrderTranche tranche => tranche.decReservesMakerDenom

end TickLiquidity

theorem OrderBook.WellFormed.price_eq {book : OrderBook} (wellFormed : book.WellFormed)
    {tick : TickLiquidity}
    (stored : book.tickLiquidity.get? tick.key = some tick) :
    tick.price = tickPrice tick.tickIndex := by
  cases tick with
  | poolReserves reserves =>
      exact (wellFormed.pool (OrderBook.getPoolReserves_eq_some_iff.mpr stored)).2.price
  | limitOrderTranche tranche =>
      exact (wellFormed.active
        (OrderBook.getLimitOrderTranche_eq_some_iff.mpr stored)).2.price

def NoneBelow (now : Time) (book : OrderBook) (tradePairID : TradePairID)
    (tickIndex : Int) : Prop :=
  ∀ tick : TickLiquidity, tick.Live now book → tick.key.tradePairID = tradePairID →
    tickIndex ≤ tick.tickIndex

/-- A taker trades with one offer of the book.  Pools are only visited if they
are the best offer. -/
inductive Visit (now : Time) (tradePairID : TradePairID) (book : OrderBook) :
    PrecDec → PrecDec → OrderBook → Prop
  | pool {pool : Pool} {inAmount outAmount : PrecDec} (loaded : pool.Loaded book)
      (stored : book.getPoolReserves (pool.makerSide tradePairID).key =
        some (pool.makerSide tradePairID))
      (pair : (pool.makerSide tradePairID).key.tradePairID = tradePairID)
      (best : NoneBelow now book tradePairID
        (pool.makerSide tradePairID).key.tickIndexTakerToMaker)
      (inNonneg : 0 ≤ inAmount.i) (outNonneg : 0 ≤ outAmount.i)
      (outLe : outAmount.i ≤ (pool.makerSide tradePairID).decReservesMakerDenom.i) :
      Visit now tradePairID book inAmount outAmount
        (book.writeAll (updatePool (pool.traded tradePairID inAmount outAmount)))
  | tranche {tranche : LimitOrderTranche} {inAmount outAmount : PrecDec}
      (stored : book.getLimitOrderTranche tranche.key = some tranche)
      (pair : tranche.key.tradePairID = tradePairID)
      (unexpired : ¬ tranche.IsExpired now)
      (inNonneg : 0 ≤ inAmount.i) (outNonneg : 0 ≤ outAmount.i)
      (outLe : outAmount.i ≤ tranche.decReservesMakerDenom.i)
      (inZero : outAmount.i = 0 → inAmount.i = 0) :
      Visit now tradePairID book inAmount outAmount
        (book.writeAll (updateTranche (tranche.traded inAmount outAmount)))

namespace Pool

variable {pool : Pool} {tradePairID : TradePairID} {book : OrderBook}

theorem Loaded.takerKey (loaded : pool.Loaded book) (tradePairID : TradePairID) :
    (pool.takerSide tradePairID).key =
      (pool.makerSide tradePairID).key.counterpart := by
  unfold takerSide makerSide
  split
  · rw [loaded.counterpart, PoolReservesKey.counterpart_counterpart]
  · exact loaded.counterpart

theorem Loaded.lower_nonneg (loaded : pool.Loaded book) (wellFormed : book.WellFormed) :
    0 ≤ pool.lowerTick0.decReservesMakerDenom.i := by
  rcases loaded.lower with stored | ⟨_, zero⟩
  · exact le_of_lt (wellFormed.pool stored).1
  · rw [zero]
    exact le_refl 0

theorem Loaded.upper_nonneg (loaded : pool.Loaded book) (wellFormed : book.WellFormed) :
    0 ≤ pool.upperTick1.decReservesMakerDenom.i := by
  rcases loaded.upper with stored | ⟨_, zero⟩
  · exact le_of_lt (wellFormed.pool stored).1
  · rw [zero]
    exact le_refl 0

theorem Loaded.traded_updates (loaded : pool.Loaded book)
    (wellFormed : book.WellFormed) {inAmount outAmount : PrecDec}
    (inNonneg : 0 ≤ inAmount.i)
    (outLe : outAmount.i ≤ (pool.makerSide tradePairID).decReservesMakerDenom.i) :
    pool.Updates (pool.traded tradePairID inAmount outAmount) := by
  have lower := loaded.lower_nonneg wellFormed
  have upper := loaded.upper_nonneg wellFormed
  unfold traded
  unfold makerSide at outLe ⊢
  unfold takerSide
  split
  · rename_i isToken0
    rw [if_pos isToken0] at outLe
    exact ⟨rfl, rfl, rfl, rfl, by simpa using outLe, by simp; omega⟩
  · rename_i notToken0
    rw [if_neg notToken0] at outLe
    exact ⟨rfl, rfl, rfl, rfl, by simp; omega, by simpa using outLe⟩

theorem sides_cases (pool : Pool) (tradePairID : TradePairID) :
    (pool.lowerTick0 = pool.makerSide tradePairID ∧
        pool.upperTick1 = pool.takerSide tradePairID) ∨
      (pool.lowerTick0 = pool.takerSide tradePairID ∧
        pool.upperTick1 = pool.makerSide tradePairID) := by
  unfold makerSide takerSide
  split
  · exact .inl ⟨rfl, rfl⟩
  · exact .inr ⟨rfl, rfl⟩

theorem price_eq_makerSide (pool : Pool) (tradePairID : TradePairID) :
    pool.price tradePairID = (pool.makerSide tradePairID).makerPrice := by
  have isMaker := tradePairID.isMakerDenomToken0_iff_not_isTakerDenomToken0
  unfold price makerSide
  by_cases isTaker : tradePairID.IsTakerDenomToken0
  · rw [if_pos isTaker, if_neg fun maker => isMaker.mp maker isTaker]
  · rw [if_neg isTaker, if_pos (isMaker.mpr isTaker)]

theorem owed_eq_sides (pool : Pool) (tradePairID : TradePairID) :
    pool.owed =
      (pool.makerSide tradePairID).owed + (pool.takerSide tradePairID).owed := by
  rcases pool.sides_cases tradePairID with ⟨lower, upper⟩ | ⟨lower, upper⟩
  · rw [owed, lower, upper]
  · rw [owed, lower, upper, add_comm]

theorem makerSide_traded (pool : Pool) (tradePairID : TradePairID)
    (inAmount outAmount : PrecDec) :
    (pool.traded tradePairID inAmount outAmount).makerSide tradePairID =
      { pool.makerSide tradePairID with
        decReservesMakerDenom :=
          (pool.makerSide tradePairID).decReservesMakerDenom - outAmount } := by
  unfold traded makerSide
  split <;> rfl

theorem takerSide_traded (pool : Pool) (tradePairID : TradePairID)
    (inAmount outAmount : PrecDec) :
    (pool.traded tradePairID inAmount outAmount).takerSide tradePairID =
      { pool.takerSide tradePairID with
        decReservesMakerDenom :=
          (pool.takerSide tradePairID).decReservesMakerDenom + inAmount } := by
  unfold traded takerSide
  split <;> rfl

theorem Loaded.owed_traded (loaded : pool.Loaded book)
    (pair : (pool.makerSide tradePairID).key.tradePairID = tradePairID)
    (inAmount outAmount : PrecDec) :
    (pool.traded tradePairID inAmount outAmount).owed - pool.owed =
      Flow.coin tradePairID.takerDenom inAmount -
        Flow.coin tradePairID.makerDenom outAmount := by
  have takerPair : (pool.takerSide tradePairID).key.tradePairID =
      tradePairID.reversed := by
    rw [loaded.takerKey]
    exact congrArg TradePairID.reversed pair
  rw [owed_eq_sides _ tradePairID, owed_eq_sides pool tradePairID, makerSide_traded,
    takerSide_traded]
  simp only [PoolReserves.owed, pair, takerPair, Flow.coin_sub, Flow.coin_add,
    TradePairID.reversed_makerDenom]
  abel

end Pool

namespace LimitOrderTranche

variable {tranche : LimitOrderTranche}

theorem Sound.traded (sound : tranche.Sound) {inAmount outAmount : PrecDec}
    (inNonneg : 0 ≤ inAmount.i)
    (outLe : outAmount.i ≤ tranche.decReservesMakerDenom.i) :
    (tranche.traded inAmount outAmount).Sound where
  maker := by simpa [LimitOrderTranche.traded] using outLe
  taker := by
    have taker := sound.taker
    simp only [LimitOrderTranche.traded, add_i]
    omega
  totalTaker := by
    have totalTaker := sound.totalTaker
    simp only [LimitOrderTranche.traded, add_i]
    omega
  price := sound.price
  inRange := sound.inRange

theorem owed_traded (tranche : LimitOrderTranche) (inAmount outAmount : PrecDec) :
    (tranche.traded inAmount outAmount).owed - tranche.owed =
      Flow.coin tranche.key.tradePairID.takerDenom inAmount -
        Flow.coin tranche.key.tradePairID.makerDenom outAmount := by
  simp only [owed, traded, Flow.coin_sub, Flow.coin_add]
  abel

end LimitOrderTranche

namespace Visit

variable {now : Time} {tradePairID : TradePairID} {book next : OrderBook}
  {inAmount outAmount : PrecDec}

theorem wellFormed (visit : Visit now tradePairID book inAmount outAmount next)
    (before : book.WellFormed) : next.WellFormed := by
  cases visit with
  | pool loaded _ _ _ inNonneg _ outLe =>
      exact before.updatePool loaded (loaded.traded_updates before inNonneg outLe)
  | tranche stored _ _ inNonneg _ outLe _ =>
      exact before.updateTranche ((before.active stored).2.traded inNonneg outLe)
        (before.exclusive stored)

theorem owed (visit : Visit now tradePairID book inAmount outAmount next)
    (before : book.WellFormed) :
    next.owed = book.owed + (Flow.coin tradePairID.takerDenom inAmount -
      Flow.coin tradePairID.makerDenom outAmount) := by
  cases visit with
  | pool loaded _ pair _ inNonneg _ outLe =>
      rw [OrderBook.owed_updatePool loaded
        (loaded.traded_updates before inNonneg outLe), loaded.owed_traded pair]
  | @tranche tranche _ _ stored pair _ inNonneg _ outLe =>
      have sound := (before.active stored).2.traded inNonneg outLe
      have change := OrderBook.owed_updateTranche sound (before.exclusive stored)
      have keyEq : (tranche.traded inAmount outAmount).key = tranche.key := rfl
      rw [keyEq, stored, Option.elim_some, LimitOrderTranche.owed_traded, pair] at change
      exact change

end Visit

end Neutron.Dex
