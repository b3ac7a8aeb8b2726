import Mathlib.Algebra.BigOperators.Group.List.Basic
import Neutron.Dex.Visit

namespace Neutron.Dex

open Library PrecDec

inductive Visits (now : Time) (tradePairID : TradePairID) :
    OrderBook → PrecDec → PrecDec → OrderBook → Prop
  | nil (book : OrderBook) : Visits now tradePairID book 0 0 book
  | cons {book middle final : OrderBook}
      {firstIn firstOut restIn restOut : PrecDec}
      (first : Visit now tradePairID book firstIn firstOut middle)
      (rest : Visits now tradePairID middle restIn restOut final) :
      Visits now tradePairID book (firstIn + restIn) (firstOut + restOut) final

structure Visited (now : Time) (tradePairID : TradePairID) (book : OrderBook)
    (tick : TickLiquidity) (maxIn : PrecDec) (maxOut : Option PrecDec)
    (inAmount outAmount : PrecDec) (next : OrderBook) : Prop where
  trade : Trade tick.reserves tick.price maxIn maxOut inAmount outAmount
  visit : Visit now tradePairID book inAmount outAmount next
  frame : ∀ key : TickLiquidityKey, key.tradePairID = tradePairID → key ≠ tick.key →
    next.tickLiquidity.get? key = book.tickLiquidity.get? key
  gone : outAmount = tick.reserves → next.tickLiquidity.get? tick.key = none

section Turn

variable {now : Time} {tradePairID : TradePairID} {book : OrderBook}

variable {reserves : PoolReserves}

theorem getCounterpart_eq_ok {counterpart : PoolReserves}
    (read : getCounterpart book reserves = .ok counterpart)
    (wellFormed : book.WellFormed) :
    counterpart.Loaded book ∧ counterpart.key = reserves.key.counterpart ∧
      counterpart.Priced := by
  unfold getCounterpart at read
  split at read
  · rename_i stored
    cases read
    exact ⟨.of_getPoolReserves stored, OrderBook.getPoolReserves_key stored,
      (wellFormed.pool stored).2⟩
  · rename_i absent
    obtain ⟨key, zero, priced⟩ := newPoolReservesFromCounterpart_eq_ok read
    refine ⟨.inr ⟨?_, zero⟩, key, priced⟩
    rw [key]
    exact absent

theorem wrapTickLiquidity_poolReserves
    {liquidity : Liquidity} (wellFormed : book.WellFormed)
    (stored : book.getPoolReserves reserves.key = some reserves)
    (wrapped : wrapTickLiquidity book now tradePairID (.poolReserves reserves) =
      .ok (some liquidity)) :
    ∃ pool, liquidity = .poolLiquidity tradePairID pool ∧ pool.Loaded book ∧
      pool.makerSide tradePairID = reserves := by
  rw [wrapTickLiquidity] at wrapped
  obtain ⟨counterpart, read, result⟩ := of_bind wrapped
  obtain ⟨loaded, key, priced⟩ := getCounterpart_eq_ok read wellFormed
  rw [Outcome.pure_eq_ok_iff] at result
  refine ⟨_, (Option.some.inj result).symm, ?_, ?_⟩
  · split
    · exact ⟨loaded, .inl stored, key, priced, (wellFormed.pool stored).2⟩
    · refine ⟨.inl stored, loaded, ?_, (wellFormed.pool stored).2, priced⟩
      change reserves.key = counterpart.key.counterpart
      rw [key, PoolReservesKey.counterpart_counterpart]
  · unfold Pool.makerSide
    by_cases isTaker : tradePairID.IsTakerDenomToken0
    · have notMaker : ¬ tradePairID.IsMakerDenomToken0 := fun isMaker =>
        tradePairID.isMakerDenomToken0_iff_not_isTakerDenomToken0.mp isMaker isTaker
      rw [if_neg notMaker, if_pos isTaker]
    · rw [if_pos (tradePairID.isMakerDenomToken0_iff_not_isTakerDenomToken0.mpr
        isTaker), if_neg isTaker]

variable {pool : Pool}

theorem get?_updatePool_of_ne {key : TickLiquidityKey}
    (notLower : key ≠ .poolReserves pool.lowerTick0.key)
    (notUpper : key ≠ .poolReserves pool.upperTick1.key) :
    (book.writeAll (updatePool pool)).tickLiquidity.get? key =
      book.tickLiquidity.get? key := by
  simp only [updatePool, OrderBook.writeAll_cons, OrderBook.writeAll_nil,
    OrderBook.get?_updatePoolReserves, if_neg notLower, if_neg notUpper]

theorem visited_pool {swapped : Pool} {maxIn inAmount outAmount : PrecDec}
    {maxOut : Option PrecDec} (wellFormed : book.WellFormed)
    (loaded : pool.Loaded book)
    (stored : book.getPoolReserves (pool.makerSide tradePairID).key =
      some (pool.makerSide tradePairID))
    (pair : (pool.makerSide tradePairID).key.tradePairID = tradePairID)
    (best : NoneBelow now book tradePairID
      (pool.makerSide tradePairID).key.tickIndexTakerToMaker)
    (inNonneg : 0 ≤ maxIn.i) (outNonneg : ∀ limit ∈ maxOut, 0 ≤ limit.i)
    (ok : pool.swap tradePairID maxIn maxOut = .ok (inAmount, outAmount, swapped)) :
    Visited now tradePairID book (.poolReserves (pool.makerSide tradePairID)) maxIn
      maxOut inAmount outAmount (book.writeAll (updatePool swapped)) := by
  obtain ⟨token, priced⟩ := wellFormed.pool stored
  have pricePositive : 0 < (pool.makerSide tradePairID).makerPrice.i := by
    rw [priced.price]
    exact tickPrice_pos priced.inRange
  obtain ⟨trade, rfl⟩ := Pool.swap_eq_traded (le_of_lt token) pricePositive inNonneg
    outNonneg ok
  have updates : pool.Updates (pool.traded tradePairID inAmount outAmount) :=
    loaded.traded_updates wellFormed trade.in_nonneg trade.out_le
  have takerPair : (pool.takerSide tradePairID).key.tradePairID ≠ tradePairID := by
    rw [loaded.takerKey]
    change (pool.makerSide tradePairID).key.tradePairID.reversed ≠ tradePairID
    rw [pair]
    exact tradePairID.reversed_ne
  refine ⟨trade, .pool loaded stored pair best trade.in_nonneg trade.out_nonneg
    trade.out_le, ?_, ?_⟩
  · intro key keyPair different
    have notTaker : key ≠ .poolReserves (pool.takerSide tradePairID).key := by
      rintro rfl
      exact takerPair keyPair
    have notMaker : key ≠ .poolReserves (pool.makerSide tradePairID).key := different
    rcases pool.sides_cases tradePairID with ⟨lower, upper⟩ | ⟨lower, upper⟩ <;>
      apply get?_updatePool_of_ne <;>
      simpa only [updates.lowerKey, updates.upperKey, lower, upper]
  · intro all
    have empty : ¬ ((pool.traded tradePairID inAmount outAmount).makerSide
        tradePairID).HasToken := by
      rw [Pool.makerSide_traded, all]
      intro positive
      have amount : 0 < ((pool.makerSide tradePairID).decReservesMakerDenom -
        (pool.makerSide tradePairID).decReservesMakerDenom).i := positive
      rw [sub_self] at amount
      exact lt_irrefl _ amount
    apply OrderBook.getPoolReserves_eq_none_iff.mp
    rw [OrderBook.getPoolReserves_updatePool, updates.lowerKey, updates.upperKey]
    have keysDiffer := loaded.lowerKey_ne_upperKey
    unfold Pool.makerSide at empty ⊢
    split at empty
    · rename_i isToken0
      rw [if_pos isToken0, if_neg keysDiffer, if_pos rfl, if_neg empty]
    · rename_i notToken0
      rw [if_neg notToken0, if_pos rfl, if_neg empty]

variable {tranche : LimitOrderTranche}

theorem visited_tranche {swapped : LimitOrderTranche}
    {maxIn inAmount outAmount : PrecDec} {maxOut : Option PrecDec}
    (wellFormed : book.WellFormed)
    (stored : book.getLimitOrderTranche tranche.key = some tranche)
    (pair : tranche.key.tradePairID = tradePairID)
    (unexpired : ¬ tranche.IsExpired now)
    (inNonneg : 0 ≤ maxIn.i) (outNonneg : ∀ limit ∈ maxOut, 0 ≤ limit.i)
    (ok : tranche.swap maxIn maxOut = .ok (inAmount, outAmount, swapped)) :
    Visited now tradePairID book (.limitOrderTranche tranche) maxIn maxOut inAmount
      outAmount (book.writeAll (updateTranche swapped)) := by
  obtain ⟨trade, rfl⟩ := LimitOrderTranche.swap_eq_traded (wellFormed.active stored).2
    inNonneg outNonneg ok
  refine ⟨trade, .tranche stored pair unexpired trade.in_nonneg trade.out_nonneg
    trade.out_le trade.in_zero, ?_, ?_⟩
  · intro key _ different
    rw [OrderBook.get?_updateTranche]
    exact if_neg different
  · intro all
    have empty : ¬ (tranche.traded inAmount outAmount).HasTokenIn := by
      rw [all]
      intro positive
      have amount : 0 < (tranche.decReservesMakerDenom -
        tranche.decReservesMakerDenom).i := positive
      rw [sub_self] at amount
      exact lt_irrefl _ amount
    rw [OrderBook.get?_updateTranche]
    exact (if_pos rfl).trans (if_neg empty)

theorem wrapTickLiquidity_eq_none {tick : TickLiquidity}
    (wrapped : wrapTickLiquidity book now tradePairID tick = .ok none) :
    tick.IsExpired now := by
  cases tick with
  | poolReserves reserves =>
      rw [wrapTickLiquidity] at wrapped
      obtain ⟨_, _, result⟩ := of_bind wrapped
      cases result
  | limitOrderTranche tranche =>
      rw [wrapTickLiquidity] at wrapped
      split at wrapped
      · rename_i expired
        exact expired
      · cases wrapped

theorem wrapTickLiquidity_limitOrderTranche {liquidity : Liquidity}
    (wrapped : wrapTickLiquidity book now tradePairID (.limitOrderTranche tranche) =
      .ok (some liquidity)) :
    liquidity = .limitOrderTranche tranche ∧ ¬ tranche.IsExpired now := by
  rw [wrapTickLiquidity] at wrapped
  split at wrapped
  · cases wrapped
  · rename_i unexpired
    cases wrapped
    exact ⟨rfl, unexpired⟩

theorem wrapTickLiquidity_price {tick : TickLiquidity} {liquidity : Liquidity}
    (wellFormed : book.WellFormed)
    (stored : book.tickLiquidity.get? tick.key = some tick)
    (wrapped : wrapTickLiquidity book now tradePairID tick = .ok (some liquidity)) :
    liquidity.price = tick.price := by
  cases tick with
  | poolReserves reserves =>
      obtain ⟨pool, rfl, _, side⟩ := wrapTickLiquidity_poolReserves wellFormed
        (OrderBook.getPoolReserves_eq_some_iff.mpr stored) wrapped
      change pool.price tradePairID = reserves.makerPrice
      rw [pool.price_eq_makerSide, side]
  | limitOrderTranche tranche =>
      rw [(wrapTickLiquidity_limitOrderTranche wrapped).1]
      rfl

theorem visited_of_swap {tick : TickLiquidity} {liquidity swapped : Liquidity}
    {maxIn inAmount outAmount : PrecDec} {maxOut : Option PrecDec}
    (wellFormed : book.WellFormed)
    (stored : book.tickLiquidity.get? tick.key = some tick)
    (pair : tick.key.tradePairID = tradePairID)
    (best : NoneBelow now book tradePairID tick.tickIndex)
    (wrapped : wrapTickLiquidity book now tradePairID tick = .ok (some liquidity))
    (inNonneg : 0 ≤ maxIn.i) (outNonneg : ∀ limit ∈ maxOut, 0 ≤ limit.i)
    (ok : liquidity.swap maxIn maxOut = .ok (inAmount, outAmount, swapped)) :
    Visited now tradePairID book tick maxIn maxOut inAmount outAmount
      (book.writeAll swapped.save) := by
  cases tick with
  | poolReserves reserves =>
      have storedSide := OrderBook.getPoolReserves_eq_some_iff.mpr stored
      obtain ⟨pool, rfl, loaded, rfl⟩ :=
        wrapTickLiquidity_poolReserves wellFormed storedSide wrapped
      rw [Liquidity.swap] at ok
      obtain ⟨⟨paid, bought, swappedPool⟩, swap, result⟩ := of_bind ok
      cases result
      exact visited_pool wellFormed loaded storedSide pair best inNonneg outNonneg swap
  | limitOrderTranche tranche =>
      obtain ⟨rfl, unexpired⟩ := wrapTickLiquidity_limitOrderTranche wrapped
      rw [Liquidity.swap] at ok
      obtain ⟨⟨paid, bought, swappedTranche⟩, swap, result⟩ := of_bind ok
      cases result
      exact visited_tranche wellFormed
        (OrderBook.getLimitOrderTranche_eq_some_iff.mpr stored) pair unexpired
        inNonneg outNonneg swap

end Turn

/-- What one turn changes in the variables of the loop.  The loop goes on only
if the taker can afford more and has not reached its own limit. -/
structure SwapTurn (liquidity : Liquidity) (state next : SwapState)
    (inAmount outAmount : PrecDec) (swapped : Liquidity) : Prop where
  swap : liquidity.swap state.remainingTakerDenom state.remainingMakerDenom =
    .ok (inAmount, outAmount, swapped)
  writes : next.writes = state.writes ++ swapped.save
  remaining : next.remainingTakerDenom = state.remainingTakerDenom - inAmount
  total : next.totalMakerDenom = state.totalMakerDenom + outAmount
  goesOn : next.orderFilled = false →
    (∃ affordable, (state.remainingTakerDenom - inAmount).quo liquidity.price =
      .ok affordable ∧ ¬ affordable < onePrecDec) ∧
    next.remainingMakerDenom =
      state.remainingMakerDenom.map (fun remaining => remaining - outAmount) ∧
    ∀ limit ∈ state.remainingMakerDenom, 0 < limit.i - outAmount.i
  stops : next.orderFilled = true → state.orderFilled = false →
    (∃ affordable, next.remainingTakerDenom.quo liquidity.price = .ok affordable ∧
      affordable < onePrecDec) ∨
    ∃ limit ∈ state.remainingMakerDenom, limit.i ≤ outAmount.i

theorem swapStep_turn {liquidity : Liquidity} {state next : SwapState}
    (ok : swapStep liquidity state = .ok next) :
    ∃ inAmount outAmount swapped,
      SwapTurn liquidity state next inAmount outAmount swapped := by
  unfold swapStep at ok
  obtain ⟨⟨inAmount, outAmount, swapped⟩, swap, ok⟩ := of_bind ok
  obtain ⟨affordable, division, ok⟩ := of_bind ok
  refine ⟨inAmount, outAmount, swapped, ?_⟩
  split at ok
  · rename_i tooLittle
    cases ok
    exact ⟨swap, rfl, rfl, rfl, fun notFilled => (nomatch notFilled),
      fun _ _ => .inl ⟨affordable, division, tooLittle⟩⟩
  · rename_i enough
    split at ok
    · rename_i unlimited
      cases ok
      refine ⟨swap, rfl, rfl, rfl, fun _ => ⟨⟨affordable, division, enough⟩, ?_, ?_⟩, ?_⟩
      · rw [unlimited]
        rfl
      · intro limit isLimit
        rw [unlimited] at isLimit
        cases isLimit
      · intro filled notFilled
        exact nomatch notFilled.symm.trans filled
    · rename_i remaining limited
      cases ok
      refine ⟨swap, rfl, rfl, rfl, fun notFilled =>
        ⟨⟨affordable, division, enough⟩, ?_, ?_⟩, ?_⟩
      · rw [limited]
        rfl
      · intro limit isLimit
        rw [limited] at isLimit
        cases isLimit
        exact not_not.mp (of_decide_eq_false notFilled)
      · intro filled _
        have used := of_decide_eq_true filled
        rw [IsPositive, sub_i] at used
        exact .inr ⟨remaining, limited, by omega⟩

/-- The ticks still to visit are all offers of the trade pair, best first. -/
structure Unvisited (now : Time) (tradePairID : TradePairID) (book : OrderBook)
    (ticks : List TickLiquidity) : Prop where
  wellFormed : book.WellFormed
  stored : ∀ tick ∈ ticks, book.tickLiquidity.get? tick.key = some tick ∧
    tick.key.tradePairID = tradePairID
  increasing : ticks.Pairwise fun left right => left.key < right.key
  complete : ∀ tick : TickLiquidity, tick.Live now book →
    tick.key.tradePairID = tradePairID → tick ∈ ticks

namespace Unvisited

variable {now : Time} {tradePairID : TradePairID} {book : OrderBook}
  {tick : TickLiquidity} {rest : List TickLiquidity}

theorem ticks (wellFormed : book.WellFormed) :
    Unvisited now tradePairID book (book.ticks tradePairID) where
  wellFormed := wellFormed
  stored _ member := OrderBook.mem_ticks_iff.mp member
  increasing := book.ticks_increasing tradePairID
  complete _ live pair := OrderBook.mem_ticks_iff.mpr ⟨live.stored, pair⟩

theorem skip (unvisited : Unvisited now tradePairID book (tick :: rest))
    (dead : ¬ tick.Live now book) : Unvisited now tradePairID book rest where
  wellFormed := unvisited.wellFormed
  stored other member := unvisited.stored other (List.mem_cons_of_mem _ member)
  increasing := (List.pairwise_cons.mp unvisited.increasing).2
  complete other live pair := by
    rcases List.mem_cons.mp (unvisited.complete other live pair) with same | inRest
    · exact absurd (same ▸ live) dead
    · exact inRest

variable {other : TickLiquidity}

theorem tickIndex_le (unvisited : Unvisited now tradePairID book (tick :: rest))
    (member : other ∈ tick :: rest) :
    tick.tickIndex ≤ other.tickIndex := by
  rcases List.mem_cons.mp member with same | inRest
  · rw [same]
  · have below := (List.pairwise_cons.mp unvisited.increasing).1 other inRest
    have samePair : tick.key.tradePairID = other.key.tradePairID := by
      rw [(unvisited.stored tick (by simp)).2, (unvisited.stored other member).2]
    simpa using TickLiquidityKey.tickIndexTakerToMaker_le below samePair

theorem noneBelow (unvisited : Unvisited now tradePairID book (tick :: rest)) :
    NoneBelow now book tradePairID tick.tickIndex :=
  fun other live pair => unvisited.tickIndex_le (unvisited.complete other live pair)

theorem pastLimit (unvisited : Unvisited now tradePairID book (tick :: rest))
    {limitPrice : Option PrecDec} (past : PastLimit limitPrice tick.price)
    (live : other.Live now book)
    (pair : other.key.tradePairID = tradePairID) : PastLimit limitPrice other.price := by
  have member := unvisited.complete other live pair
  have first := unvisited.wellFormed.price_eq (unvisited.stored tick (by simp)).1
  have second := unvisited.wellFormed.price_eq live.stored
  cases limitPrice with
  | none => exact past
  | some limit =>
      change limit.i < other.price.i
      calc limit.i < tick.price.i := past
        _ ≤ other.price.i := by
            rw [first, second]
            exact tickPrice_mono (unvisited.tickIndex_le member)

theorem advance (unvisited : Unvisited now tradePairID book (tick :: rest))
    {maxIn inAmount outAmount : PrecDec} {maxOut : Option PrecDec} {next : OrderBook}
    (visited : Visited now tradePairID book tick maxIn maxOut inAmount outAmount next)
    (all : outAmount = tick.reserves) : Unvisited now tradePairID next rest where
  wellFormed := visited.visit.wellFormed unvisited.wellFormed
  stored other member := by
    obtain ⟨stored, pair⟩ := unvisited.stored other (List.mem_cons_of_mem _ member)
    have below := (List.pairwise_cons.mp unvisited.increasing).1 other member
    exact ⟨(visited.frame _ pair (ne_of_gt below)).trans stored, pair⟩
  increasing := (List.pairwise_cons.mp unvisited.increasing).2
  complete other live pair := by
    have different : other.key ≠ tick.key := by
      intro same
      have stored := live.stored
      rw [same, visited.gone all] at stored
      cases stored
    have before : other.Live now book :=
      ⟨(visited.frame _ pair different).symm.trans live.stored, live.token,
        live.unexpired⟩
    rcases List.mem_cons.mp (unvisited.complete other before pair) with same | inRest
    · exact absurd (congrArg TickLiquidity.key same) different
    · exact inRest

end Unvisited

structure SweepStep where
  tick : TickLiquidity
  inAmount : PrecDec
  outAmount : PrecDec

def SweepStep.totalIn (steps : List SweepStep) : PrecDec :=
  (steps.map SweepStep.inAmount).sum

def SweepStep.totalOut (steps : List SweepStep) : PrecDec :=
  (steps.map SweepStep.outAmount).sum

namespace SweepStep

@[simp] theorem totalIn_nil : totalIn [] = 0 := rfl

@[simp] theorem totalOut_nil : totalOut [] = 0 := rfl

@[simp] theorem totalIn_cons (step : SweepStep) (steps : List SweepStep) :
    totalIn (step :: steps) = step.inAmount + totalIn steps := List.sum_cons

@[simp] theorem totalOut_cons (step : SweepStep) (steps : List SweepStep) :
    totalOut (step :: steps) = step.outAmount + totalOut steps := List.sum_cons

end SweepStep

/-- The steps that lead from one book to another: each trades, with what the taker has
left, with an offer of the book as the earlier steps have left it. -/
inductive Sweep (now : Time) (tradePairID : TradePairID) (limitPrice : Option PrecDec) :
    OrderBook → PrecDec → Option PrecDec → List SweepStep → OrderBook → Prop
  | nil (book : OrderBook) (maxIn : PrecDec) (maxOut : Option PrecDec) :
      Sweep now tradePairID limitPrice book maxIn maxOut [] book
  | cons {book final : OrderBook} {maxIn inAmount outAmount : PrecDec}
      {maxOut : Option PrecDec} {tick : TickLiquidity} {liquidity swapped : Liquidity}
      {steps : List SweepStep}
      (stored : book.tickLiquidity.get? tick.key = some tick)
      (pair : tick.key.tradePairID = tradePairID)
      (within : ¬ PastLimit limitPrice tick.price)
      (wrapped : wrapTickLiquidity book now tradePairID tick = .ok (some liquidity))
      (swap : liquidity.swap maxIn maxOut = .ok (inAmount, outAmount, swapped))
      (visited : Visited now tradePairID book tick maxIn maxOut inAmount outAmount
        (book.writeAll swapped.save))
      (rest : Sweep now tradePairID limitPrice (book.writeAll swapped.save)
        (maxIn - inAmount) (maxOut.map fun remaining => remaining - outAmount) steps final) :
      Sweep now tradePairID limitPrice book maxIn maxOut
        (⟨tick, inAmount, outAmount⟩ :: steps) final

def OrderBook.SweptUpTo (now : Time) (tradePairID : TradePairID)
    (limitPrice : Option PrecDec) (book : OrderBook) : Prop :=
  ∀ tick : TickLiquidity, tick.Live now book → tick.key.tradePairID = tradePairID →
    PastLimit limitPrice tick.price

structure LoopSweeps (now : Time) (tradePairID : TradePairID) (limitPrice : Option PrecDec)
    (book : OrderBook) (ticks : List TickLiquidity) (state final : SwapState)
    (steps : List SweepStep) : Prop where
  sweep : Sweep now tradePairID limitPrice (book.writeAll state.writes)
    state.remainingTakerDenom state.remainingMakerDenom steps (book.writeAll final.writes)
  inOrder : (steps.map SweepStep.tick).Sublist ticks
  remaining : final.remainingTakerDenom =
    state.remainingTakerDenom - SweepStep.totalIn steps
  total : final.totalMakerDenom = state.totalMakerDenom + SweepStep.totalOut steps
  nonneg : 0 ≤ final.remainingTakerDenom.i
  swept : final.orderFilled = false →
    (book.writeAll final.writes).SweptUpTo now tradePairID limitPrice
  filled : final.orderFilled = true → ∃ last, steps.getLast? = some last ∧
    ((∃ affordable, final.remainingTakerDenom.quo last.tick.price = .ok affordable ∧
      affordable < onePrecDec) ∨
    ∃ limit ∈ state.remainingMakerDenom, limit.i ≤ (SweepStep.totalOut steps).i)

variable {ticks : List TickLiquidity}

theorem LoopSweeps.stop {now : Time} {tradePairID : TradePairID}
    {limitPrice : Option PrecDec} {book : OrderBook}
    {state : SwapState} (notFilled : state.orderFilled = false)
    (nonneg : 0 ≤ state.remainingTakerDenom.i)
    (swept : (book.writeAll state.writes).SweptUpTo now tradePairID limitPrice) :
    LoopSweeps now tradePairID limitPrice book ticks state state [] where
  sweep := .nil _ _ _
  inOrder := List.nil_sublist _
  remaining := (sub_zero _).symm
  total := (add_zero _).symm
  nonneg := nonneg
  swept := fun _ => swept
  filled := fun filled => nomatch notFilled.symm.trans filled

theorem LoopSweeps.skip {now : Time} {tradePairID : TradePairID}
    {limitPrice : Option PrecDec} {book : OrderBook} {tick : TickLiquidity}
    {rest : List TickLiquidity} {state final : SwapState} {steps : List SweepStep}
    (sweeps : LoopSweeps now tradePairID limitPrice book rest state final steps) :
    LoopSweeps now tradePairID limitPrice book (tick :: rest) state final steps :=
  { sweeps with inOrder := sweeps.inOrder.cons tick }

/-- One turn at the best tick left, as a visit and by what it leaves to the next turn. -/
structure TurnVisits (now : Time) (tradePairID : TradePairID) (book : OrderBook)
    (tick : TickLiquidity) (rest : List TickLiquidity) (state next : SwapState)
    (inAmount outAmount : PrecDec) (swapped : Liquidity) : Prop where
  nextBook : book.writeAll next.writes = (book.writeAll state.writes).writeAll swapped.save
  visited : Visited now tradePairID (book.writeAll state.writes) tick
    state.remainingTakerDenom state.remainingMakerDenom inAmount outAmount
    ((book.writeAll state.writes).writeAll swapped.save)
  nonneg : 0 ≤ next.remainingTakerDenom.i
  unvisited : next.orderFilled = false →
    Unvisited now tradePairID (book.writeAll next.writes) rest
  remainingMaker : next.orderFilled = false → next.remainingMakerDenom =
    state.remainingMakerDenom.map fun remaining => remaining - outAmount
  outNonneg : next.orderFilled = false → ∀ limit ∈ next.remainingMakerDenom, 0 ≤ limit.i

theorem SwapTurn.visits {now : Time} {tradePairID : TradePairID} {book : OrderBook}
    {tick : TickLiquidity} {rest : List TickLiquidity} {state next : SwapState}
    {inAmount outAmount : PrecDec} {liquidity swapped : Liquidity}
    (turn : SwapTurn liquidity state next inAmount outAmount swapped)
    (unvisited : Unvisited now tradePairID (book.writeAll state.writes) (tick :: rest))
    (wrap : wrapTickLiquidity (book.writeAll state.writes) now tradePairID tick =
      .ok (some liquidity))
    (inNonneg : 0 ≤ state.remainingTakerDenom.i)
    (outNonneg : ∀ limit ∈ state.remainingMakerDenom, 0 ≤ limit.i) :
    TurnVisits now tradePairID book tick rest state next inAmount outAmount swapped := by
  obtain ⟨stored, pair⟩ := unvisited.stored tick List.mem_cons_self
  have price := wrapTickLiquidity_price unvisited.wellFormed stored wrap
  have visited := visited_of_swap unvisited.wellFormed stored pair unvisited.noneBelow wrap
    inNonneg outNonneg turn.swap
  have nextBook : book.writeAll next.writes =
      (book.writeAll state.writes).writeAll swapped.save := by
    rw [turn.writes, OrderBook.writeAll_append]
  have nonneg : 0 ≤ next.remainingTakerDenom.i := by
    have within := visited.trade.in_le
    rw [turn.remaining, sub_i]
    omega
  refine ⟨nextBook, visited, nonneg, fun unfilled => ?_, fun unfilled =>
    (turn.goesOn unfilled).2.1, fun unfilled => ?_⟩
  · obtain ⟨⟨affordable, division, enough⟩, _, positive⟩ := turn.goesOn unfilled
    rw [price] at division
    have all : outAmount = tick.reserves :=
      visited.trade.exhausts affordable division enough fun limit isLimit same => by
        have room := positive limit isLimit
        omega
    rw [nextBook]
    exact unvisited.advance visited all
  · obtain ⟨_, remainingMaker, positive⟩ := turn.goesOn unfilled
    intro limit isLimit
    rw [remainingMaker, Option.mem_map] at isLimit
    obtain ⟨before, isBefore, rfl⟩ := isLimit
    exact le_of_lt (positive before isBefore)

theorem swapLoop_sweeps {book : OrderBook} {now : Time} {tradePairID : TradePairID}
    {limitPrice : Option PrecDec}
    {state final : SwapState}
    (ok : swapLoop book now tradePairID limitPrice ticks state = .ok final)
    (unvisited : Unvisited now tradePairID (book.writeAll state.writes) ticks)
    (notFilled : state.orderFilled = false)
    (inNonneg : 0 ≤ state.remainingTakerDenom.i)
    (outNonneg : ∀ limit ∈ state.remainingMakerDenom, 0 ≤ limit.i) :
    ∃ steps, LoopSweeps now tradePairID limitPrice book ticks state final steps := by
  induction ticks generalizing state with
  | nil =>
      rw [swapLoop, Outcome.pure_eq_ok_iff] at ok
      subst ok
      exact ⟨[], .stop notFilled inNonneg fun tick live pair =>
        absurd (unvisited.complete tick live pair) List.not_mem_nil⟩
  | cons tick rest ih =>
      obtain ⟨stored, pair⟩ := unvisited.stored tick (by simp)
      rw [swapLoop] at ok
      split at ok
      · rename_i noToken
        obtain ⟨steps, sweeps⟩ := ih ok (unvisited.skip fun live => noToken live.token)
          notFilled inNonneg outNonneg
        exact ⟨steps, sweeps.skip⟩
      · obtain ⟨wrapped, wrap, ok⟩ := of_bind ok
        split at ok
        · have expired := wrapTickLiquidity_eq_none wrap
          obtain ⟨steps, sweeps⟩ := ih ok (unvisited.skip fun live => live.unexpired expired)
            notFilled inNonneg outNonneg
          exact ⟨steps, sweeps.skip⟩
        · rename_i liquidity
          have price := wrapTickLiquidity_price unvisited.wellFormed stored wrap
          split at ok
          · rename_i past
            cases ok
            rw [price] at past
            exact ⟨[], .stop notFilled inNonneg fun other live pair =>
              unvisited.pastLimit past live pair⟩
          · rename_i notPast
            rw [price] at notPast
            obtain ⟨next, turn, ok⟩ := of_bind ok
            obtain ⟨inAmount, outAmount, swapped, turn⟩ := swapStep_turn turn
            have visits := turn.visits unvisited wrap inNonneg outNonneg
            split at ok
            · rename_i filled
              cases ok
              refine ⟨[⟨tick, inAmount, outAmount⟩], {
                sweep := ?_
                inOrder := List.singleton_sublist.mpr List.mem_cons_self
                remaining := ?_
                total := ?_
                nonneg := visits.nonneg
                swept := ?_
                filled := ?_ }⟩
              · rw [visits.nextBook]
                exact .cons stored pair notPast wrap turn.swap visits.visited (.nil _ _ _)
              · rw [turn.remaining]
                simp
              · rw [turn.total]
                simp
              · rw [filled]
                exact fun impossible => nomatch impossible
              · intro _
                have last := turn.stops filled notFilled
                rw [price] at last
                refine ⟨_, rfl, last.imp_right ?_⟩
                rintro ⟨limit, isLimit, reached⟩
                refine ⟨limit, isLimit, ?_⟩
                rwa [SweepStep.totalOut_cons, SweepStep.totalOut_nil, add_zero]
            · rename_i unfilled
              have nextUnfilled : next.orderFilled = false := by simpa using unfilled
              obtain ⟨steps, sweeps⟩ := ih ok (visits.unvisited nextUnfilled) nextUnfilled
                visits.nonneg (visits.outNonneg nextUnfilled)
              have restSweep := sweeps.sweep
              rw [visits.nextBook, turn.remaining,
                visits.remainingMaker nextUnfilled] at restSweep
              refine ⟨⟨tick, inAmount, outAmount⟩ :: steps, {
                sweep := .cons stored pair notPast wrap turn.swap visits.visited restSweep
                inOrder := sweeps.inOrder.cons_cons tick
                remaining := ?_
                total := ?_
                nonneg := sweeps.nonneg
                swept := sweeps.swept
                filled := ?_ }⟩
              · rw [sweeps.remaining, turn.remaining]
                rw [SweepStep.totalIn_cons]
                abel
              · rw [sweeps.total, turn.total]
                rw [SweepStep.totalOut_cons]
                abel
              · intro filled
                obtain ⟨last, isLast, stops⟩ := sweeps.filled filled
                refine ⟨last, ?_, stops.imp_right ?_⟩
                · rw [List.getLast?_cons, isLast, Option.getD_some]
                · rintro ⟨limit, isLimit, reached⟩
                  rw [visits.remainingMaker nextUnfilled] at isLimit
                  obtain ⟨before, isBefore, rfl⟩ := Option.mem_map.mp isLimit
                  rw [sub_i] at reached
                  refine ⟨before, isBefore, ?_⟩
                  rw [SweepStep.totalOut_cons, add_i]
                  dsimp only
                  omega

theorem Sweep.visits {now : Time} {tradePairID : TradePairID}
    {limitPrice : Option PrecDec} {book final : OrderBook} {maxIn : PrecDec}
    {maxOut : Option PrecDec} {steps : List SweepStep}
    (sweep : Sweep now tradePairID limitPrice book maxIn maxOut steps final) :
    Visits now tradePairID book (SweepStep.totalIn steps) (SweepStep.totalOut steps)
      final := by
  induction sweep with
  | nil book => exact .nil book
  | cons _ _ _ _ _ visited _ ih => exact .cons visited.visit ih

/-- What a swap leaves behind: the offers it visited, and, if it was not filled,
nothing within its limit. -/
structure Swept (now : Time) (tradePairID : TradePairID) (limitPrice : Option PrecDec)
    (book : OrderBook) (inAmount outAmount : PrecDec) (final : OrderBook)
    (orderFilled : Bool) : Prop where
  visits : Visits now tradePairID book inAmount outAmount final
  past : orderFilled = false → ∀ tick : TickLiquidity, tick.Live now final →
    tick.key.tradePairID = tradePairID → PastLimit limitPrice tick.price

structure SwapSpec (now : Time) (tradePairID : TradePairID) (amountIn : PrecDec)
    (limitPrice : Option PrecDec) (book : OrderBook) (result : SwapResult) : Prop where
  swept : Swept now tradePairID limitPrice book result.totalTakerCoin.amount
    result.totalMakerCoin.amount (book.writeAll result.writes) result.orderFilled
  takerDenom : result.totalTakerCoin.denom = tradePairID.takerDenom
  makerDenom : result.totalMakerCoin.denom = tradePairID.makerDenom
  inNonneg : 0 ≤ result.totalTakerCoin.amount.i
  inLe : result.totalTakerCoin.amount.i ≤ amountIn.i
  outNonneg : 0 ≤ result.totalMakerCoin.amount.i

/-- The steps of a swap that succeeds on a well-formed book, and what it reports. -/
structure SwapSweeps (now : Time) (tradePairID : TradePairID) (amountIn : PrecDec)
    (maxAmountOut : Option Int) (limitPrice : Option PrecDec) (book : OrderBook)
    (result : SwapResult) (steps : List SweepStep) : Prop where
  sweep : Sweep now tradePairID limitPrice book amountIn
    (maxAmountOut.map newPrecDecFromInt) steps (book.writeAll result.writes)
  inOrder : (steps.map SweepStep.tick).Sublist (book.ticks tradePairID)
  totalTakerCoin : result.totalTakerCoin =
    ⟨tradePairID.takerDenom, SweepStep.totalIn steps⟩
  totalMakerCoin : result.totalMakerCoin =
    ⟨tradePairID.makerDenom, SweepStep.totalOut steps⟩
  inNonneg : 0 ≤ (SweepStep.totalIn steps).i
  inLe : (SweepStep.totalIn steps).i ≤ amountIn.i
  outNonneg : 0 ≤ (SweepStep.totalOut steps).i
  swept : result.orderFilled = false →
    (book.writeAll result.writes).SweptUpTo now tradePairID limitPrice
  filled : result.orderFilled = true → ∃ last, steps.getLast? = some last ∧
    ((∃ affordable,
      (amountIn - SweepStep.totalIn steps).quo last.tick.price = .ok affordable ∧
        affordable < onePrecDec) ∨
    ∃ limit ∈ maxAmountOut, newPrecDecFromInt limit ≤ SweepStep.totalOut steps)

section Swap

variable {book : OrderBook} {now : Time} {tradePairID : TradePairID} {amountIn : PrecDec}
  {maxAmountOut : Option Int} {limitPrice : Option PrecDec} {result : SwapResult}

theorem limits_nonneg (outNonneg : ∀ limit ∈ maxAmountOut, 0 ≤ limit) :
    ∀ limit ∈ maxAmountOut.map newPrecDecFromInt, 0 ≤ limit.i := by
  intro limit isLimit
  obtain ⟨amount, isAmount, rfl⟩ := Option.mem_map.mp isLimit
  exact Int.mul_nonneg (outNonneg amount isAmount) (Int.natCast_nonneg _)

theorem swap_sweeps (wellFormed : book.WellFormed) (inNonneg : 0 ≤ amountIn.i)
    (outNonneg : ∀ limit ∈ maxAmountOut, 0 ≤ limit)
    (ok : swap book now tradePairID amountIn maxAmountOut limitPrice = .ok result) :
    ∃ steps, SwapSweeps now tradePairID amountIn maxAmountOut limitPrice book result
      steps := by
  obtain ⟨final, loop, ok⟩ := of_bind ok
  obtain ⟨takerCoin, takerNew, ok⟩ := of_bind ok
  obtain ⟨makerCoin, makerNew, ok⟩ := of_bind ok
  cases ok
  obtain ⟨_, takerNonneg, rfl⟩ := newPrecDecCoin_eq_ok_iff.mp takerNew
  obtain ⟨_, makerNonneg, rfl⟩ := newPrecDecCoin_eq_ok_iff.mp makerNew
  have limits := limits_nonneg outNonneg
  obtain ⟨steps, sweeps⟩ := swapLoop_sweeps loop (Unvisited.ticks wellFormed) rfl inNonneg
    limits
  have nonneg := sweeps.nonneg
  have spent : amountIn - final.remainingTakerDenom = SweepStep.totalIn steps := by
    rw [sweeps.remaining]
    abel
  have bought : final.totalMakerDenom = SweepStep.totalOut steps := by
    rw [sweeps.total]
    exact zero_add _
  rw [spent] at takerNonneg
  rw [bought] at makerNonneg
  refine ⟨steps, sweeps.sweep, sweeps.inOrder, ?_, ?_, takerNonneg, ?_, makerNonneg,
    sweeps.swept, ?_⟩
  · dsimp only
    rw [spent]
  · dsimp only
    rw [bought]
  · rw [← spent, sub_i]
    omega
  · intro filled
    obtain ⟨last, isLast, stops⟩ := sweeps.filled filled
    rw [sweeps.remaining] at stops
    refine ⟨last, isLast, stops.imp_right ?_⟩
    rintro ⟨limit, isLimit, reached⟩
    obtain ⟨amount, isAmount, rfl⟩ := Option.mem_map.mp isLimit
    exact ⟨amount, isAmount, reached⟩

theorem swap_spec (wellFormed : book.WellFormed) (inNonneg : 0 ≤ amountIn.i)
    (outNonneg : ∀ limit ∈ maxAmountOut, 0 ≤ limit)
    (ok : swap book now tradePairID amountIn maxAmountOut limitPrice = .ok result) :
    SwapSpec now tradePairID amountIn limitPrice book result := by
  obtain ⟨steps, sweeps⟩ := swap_sweeps wellFormed inNonneg outNonneg ok
  have taker := sweeps.totalTakerCoin
  have maker := sweeps.totalMakerCoin
  refine ⟨⟨?_, sweeps.swept⟩, ?_, ?_, ?_, ?_, ?_⟩
  · rw [taker, maker]
    exact sweeps.sweep.visits
  · rw [taker]
  · rw [maker]
  · rw [taker]
    exact sweeps.inNonneg
  · rw [taker]
    exact sweeps.inLe
  · rw [maker]
    exact sweeps.outNonneg

end Swap

end Neutron.Dex
