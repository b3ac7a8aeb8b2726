import Neutron.Library.Crossing
import Neutron.Dex.Bookkeeping

namespace Neutron.Dex

open Library PrecDec

theorem TradePairID.reversed_involutive : Function.Involutive TradePairID.reversed :=
  TradePairID.reversed_reversed

theorem newTradePairIDFromMaker_token1_reversed (pairID : PairID) :
    (newTradePairIDFromMaker pairID pairID.token1).reversed =
      newTradePairIDFromMaker pairID pairID.token0 := by
  ext1 <;> simp

def OrderBook.offers (now : Time) (book : OrderBook) (tradePairID : TradePairID) : Set Int :=
  { tickIndex | ∃ tick : TickLiquidity, tick.Live now book ∧
    tick.key.tradePairID = tradePairID ∧ tick.tickIndex = tickIndex }

def Uncrossed (now : Time) (book : OrderBook) : Prop :=
  Crossing.Uncrossed TradePairID.reversed (book.offers now)

theorem NoneBelow.clear {now : Time} {book : OrderBook} {tradePairID : TradePairID}
    {tickIndex : Int} (noneBelow : NoneBelow now book tradePairID.reversed (-tickIndex)) :
    Crossing.Clear TradePairID.reversed (book.offers now) tradePairID tickIndex := by
  rintro _ ⟨tick, live, pair, rfl⟩
  exact noneBelow tick live pair

theorem LimitOrderTranche.IsExpired.mono {tranche : LimitOrderTranche} {now later : Time}
    (expired : tranche.IsExpired now) (notBefore : now ≤ later) :
    tranche.IsExpired later := by
  unfold IsExpired at expired ⊢
  split
  · rename_i permanent
    rwa [permanent] at expired
  · rename_i expirationTime expires
    rw [expires] at expired
    exact ⟨expired.1, expired.2.trans notBefore⟩

section Updates

variable {now : Time} {book : OrderBook} {tradePairID : TradePairID}

theorem PoolReserves.Loaded.offered {reserves : PoolReserves} (loaded : reserves.Loaded book)
    (token : reserves.HasToken) :
    reserves.key.tickIndexTakerToMaker ∈ book.offers now reserves.key.tradePairID := by
  rcases loaded with stored | ⟨_, zero⟩
  · exact ⟨.poolReserves reserves,
      ⟨OrderBook.getPoolReserves_eq_some_iff.mp stored, token, id⟩, rfl, rfl⟩
  · rw [HasToken, zero] at token
    exact absurd token (lt_irrefl _)

def Pool.offers (pool : Pool) (tradePairID : TradePairID) : Set Int :=
  { tickIndex | ∃ side, (side = pool.lowerTick0 ∨ side = pool.upperTick1) ∧
    side.HasToken ∧ side.key.tradePairID = tradePairID ∧
    side.key.tickIndexTakerToMaker = tickIndex }

theorem OrderBook.offers_updatePool (pool : Pool) :
    (book.writeAll (updatePool pool)).offers now tradePairID ⊆
      book.offers now tradePairID ∪ pool.offers tradePairID := by
  rintro _ ⟨tick, live, pair, rfl⟩
  cases tick with
  | limitOrderTranche tranche =>
      refine .inl ⟨_, ⟨?_, live.token, live.unexpired⟩, pair, rfl⟩
      have stored := OrderBook.getLimitOrderTranche_eq_some_iff.mpr live.stored
      rw [OrderBook.getLimitOrderTranche_updatePool] at stored
      exact OrderBook.getLimitOrderTranche_eq_some_iff.mp stored
  | poolReserves reserves =>
      have stored := OrderBook.getPoolReserves_eq_some_iff.mpr live.stored
      rcases OrderBook.getPoolReserves_of_updatePool stored with
        ⟨isUpper, _, token⟩ | ⟨isLower, _, token⟩ | ⟨_, _, before⟩
      · exact .inr ⟨reserves, .inr isUpper, token, pair, rfl⟩
      · exact .inr ⟨reserves, .inl isLower, token, pair, rfl⟩
      · exact .inl ⟨.poolReserves reserves, ⟨OrderBook.getPoolReserves_eq_some_iff.mp before,
          live.token, live.unexpired⟩, pair, rfl⟩

def LimitOrderTranche.offers (now : Time) (tranche : LimitOrderTranche)
    (tradePairID : TradePairID) : Set Int :=
  { tickIndex | tranche.HasTokenIn ∧ ¬ tranche.IsExpired now ∧
    tranche.key.tradePairID = tradePairID ∧
    tranche.key.tickIndexTakerToMaker = tickIndex }

theorem OrderBook.offers_updateTranche (tranche : LimitOrderTranche) :
    (book.writeAll (updateTranche tranche)).offers now tradePairID ⊆
      book.offers now tradePairID ∪ tranche.offers now tradePairID := by
  rintro _ ⟨tick, live, pair, rfl⟩
  have stored := live.stored
  rw [OrderBook.get?_updateTranche] at stored
  split_ifs at stored with same token
  · cases stored
    exact .inr ⟨token, live.unexpired, pair, rfl⟩
  · exact .inl ⟨tick, ⟨stored, live.token, live.unexpired⟩, pair, rfl⟩

theorem OrderBook.offers_archiveTranche (tranche : LimitOrderTranche) :
    (book.writeAll (archiveTranche tranche)).offers now tradePairID ⊆
      book.offers now tradePairID := by
  rintro _ ⟨tick, live, pair, rfl⟩
  have stored := live.stored
  simp only [archiveTranche, OrderBook.writeAll_cons, OrderBook.writeAll_nil,
    OrderBook.write, IndexedStore.get?_delete] at stored
  split_ifs at stored
  exact ⟨tick, ⟨stored, live.token, live.unexpired⟩, pair, rfl⟩

theorem Uncrossed.of_tickLiquidity {next : OrderBook} (uncrossed : Uncrossed now book)
    (same : next.tickLiquidity = book.tickLiquidity) : Uncrossed now next := by
  refine Crossing.Uncrossed.mono uncrossed ?_
  rintro tradePairID _ ⟨tick, live, pair, rfl⟩
  exact ⟨tick, ⟨same ▸ live.stored, live.token, live.unexpired⟩, pair, rfl⟩

theorem OrderBook.offers_later {later : Time} (notBefore : now ≤ later) :
    book.offers later tradePairID ⊆ book.offers now tradePairID := by
  rintro _ ⟨tick, live, pair, rfl⟩
  refine ⟨tick, ⟨live.stored, live.token, fun expired => live.unexpired ?_⟩, pair, rfl⟩
  cases tick with
  | poolReserves reserves => exact expired
  | limitOrderTranche tranche => exact expired.mono notBefore

end Updates

namespace Uncrossed

variable {now : Time} {book : OrderBook}

theorem poolOffers {pool : Pool}
    (counterpart : pool.lowerTick0.key = pool.upperTick1.key.counterpart) :
    Crossing.Uncrossed TradePairID.reversed pool.offers := by
  rintro tradePairID _ ⟨low, isLow, _, lowPair, rfl⟩ _ ⟨high, isHigh, _, highPair, rfl⟩
  have pairs : high.key.tradePairID = low.key.tradePairID.reversed := by
    rw [highPair, lowPair]
  have lowerPair : pool.lowerTick0.key.tradePairID =
      pool.upperTick1.key.tradePairID.reversed :=
    congrArg PoolReservesKey.tradePairID counterpart
  have lowerTick : pool.lowerTick0.key.tickIndexTakerToMaker =
      pool.upperTick1.key.tickIndexTakerToMaker * -1 + 2 * pool.upperTick1.key.fee :=
    congrArg PoolReservesKey.tickIndexTakerToMaker counterpart
  rcases isLow with rfl | rfl <;> rcases isHigh with rfl | rfl
  · exact absurd pairs.symm (TradePairID.reversed_ne _)
  · omega
  · omega
  · exact absurd pairs.symm (TradePairID.reversed_ne _)

theorem updatePool (uncrossed : Uncrossed now book) {pool : Pool}
    (counterpart : pool.lowerTick0.key = pool.upperTick1.key.counterpart)
    (clear : ∀ side, side = pool.lowerTick0 ∨ side = pool.upperTick1 → side.HasToken →
      Crossing.Clear TradePairID.reversed (book.offers now) side.key.tradePairID
        side.key.tickIndexTakerToMaker) :
    Uncrossed now (book.writeAll (Dex.updatePool pool)) := by
  refine Crossing.Uncrossed.add TradePairID.reversed_involutive uncrossed
    (poolOffers counterpart) ?_ (fun _ => OrderBook.offers_updatePool pool)
  rintro _ _ ⟨side, isSide, token, rfl, rfl⟩
  exact clear side isSide token

theorem updateTranche (uncrossed : Uncrossed now book) {tranche : LimitOrderTranche}
    (clear : tranche.HasTokenIn → ¬ tranche.IsExpired now →
      Crossing.Clear TradePairID.reversed (book.offers now) tranche.key.tradePairID
        tranche.key.tickIndexTakerToMaker) :
    Uncrossed now (book.writeAll (Dex.updateTranche tranche)) := by
  refine Crossing.Uncrossed.add TradePairID.reversed_involutive uncrossed ?_ ?_
    (fun _ => OrderBook.offers_updateTranche tranche)
  · -- One tranche is on one side only.
    rintro _ _ ⟨_, _, rfl, _⟩ _ ⟨_, _, reversed, _⟩
    exact absurd reversed.symm (TradePairID.reversed_ne _)
  · rintro _ _ ⟨token, unexpired, rfl, rfl⟩
    exact clear token unexpired

theorem replaceTranche (uncrossed : Uncrossed now book) (wellFormed : book.WellFormed)
    {key : LimitOrderTrancheKey} {tranche updated : LimitOrderTranche}
    (stored : book.getLimitOrderTranche key = some tranche)
    (sameKey : updated.key = tranche.key)
    (sameExpiration : updated.expirationTime = tranche.expirationTime) :
    Uncrossed now (book.writeAll (Dex.updateTranche updated)) := by
  refine uncrossed.updateTranche fun _ unexpired => Crossing.Uncrossed.clear uncrossed ?_
  have token := (wellFormed.active stored).1
  unfold LimitOrderTranche.IsExpired at unexpired
  rw [sameExpiration] at unexpired
  rw [← OrderBook.getLimitOrderTranche_key stored] at stored
  rw [sameKey]
  exact ⟨.limitOrderTranche tranche, ⟨OrderBook.getLimitOrderTranche_eq_some_iff.mp stored,
    token, unexpired⟩, rfl, rfl⟩

theorem visit {tradePairID : TradePairID} {inAmount outAmount : PrecDec} {next : OrderBook}
    (uncrossed : Uncrossed now book) (wellFormed : book.WellFormed)
    (visit : Visit now tradePairID book inAmount outAmount next) : Uncrossed now next := by
  cases visit with
  | tranche stored _ _ _ _ _ _ => exact uncrossed.replaceTranche wellFormed stored rfl rfl
  | @pool pool _ _ loaded stored pair best inNonneg _ outLe =>
      have updates := loaded.traded_updates wellFormed inNonneg outLe
      refine uncrossed.updatePool ?_ ?_
      · rw [updates.lowerKey, updates.upperKey, loaded.counterpart]
      · intro side isSide token
        have isMakerOrTaker : side.key = (pool.makerSide tradePairID).key ∨
            side.key = (pool.takerSide tradePairID).key := by
          have lowerKey := updates.lowerKey
          have upperKey := updates.upperKey
          rcases pool.sides_cases tradePairID with ⟨lower, upper⟩ | ⟨lower, upper⟩ <;>
            rcases isSide with rfl | rfl <;> simp [lowerKey, upperKey, lower, upper]
        rcases isMakerOrTaker with isMaker | isTaker
        · rw [isMaker]
          exact Crossing.Uncrossed.clear uncrossed
            (PoolReserves.Loaded.offered (.inl stored) (wellFormed.pool stored).1)
        · -- What is paid in rests behind the best offer, by twice the fee.
          rw [isTaker, loaded.takerKey, PoolReservesKey.counterpart, pair]
          refine NoneBelow.clear fun tick live isPair => ?_
          have above := best tick live isPair
          dsimp only
          omega

end Uncrossed

theorem Unvisited.noneBelow_of_find {now : Time} {book : OrderBook}
    {tradePairID : TradePairID} {ticks : List TickLiquidity} {tickIndex : Int}
    (unvisited : Unvisited now tradePairID book ticks)
    (notAbove : ∀ best ∈ ticks.find? fun tick =>
      decide (tick.HasToken ∧ ¬ tick.IsExpired now), tickIndex ≤ best.tickIndex) :
    NoneBelow now book tradePairID tickIndex := by
  induction ticks with
  | nil =>
      intro tick live pair
      exact absurd (unvisited.complete tick live pair) List.not_mem_nil
  | cons first rest ih =>
      by_cases isLive : first.HasToken ∧ ¬ first.IsExpired now
      · have least := notAbove first (by simp [isLive])
        exact fun tick live pair => least.trans (unvisited.noneBelow tick live pair)
      · refine ih (unvisited.skip fun live => isLive ⟨live.token, live.unexpired⟩) ?_
        rwa [List.find?_cons_of_neg (by simpa using isLive)] at notAbove

theorem clear_of_not_isBehindEnemyLines {now : Time} {book : OrderBook}
    {tradePairID : TradePairID} {tickIndex : Int} (wellFormed : book.WellFormed)
    (notBehind : ¬ IsBehindEnemyLines book now tradePairID tickIndex) :
    Crossing.Clear TradePairID.reversed (book.offers now) tradePairID tickIndex := by
  refine NoneBelow.clear (Unvisited.noneBelow_of_find (.ticks wellFormed) ?_)
  intro best found
  have current : getCurrTickIndexTakerToMaker book now tradePairID.reversed =
      some best.tickIndex := by
    rw [getCurrTickIndexTakerToMaker, getCurrLiq, Option.mem_def.mp found, Option.map_some]
  rw [IsBehindEnemyLines, current] at notBehind
  dsimp only at notBehind
  omega

theorem isLeast_of_getCurrTickIndexTakerToMaker {now : Time} {book : OrderBook}
    {tradePairID : TradePairID} {tickIndex : Int} (wellFormed : book.WellFormed)
    (found : getCurrTickIndexTakerToMaker book now tradePairID = some tickIndex) :
    IsLeast (book.offers now tradePairID) tickIndex := by
  obtain ⟨best, isBest, rfl⟩ := Option.map_eq_some_iff.mp found
  have good := List.find?_some isBest
  obtain ⟨stored, pair⟩ := OrderBook.mem_ticks_iff.mp (List.mem_of_find?_eq_some isBest)
  obtain ⟨token, unexpired⟩ := of_decide_eq_true good
  refine ⟨⟨best, ⟨stored, token, unexpired⟩, pair, rfl⟩, ?_⟩
  have noneBelow : NoneBelow now book tradePairID best.tickIndex := by
    refine Unvisited.noneBelow_of_find (.ticks wellFormed) fun other found => ?_
    rw [getCurrLiq, Option.mem_def.mp found] at isBest
    cases isBest
    exact le_refl _
  rintro _ ⟨tick, live, samePair, rfl⟩
  exact noneBelow tick live samePair

namespace Move

variable {rules : Rules} {dex next : DexState} {flow : Flow}

theorem reserve_uncrossed {key : PoolIDKey} {pool : Pool} {reserves0 reserves1 : PrecDec}
    (wellFormed : dex.WellFormed) (uncrossed : Uncrossed rules.now dex.book)
    (readAt : pool.ReadAt dex.book key)
    (lower : 0 < reserves0.i → pool.lowerTick0.HasToken ∨
      ¬ IsBehindEnemyLines dex.book rules.now
        (newTradePairIDFromMaker key.pairID key.pairID.token0)
        (key.centerTickIndexNormalized * -1 + key.fee))
    (upper : 0 < reserves1.i → pool.upperTick1.HasToken ∨
      ¬ IsBehindEnemyLines dex.book rules.now
        (newTradePairIDFromMaker key.pairID key.pairID.token1)
        (key.centerTickIndexNormalized + key.fee)) :
    Uncrossed rules.now
      (dex.book.writeAll (updatePool (pool.withReserves reserves0 reserves1))) := by
  refine uncrossed.updatePool readAt.loaded.counterpart ?_
  rintro _ (rfl | rfl) token
  · rcases lower token with before | notBehind
    · exact Crossing.Uncrossed.clear uncrossed (readAt.loaded.lower.offered before)
    · have lowerKey : pool.lowerTick0.key =
          ⟨newTradePairIDFromMaker key.pairID key.pairID.token0,
            key.centerTickIndexNormalized * -1 + key.fee, key.fee⟩ := by
        rw [readAt.loaded.counterpart, readAt.upperKey, upperTickKey,
          PoolReservesKey.counterpart]
        dsimp only
        rw [newTradePairIDFromMaker_token1_reversed, PoolReservesKey.mk.injEq]
        exact ⟨rfl, by omega, rfl⟩
      rw [Pool.withReserves, lowerKey]
      exact clear_of_not_isBehindEnemyLines wellFormed.book notBehind
  · rcases upper token with before | notBehind
    · exact Crossing.Uncrossed.clear uncrossed (readAt.loaded.upper.offered before)
    · rw [Pool.withReserves, readAt.upperKey]
      exact clear_of_not_isBehindEnemyLines wellFormed.book notBehind

theorem uncrossed (move : Move rules dex flow next) (wellFormed : dex.WellFormed)
    (uncrossed : Uncrossed rules.now dex.book) : Uncrossed rules.now next.book := by
  cases move with
  | visit visit => exact uncrossed.visit wellFormed.book visit
  | @deposit _ pool inAmount0 inAmount1 _ _ readAt _ _ clear =>
      obtain ⟨clear0, clear1⟩ := not_or.mp clear
      refine reserve_uncrossed wellFormed uncrossed readAt (fun _ => ?_) (fun _ => ?_)
      · by_cases isIn : inAmount0.IsPositive
        · exact .inr fun behind => clear0 ⟨isIn, behind⟩
        · exact .inl (by simp only [add_i, IsPositive, PoolReserves.HasToken] at *; omega)
      · by_cases isIn : inAmount1.IsPositive
        · exact .inr fun behind => clear1 ⟨isIn, behind⟩
        · exact .inl (by simp only [add_i, IsPositive, PoolReserves.HasToken] at *; omega)
  | withdraw _ readAt nonneg0 nonneg1 _ _ =>
      refine reserve_uncrossed wellFormed uncrossed readAt (fun token => .inl ?_)
        (fun token => .inl ?_)
      · exact lt_of_lt_of_le token (Int.sub_le_self _ nonneg0)
      · exact lt_of_lt_of_le token (Int.sub_le_self _ nonneg1)
  | @place tranche _ _ _ amount opens _ _ clear =>
      rw [DexState.updateTrancheUser_book, DexState.recordExpirationOf_eq,
        DexState.updateBook]
      dsimp only
      rw [opens.book]
      exact uncrossed.updateTranche fun _ _ => NoneBelow.clear clear
  | cancelActive _ stored cancel _ =>
      have cancels := cancelInTranche_cancels cancel
      rw [dropExpiration_eq, DexState.updateTrancheUser_eq]
      exact uncrossed.replaceTranche wellFormed.book stored cancels.key
        cancels.expirationTime
  | cancelInactive _ _ _ _ =>
      rw [dropExpiration_eq, DexState.updateTrancheUser_eq]
      exact uncrossed.of_tickLiquidity (OrderBook.tickLiquidity_updateInactiveTranche _ _)
  | withdrawActive _ stored withdraw _ _ =>
      obtain ⟨_, _, isWithdrawn⟩ := LimitOrderTranche.withdraw_eq_ok withdraw
      rw [DexState.updateTrancheUser_book]
      exact uncrossed.replaceTranche wellFormed.book stored (by rw [isWithdrawn])
        (by rw [isWithdrawn])
  | withdrawInactive _ _ _ _ _ =>
      rw [DexState.updateTrancheUser_book]
      exact uncrossed.of_tickLiquidity (OrderBook.tickLiquidity_updateInactiveTranche _ _)
  | archive _ =>
      exact Crossing.Uncrossed.mono uncrossed fun _ => OrderBook.offers_archiveTranche _
  | _ => exact uncrossed

end Move

def Action.Forward (world : World) : Action → Prop
  | .nextBlock blockTime => world.blockTime ≤ blockTime
  | _ => True

instance (world : World) : (action : Action) → Decidable (action.Forward world)
  | .nextBlock blockTime => inferInstanceAs (Decidable (world.blockTime ≤ blockTime))
  | .message _ | .purge _ _ _ => inferInstanceAs (Decidable True)

structure World.SoundUncrossed (world : World) : Prop extends world.Sound where
  uncrossed : Uncrossed world.blockTime world.dex.book

theorem step_uncrossed {world : World} {action : Action} (before : world.SoundUncrossed)
    (forward : action.Forward world) : (step world action).SoundUncrossed := by
  refine ⟨step_sound before.toSound action, ?_⟩
  cases action with
  | message msg =>
      unfold step
      dsimp only
      cases delivered : deliver world msg with
      | error failure => exact before.uncrossed
      | ok final =>
          have delivers := deliver_delivers before.wellFormed
            (fun _ => Rules.free_permits world msg _) delivered
          have kept := @Delivers.invariant _ _ _
            (fun dex => dex.WellFormed ∧ Uncrossed world.blockTime dex.book) delivers
            (fun inv move => ⟨(move.keeps inv.1).wellFormed, move.uncrossed inv.1 inv.2⟩)
            (fun balances inv => ⟨inv.1.settled balances, inv.2⟩)
            ⟨before.wellFormed, before.uncrossed⟩
          change Uncrossed final.blockTime final.dex.book
          rw [delivers.blockTime]
          exact kept.2
  | purge curTime gasAtStart gasConsumed =>
      have moves := @purgeExpiredLimitOrders_moves (.free world.blockTime) world.dex curTime
        gasAtStart gasConsumed
      exact (@Moves.invariant _ _ _ _
        (fun dex => dex.WellFormed ∧ Uncrossed world.blockTime dex.book)
        (fun inv move => ⟨(move.keeps inv.1).wellFormed, move.uncrossed inv.1 inv.2⟩) moves
        ⟨before.wellFormed, before.uncrossed⟩).2
  | nextBlock blockTime =>
      exact Crossing.Uncrossed.mono before.uncrossed fun _ => OrderBook.offers_later forward

theorem World.initial_uncrossed (params : Params) (bank : Bank) (blockTime : Time)
    (authority : String) :
    Uncrossed blockTime (World.initial params bank blockTime authority).dex.book := by
  rintro _ _ ⟨tick, live, _, _⟩
  exact nomatch live.stored

theorem World.run_soundUncrossed {params : Params} {bank : Bank} {blockTime : Time}
    {authority : String} {actions : List Action}
    (forward : Machine.Allowed step (fun world action => action.Forward world)
      (World.initial params bank blockTime authority) actions) :
    (Machine.run step (World.initial params bank blockTime authority) actions).SoundUncrossed :=
  Machine.Allowed.invariant (fun _ _ => step_uncrossed)
    ⟨World.sound_initial params bank blockTime authority,
      World.initial_uncrossed params bank blockTime authority⟩ forward

end Neutron.Dex
