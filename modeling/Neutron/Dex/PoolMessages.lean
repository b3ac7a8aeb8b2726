import Neutron.Dex.OrderMessages

namespace Neutron.Dex

open Library PrecDec

structure Pool.Found (dex : DexState) (key : PoolIDKey) (pool : Pool) : Prop where
  registered : dex.poolIDs.get? key = some pool.id
  readAt : pool.ReadAt dex.book key

variable {updated : Pool}

section Find

variable {dex next : DexState} {pairID : PairID} {center : Int} {fee : Nat} {pool : Pool}

theorem getPool_eq_ok (wellFormed : dex.WellFormed)
    (ok : dex.getPool pairID center fee = .ok (some pool)) :
    pool.Found dex ⟨pairID, center, fee⟩ := by
  unfold DexState.getPool at ok
  split at ok
  · cases ok
  · rename_i id registered
    obtain ⟨read, find, ok⟩ := of_bind ok
    cases ok
    obtain ⟨readAt, isID⟩ := @getPoolByPoolID_eq_ok _ ⟨pairID, center, fee⟩ _ _
      wellFormed.book find
    exact ⟨isID ▸ registered, readAt⟩

theorem getPool_eq_ok_none (ok : dex.getPool pairID center fee = .ok none) :
    dex.poolIDs.get? ⟨pairID, center, fee⟩ = none := by
  unfold DexState.getPool at ok
  split at ok
  · rename_i absent
    exact absent
  · obtain ⟨read, find, ok⟩ := of_bind ok
    cases ok

theorem getPoolByID_eq_ok (wellFormed : dex.WellFormed) {id : Nat}
    (ok : dex.getPoolByID id = .ok (some pool)) :
    pool.id = id ∧ ∃ key, pool.Found dex key := by
  unfold DexState.getPoolByID at ok
  split at ok
  · cases ok
  · rename_i metadata stored
    obtain ⟨read, find, ok⟩ := of_bind ok
    cases ok
    obtain ⟨readAt, isID⟩ := @getPoolByPoolID_eq_ok _
      ⟨metadata.pairID, metadata.tick, metadata.fee⟩ _ _ wellFormed.book find
    exact ⟨isID, _, isID ▸ wellFormed.registry.referenced stored, readAt⟩

theorem DexState.WellFormed.getPoolReserves_eq_none (wellFormed : dex.WellFormed)
    {key : PoolReservesKey} (absent : dex.poolIDs.get? key.poolIDKey = none) :
    dex.book.getPoolReserves key = none := by
  cases stored : dex.book.getPoolReserves key with
  | none => rfl
  | some reserves =>
      obtain ⟨id, registered⟩ := wellFormed.pools key reserves stored
      rw [absent] at registered
      cases registered

theorem getOrInitPool_moves {rules : Rules} (wellFormed : dex.WellFormed)
    (ok : dex.getOrInitPool pairID center fee = .ok (pool, next)) :
    Moves rules dex 0 next ∧ next.book = dex.book ∧ next.params = dex.params ∧
      pool.Found next ⟨pairID, center, fee⟩ := by
  obtain ⟨found, get, ok⟩ := of_bind ok
  cases found with
  | some existing =>
      cases ok
      exact ⟨.nil dex, rfl, rfl, getPool_eq_ok wellFormed get⟩
  | none =>
      have absent := getPool_eq_ok_none get
      obtain ⟨created, new, ok⟩ := of_bind ok
      cases ok
      obtain ⟨upperInRange, lowerInRange, rfl⟩ := newPool_eq_ok_iff.mp new
      refine ⟨.single (.registerPool absent upperInRange lowerInRange), rfl, rfl,
        SortedStore.get?_set_self _ _ _, ?_⟩
      refine emptyPool_readAt upperInRange lowerInRange ?_ ?_
      · apply wellFormed.getPoolReserves_eq_none
        rw [poolIDKey_upperTickKey]
        exact absent
      · apply wellFormed.getPoolReserves_eq_none
        rw [PoolReservesKey.poolIDKey_counterpart, poolIDKey_upperTickKey]
        exact absent

theorem Pool.Found.updatePool_of_ne {key : PoolIDKey} (found : pool.Found dex key)
    {other : Pool} {otherKey : PoolIDKey}
    (otherFound : other.Found dex otherKey) (updates : other.Updates updated)
    (different : pool.id ≠ other.id) :
    pool.Found (dex.updateBook (updatePool updated)) key := by
  have keys : key ≠ otherKey := by
    rintro rfl
    exact different (Option.some.inj (found.registered.symm.trans otherFound.registered))
  have frame : ∀ {side : PoolReservesKey}, side.poolIDKey = key →
      (dex.book.writeAll (updatePool updated)).getPoolReserves side =
        dex.book.getPoolReserves side := by
    intro side isSide
    rw [OrderBook.getPoolReserves_updatePool, if_neg, if_neg]
    · rintro rfl
      rw [updates.lowerKey, otherFound.readAt.lower_poolIDKey] at isSide
      exact keys isSide.symm
    · rintro rfl
      rw [updates.upperKey, otherFound.readAt.upper_poolIDKey] at isSide
      exact keys isSide.symm
  have readAt := found.readAt
  refine ⟨found.registered, ⟨?_, ?_, readAt.loaded.counterpart, readAt.loaded.lowerPriced,
    readAt.loaded.upperPriced⟩, readAt.upperKey⟩
  · unfold PoolReserves.Loaded
    change (dex.book.writeAll (updatePool updated)).getPoolReserves _ = _ ∨
      (dex.book.writeAll (updatePool updated)).getPoolReserves _ = _ ∧ _
    rw [frame readAt.lower_poolIDKey]
    exact readAt.loaded.lower
  · unfold PoolReserves.Loaded
    change (dex.book.writeAll (updatePool updated)).getPoolReserves _ = _ ∨
      (dex.book.writeAll (updatePool updated)).getPoolReserves _ = _ ∧ _
    rw [frame readAt.upper_poolIDKey]
    exact readAt.loaded.upper

end Find

namespace Pool

variable {pool withdrawn : Pool} {shares totalShares : Int} {outAmount0 outAmount1 : PrecDec}

theorem redeemSide_eq_ok {reserves outAmount : PrecDec} (nonneg : 0 ≤ reserves.i)
    (sharesNonneg : 0 ≤ shares) (totalNonneg : 0 ≤ totalShares)
    (ok : redeemSide reserves shares totalShares = .ok outAmount) :
    0 ≤ outAmount.i ∧ outAmount.i ≤ reserves.i ∧
      (shares = totalShares → outAmount = reserves) := by
  obtain ⟨value, quotient, ok⟩ := of_bind ok
  cases ok
  obtain ⟨nonzero, isValue⟩ := quoInt_eq_ok_iff.mp quotient
  rw [mulInt_i] at isValue
  have valueNonneg : 0 ≤ value.i := by
    rw [isValue]
    exact Int.tdiv_nonneg (Int.mul_nonneg nonneg sharesNonneg) totalNonneg
  refine ⟨?_, ?_, ?_⟩
  · rw [minPrecDec_i]
    exact le_min valueNonneg nonneg
  · rw [minPrecDec_i]
    exact min_le_right _ _
  · rintro rfl
    apply PrecDec.ext
    rw [minPrecDec_i, isValue, Int.mul_tdiv_cancel _ nonzero, min_self]

structure Redeems (pool : Pool) (shares totalShares : Int)
    (outAmount0 outAmount1 : PrecDec) (withdrawn : Pool) : Prop where
  nonneg0 : 0 ≤ outAmount0.i
  nonneg1 : 0 ≤ outAmount1.i
  within0 : outAmount0.i ≤ pool.lowerTick0.decReservesMakerDenom.i
  within1 : outAmount1.i ≤ pool.upperTick1.decReservesMakerDenom.i
  all0 : shares = totalShares → outAmount0 = pool.lowerTick0.decReservesMakerDenom
  all1 : shares = totalShares → outAmount1 = pool.upperTick1.decReservesMakerDenom
  eq_withReserves : withdrawn = pool.withReserves
    (pool.lowerTick0.decReservesMakerDenom - outAmount0)
    (pool.upperTick1.decReservesMakerDenom - outAmount1)

theorem withdraw_redeems (lowerNonneg : 0 ≤ pool.lowerTick0.decReservesMakerDenom.i)
    (upperNonneg : 0 ≤ pool.upperTick1.decReservesMakerDenom.i) (sharesNonneg : 0 ≤ shares)
    (totalNonneg : 0 ≤ totalShares)
    (ok : pool.withdraw shares totalShares = .ok (outAmount0, outAmount1, withdrawn)) :
    pool.Redeems shares totalShares outAmount0 outAmount1 withdrawn := by
  obtain ⟨⟨out0, out1⟩, redeem, ok⟩ := of_bind ok
  obtain ⟨lower, setLower, ok⟩ := of_bind ok
  obtain ⟨upper, setUpper, ok⟩ := of_bind ok
  obtain ⟨_, rfl⟩ := unlessNegative_eq_ok_iff.mp setLower
  obtain ⟨_, rfl⟩ := unlessNegative_eq_ok_iff.mp setUpper
  cases ok
  obtain ⟨value1, redeem1, redeem⟩ := of_bind redeem
  obtain ⟨value0, redeem0, redeem⟩ := of_bind redeem
  cases redeem
  obtain ⟨nonneg1, within1, all1⟩ := redeemSide_eq_ok upperNonneg sharesNonneg totalNonneg
    redeem1
  obtain ⟨nonneg0, within0, all0⟩ := redeemSide_eq_ok lowerNonneg sharesNonneg totalNonneg
    redeem0
  exact ⟨nonneg0, nonneg1, within0, within1, all0, all1, rfl⟩

theorem Redeems.updates (redeems : pool.Redeems shares totalShares outAmount0 outAmount1
    withdrawn) : pool.Updates withdrawn := by
  rw [redeems.eq_withReserves]
  exact pool.withReserves_updates (Int.sub_nonneg_of_le redeems.within0)
    (Int.sub_nonneg_of_le redeems.within1)

end Pool

section Withdraw

variable {rules : Rules} {bank : Bank} {callerAddr : String} {state next : WithdrawState}
  {pairID : PairID}

structure Removals (dex : DexState) (pairID : PairID) (removals : List (Pool × Int)) :
    Prop where
  each : ∀ removal ∈ removals, 0 ≤ removal.2 ∧
    ∃ key, key.pairID = pairID ∧ removal.1.Found dex key
  distinct : removals.Pairwise fun left right => left.1.id ≠ right.1.id

structure WithdrawTurn (bank : Bank) (state : WithdrawState) (pool : Pool) (shares : Int)
    (next : WithdrawState) : Prop where
  amounts : ∃ outAmount0 outAmount1 withdrawn,
    pool.Redeems shares (bank.supply pool.getPoolDenom) outAmount0 outAmount1 withdrawn ∧
      next.dex = state.dex.updateBook (updatePool withdrawn) ∧
      next.totalReserve0ToRemove = state.totalReserve0ToRemove + outAmount0 ∧
      next.totalReserve1ToRemove = state.totalReserve1ToRemove + outAmount1
  burned : ∀ denom, Tally.amountOf next.coinsToBurn denom =
    Tally.amountOf state.coinsToBurn denom +
      if denom = pool.getPoolDenom then shares else 0

variable {pool : Pool} {shares : Int}

theorem withdrawFromPool_turn {key : PoolIDKey}
    (wellFormed : state.dex.WellFormed) (found : pool.Found state.dex key)
    (nonneg : 0 ≤ shares)
    (ok : withdrawFromPool bank callerAddr state (pool, shares) = .ok next) :
    WithdrawTurn bank state pool shares next := by
  obtain ⟨_, _, ok⟩ := of_bind ok
  obtain ⟨⟨outAmount0, outAmount1, withdrawn⟩, withdraw, ok⟩ := of_bind ok
  obtain ⟨burned, coin, ok⟩ := of_bind ok
  cases ok
  obtain rfl := newCoin_eq_ok coin
  have loaded := found.readAt.loaded
  have redeems := Pool.withdraw_redeems (loaded.lower_nonneg wellFormed.book)
    (loaded.upper_nonneg wellFormed.book) nonneg (Int.natCast_nonneg _) withdraw
  refine ⟨⟨outAmount0, outAmount1, withdrawn, redeems, rfl, rfl, rfl⟩, fun denom => ?_⟩
  rw [Tally.amountOf_add, Tally.amountOf_set_empty]

theorem Removals.tail {dex : DexState}
    {rest : List (Pool × Int)} (removals : Removals dex pairID ((pool, shares) :: rest))
    {key : PoolIDKey} (found : pool.Found dex key)
    (updates : pool.Updates updated) :
    Removals (dex.updateBook (updatePool updated)) pairID rest := by
  obtain ⟨different, distinct⟩ := List.pairwise_cons.mp removals.distinct
  refine ⟨?_, distinct⟩
  intro removal member
  obtain ⟨nonneg, otherKey, pair, otherFound⟩ :=
    removals.each removal (List.mem_cons_of_mem _ member)
  exact ⟨nonneg, otherKey, pair, otherFound.updatePool_of_ne found updates
    (different removal member).symm⟩

theorem executeWithdraw_moves {list : List (Pool × Int)} {final : WithdrawState}
    (wellFormed : state.dex.WellFormed) (removals : Removals state.dex pairID list)
    (ok : list.foldlM (withdrawFromPool bank callerAddr) state = .ok final) :
    Moves rules state.dex
      (-(Flow.coin pairID.token0
          (final.totalReserve0ToRemove - state.totalReserve0ToRemove) +
        Flow.coin pairID.token1
          (final.totalReserve1ToRemove - state.totalReserve1ToRemove))) final.dex := by
  induction list generalizing state with
  | nil =>
      cases ok
      have zero : (0 : PrecDec) = zeroPrecDec := rfl
      rw [sub_self, sub_self, zero, Flow.coin_zero, Flow.coin_zero, add_zero, neg_zero]
      exact .nil _
  | cons removal rest ih =>
      obtain ⟨pool, shares⟩ := removal
      rw [List.foldlM_cons] at ok
      obtain ⟨middle, first, ok⟩ := of_bind ok
      obtain ⟨nonneg, key, rfl, found⟩ := removals.each _ List.mem_cons_self
      obtain ⟨outAmount0, outAmount1, withdrawn, redeems, isNext, total0, total1⟩ :=
        (withdrawFromPool_turn wellFormed found nonneg first).amounts
      have move : Move rules state.dex _ _ := .withdraw found.registered found.readAt
        redeems.nonneg0 redeems.nonneg1 redeems.within0 redeems.within1
      rw [← redeems.eq_withReserves, ← isNext] at move
      have tail := removals.tail found redeems.updates
      rw [← isNext] at tail
      have moves := Moves.cons move (ih (move.keeps wellFormed).wellFormed tail ok)
      rw [total0, total1] at moves
      convert moves using 1
      simp only [Flow.coin_sub, Flow.coin_add]
      abel

end Withdraw

section Removals

variable {dex : DexState} {pairID : PairID}

theorem Pool.Found.key_eq {left right : Pool} {leftKey rightKey : PoolIDKey}
    (leftFound : left.Found dex leftKey) (rightFound : right.Found dex rightKey)
    (registry : Registry dex.poolMetadata dex.poolIDs dex.poolCount)
    (sameID : left.id = right.id) : leftKey = rightKey := by
  have leftMetadata := registry.described leftFound.registered
  have rightMetadata := registry.described rightFound.registered
  rw [sameID, rightMetadata] at leftMetadata
  obtain ⟨leftPair, leftTick, leftFee⟩ := leftKey
  obtain ⟨rightPair, rightTick, rightFee⟩ := rightKey
  cases leftMetadata
  rfl

theorem pairwise_zip_fst {Left Right : Type} {related : Left → Left → Prop}
    {left : List Left} (pairwise : left.Pairwise related) (right : List Right) :
    (left.zip right).Pairwise fun first second => related first.1 second.1 := by
  induction pairwise generalizing right with
  | nil => simp
  | cons head _ ih =>
      cases right with
      | nil => simp
      | cons first rest =>
          rw [List.zip_cons_cons, List.pairwise_cons]
          exact ⟨fun pair member => head _ (List.of_mem_zip member).1, ih rest⟩

variable {poolData : List (Int × Nat)} {pools : List Pool}

theorem poolDataToPools_found
    (wellFormed : dex.WellFormed) (ok : poolDataToPools dex pairID poolData = .ok pools) :
    List.Forall₂ (fun data pool => pool.Found dex ⟨pairID, data.1, data.2⟩) poolData
      pools := by
  refine (Outcome.forall₂_of_mapM_eq_ok ok).imp ?_
  intro data pool turn
  obtain ⟨found, get, turn⟩ := of_bind turn
  cases found with
  | none => cases turn
  | some existing =>
      cases turn
      exact getPool_eq_ok wellFormed get

theorem pairwise_id_of_found
    (wellFormed : dex.WellFormed) (nodup : poolData.Nodup)
    (found : List.Forall₂ (fun data pool => pool.Found dex ⟨pairID, data.1, data.2⟩)
      poolData pools) :
    pools.Pairwise fun left right => left.id ≠ right.id := by
  induction found with
  | nil => exact .nil
  | @cons data pool restData restPools first rest ih =>
      obtain ⟨notInRest, restNodup⟩ := List.nodup_cons.mp nodup
      refine .cons ?_ (ih restNodup)
      intro other member sameID
      obtain ⟨otherData, listed, otherFound⟩ := exists_of_mem_right rest member
      have sameKey := first.key_eq otherFound wellFormed.registry sameID
      simp only [PoolIDKey.mk.injEq, true_and] at sameKey
      have sameData : data = otherData := Prod.ext sameKey.1 sameKey.2
      exact notInRest (sameData ▸ listed)

theorem withdrawCore_removals
    {shares : List Int} (wellFormed : dex.WellFormed) (nodup : poolData.Nodup)
    (nonneg : ∀ share ∈ shares, 0 ≤ share)
    (ok : poolDataToPools dex pairID poolData = .ok pools) :
    Removals dex pairID (pools.zip shares) := by
  have found := poolDataToPools_found wellFormed ok
  refine ⟨?_, pairwise_zip_fst (pairwise_id_of_found wellFormed nodup found) shares⟩
  rintro ⟨pool, share⟩ member
  obtain ⟨poolListed, shareListed⟩ := List.of_mem_zip member
  obtain ⟨data, _, poolFound⟩ := exists_of_mem_right found poolListed
  exact ⟨nonneg share shareListed, _, rfl, poolFound⟩

variable {before : List Pool}

theorem shareToPool_eq_ok {after : List Pool} {share : Coin}
    (wellFormed : dex.WellFormed) (ok : shareToPool dex before share = .ok after) :
    ∃ pool, after = before ++ [pool] ∧
      parsePoolIDFromDenom share.denom = .ok pool.id ∧ (∃ key, pool.Found dex key) ∧
      ∀ first ∈ before.head?, pool.pairID = first.pairID := by
  obtain ⟨id, parsed, ok⟩ := of_bind ok
  obtain ⟨found, get, ok⟩ := of_bind ok
  cases found with
  | none => cases ok
  | some pool =>
      obtain ⟨isID, known⟩ := getPoolByID_eq_ok wellFormed get
      cases before with
      | nil =>
          cases ok
          exact ⟨pool, rfl, isID ▸ parsed, known, by rintro _ ⟨⟩⟩
      | cons first rest =>
          dsimp only [List.head?_cons] at ok
          split at ok
          · rename_i samePair
            cases ok
            refine ⟨pool, rfl, isID ▸ parsed, known, ?_⟩
            rintro _ ⟨⟩
            exact samePair
          · cases ok

theorem foldlM_shareToPool_eq_ok {shares : List Coin}
    (wellFormed : dex.WellFormed)
    (ok : shares.foldlM (shareToPool dex) before = .ok pools) :
    ∃ found, pools = before ++ found ∧
      List.Forall₂ (fun share pool => parsePoolIDFromDenom share.denom = .ok pool.id ∧
        ∃ key, pool.Found dex key) shares found ∧
      ∀ first ∈ pools.head?, ∀ pool ∈ found, pool.pairID = first.pairID := by
  induction shares generalizing before with
  | nil =>
      cases ok
      exact ⟨[], (List.append_nil _).symm, .nil, by rintro _ _ _ ⟨⟩⟩
  | cons share rest ih =>
      rw [List.foldlM_cons] at ok
      obtain ⟨middle, turn, ok⟩ := of_bind ok
      obtain ⟨pool, rfl, parsed, known, samePair⟩ := shareToPool_eq_ok wellFormed turn
      obtain ⟨found, rfl, each, pairs⟩ := ih ok
      refine ⟨pool :: found, by simp, .cons ⟨parsed, known⟩ each, ?_⟩
      intro first isFirst other member
      rcases List.mem_cons.mp member with rfl | inRest
      · cases before with
        | nil =>
            cases isFirst
            rfl
        | cons head tail =>
            cases isFirst
            exact samePair _ rfl
      · exact pairs first isFirst other inRest

theorem withdrawWithShares_removals {shares : List Coin} {first : Pool}
    (wellFormed : dex.WellFormed)
    (nonneg : ∀ share ∈ shares, 0 ≤ share.amount)
    (distinct : shares.Pairwise fun left right =>
      parsePoolIDFromDenom left.denom ≠ parsePoolIDFromDenom right.denom)
    (ok : sharesToPools dex shares = .ok pools) (isFirst : pools.head? = some first) :
    Removals dex first.pairID (pools.zip (shares.map Coin.amount)) := by
  obtain ⟨found, rfl, each, pairs⟩ := foldlM_shareToPool_eq_ok wellFormed ok
  have ids : pools.Pairwise fun left right => left.id ≠ right.id := by
    clear ok isFirst pairs nonneg
    induction each with
    | nil => exact .nil
    | cons head rest ih =>
        obtain ⟨apart, restDistinct⟩ := List.pairwise_cons.mp distinct
        refine .cons ?_ (ih restDistinct)
        intro other member sameID
        obtain ⟨share, listed, parsed, _⟩ := exists_of_mem_right rest member
        apply apart share listed
        rw [head.1, parsed, sameID]
  refine ⟨?_, pairwise_zip_fst ids _⟩
  rintro ⟨pool, amount⟩ member
  obtain ⟨poolListed, amountListed⟩ := List.of_mem_zip member
  obtain ⟨share, listed, rfl⟩ := List.mem_map.mp amountListed
  obtain ⟨_, _, _, key, poolFound⟩ := exists_of_mem_right each poolListed
  refine ⟨nonneg share listed, key, ?_, poolFound⟩
  rw [← pairs first isFirst pool poolListed, ← poolFound.readAt.lower_poolIDKey]
  rfl

end Removals

namespace Pool

theorem calcMatchingAmount_eq_ok {target otherTarget amount otherAmount result : PrecDec}
    (target_nonneg : 0 ≤ target.i) (amount_nonneg : 0 ≤ amount.i)
    (other_nonneg : 0 ≤ otherAmount.i)
    (ok : calcMatchingAmount target otherTarget amount otherAmount = .ok result) :
    0 ≤ result.i ∧ result.i ≤ amount.i := by
  unfold calcMatchingAmount at ok
  split at ok
  · rename_i positive
    obtain ⟨matched, quotient, ok⟩ := of_bind ok
    cases ok
    have nonneg := quo_nonneg quotient (mul_nonneg other_nonneg target_nonneg)
      (le_of_lt positive)
    rw [minPrecDec_i]
    exact ⟨le_min amount_nonneg nonneg, min_le_left _ _⟩
  · cases ok
    exact ⟨amount_nonneg, le_refl _⟩

structure Deposits (pool : Pool) (maxAmount0 maxAmount1 : PrecDec) (autoswap : Bool)
    (deposited : DepositResult) : Prop where
  nonneg0 : 0 ≤ deposited.inAmount0.i
  nonneg1 : 0 ≤ deposited.inAmount1.i
  within0 : deposited.inAmount0.i ≤ maxAmount0.i
  within1 : deposited.inAmount1.i ≤ maxAmount1.i
  whole : autoswap = true →
    deposited.inAmount0 = maxAmount0 ∧ deposited.inAmount1 = maxAmount1
  denom : deposited.outShares.denom = pool.getPoolDenom
  eq_withReserves : deposited.pool = pool.withReserves
    (pool.lowerTick0.decReservesMakerDenom + deposited.inAmount0)
    (pool.upperTick1.decReservesMakerDenom + deposited.inAmount1)

variable {pool : Pool} {maxAmount0 maxAmount1 : PrecDec} {autoswap : Bool}

theorem calcDepositAmounts_eq_ok {inAmount0 inAmount1 value autoswapFee : PrecDec}
    (lowerNonneg : 0 ≤ pool.lowerTick0.decReservesMakerDenom.i)
    (upperNonneg : 0 ≤ pool.upperTick1.decReservesMakerDenom.i)
    (nonneg0 : 0 ≤ maxAmount0.i) (nonneg1 : 0 ≤ maxAmount1.i)
    (ok : pool.calcDepositAmounts maxAmount0 maxAmount1 autoswap =
      .ok (inAmount0, inAmount1, value, autoswapFee)) :
    (0 ≤ inAmount0.i ∧ inAmount0.i ≤ maxAmount0.i) ∧
      (0 ≤ inAmount1.i ∧ inAmount1.i ≤ maxAmount1.i) ∧
      (autoswap = true → inAmount0 = maxAmount0 ∧ inAmount1 = maxAmount1) := by
  obtain ⟨price, _, ok⟩ := of_bind ok
  dsimp only at ok
  split at ok
  · obtain ⟨⟨residual0, residual1⟩, _, ok⟩ := of_bind ok
    obtain ⟨residualValue, _, ok⟩ := of_bind ok
    obtain ⟨fee, _, ok⟩ := of_bind ok
    obtain ⟨fullValue, _, ok⟩ := of_bind ok
    cases ok
    exact ⟨⟨nonneg0, le_refl _⟩, ⟨nonneg1, le_refl _⟩, fun _ => ⟨rfl, rfl⟩⟩
  · rename_i noAutoswap
    obtain ⟨⟨matched0, matched1⟩, matching, ok⟩ := of_bind ok
    obtain ⟨depositValue, _, ok⟩ := of_bind ok
    cases ok
    obtain ⟨result0, match0, matching⟩ := of_bind matching
    obtain ⟨result1, match1, matching⟩ := of_bind matching
    cases matching
    exact ⟨calcMatchingAmount_eq_ok lowerNonneg nonneg0 nonneg1 match0,
      calcMatchingAmount_eq_ok upperNonneg nonneg1 nonneg0 match1,
      fun isAutoswap => absurd isAutoswap noAutoswap⟩

theorem deposit_deposits {existingShares : Int} {deposited : DepositResult}
    (lowerNonneg : 0 ≤ pool.lowerTick0.decReservesMakerDenom.i)
    (upperNonneg : 0 ≤ pool.upperTick1.decReservesMakerDenom.i)
    (nonneg0 : 0 ≤ maxAmount0.i) (nonneg1 : 0 ≤ maxAmount1.i)
    (ok : pool.deposit maxAmount0 maxAmount1 existingShares autoswap = .ok deposited) :
    pool.Deposits maxAmount0 maxAmount1 autoswap deposited := by
  obtain ⟨⟨inAmount0, inAmount1, value, fee⟩, amounts, ok⟩ := of_bind ok
  obtain ⟨outShares, mint, ok⟩ := of_bind ok
  obtain ⟨lower, setLower, ok⟩ := of_bind ok
  obtain ⟨upper, setUpper, ok⟩ := of_bind ok
  obtain ⟨_, rfl⟩ := unlessNegative_eq_ok_iff.mp setLower
  obtain ⟨_, rfl⟩ := unlessNegative_eq_ok_iff.mp setUpper
  cases ok
  obtain ⟨in0, in1, whole⟩ := calcDepositAmounts_eq_ok lowerNonneg upperNonneg nonneg0 nonneg1
    amounts
  refine ⟨in0.1, in1.1, in0.2, in1.2, whole, ?_, rfl⟩
  obtain ⟨price, _, mint⟩ := of_bind mint
  obtain ⟨existingValue, _, mint⟩ := of_bind mint
  obtain ⟨shares, _, mint⟩ := of_bind mint
  cases mint
  rfl

end Pool

section SwapOnDeposit

variable {rules : Rules} {dex : DexState} {pairID : PairID} {tickIndex : Int} {fee : Nat}
  {amount0 amount1 : PrecDec}

/-- What is known of the swaps of a deposit: with what is left to deposit they cost
no more than what is charged. -/
structure SwapsOnDeposit (rules : Rules) (dex : DexState) (pairID : PairID)
    (swapped : SwapOnDepositResult) : Prop where
  nonneg0 : 0 ≤ swapped.depositAmount0.i
  nonneg1 : 0 ≤ swapped.depositAmount1.i
  moves : ∃ flow, Moves rules dex flow (dex.updateBook swapped.writes) ∧
    flow + (Flow.coin pairID.token0 swapped.depositAmount0 +
      Flow.coin pairID.token1 swapped.depositAmount1) ≤
    Flow.coin pairID.token0 swapped.inAmount0 + Flow.coin pairID.token1 swapped.inAmount1

theorem SwapsOnDeposit.none (nonneg0 : 0 ≤ amount0.i) (nonneg1 : 0 ≤ amount1.i) :
    SwapsOnDeposit rules dex pairID ⟨[], amount0, amount1, amount0, amount1⟩ :=
  ⟨nonneg0, nonneg1, 0, .nil dex, by rw [zero_add]⟩

theorem swapOnDepositInAmount_nonneg {swapIn amount : PrecDec} (inLe : swapIn.i ≤ amount.i)
    (orderFilled : Bool) :
    0 ≤ (swapOnDepositInAmount orderFilled swapIn amount - swapIn).i := by
  unfold swapOnDepositInAmount
  rw [sub_i]
  split <;> omega

theorem swapOnDepositToken0_swaps {swapped : SwapOnDepositResult} {swappedToken0 : Bool}
    (wellFormed : dex.WellFormed) (nonneg0 : 0 ≤ amount0.i) (nonneg1 : 0 ≤ amount1.i)
    (ok : swapOnDepositToken0 dex.book rules.now pairID tickIndex fee amount0 amount1 =
      .ok (swapped, swappedToken0)) :
    SwapsOnDeposit rules dex pairID swapped ∧ (swappedToken0 = false →
      swapped = ⟨swapped.writes, amount0, amount1, amount0, amount1⟩) := by
  unfold swapOnDepositToken0 at ok
  split at ok
  · obtain ⟨limitPrice, _, ok⟩ := of_bind ok
    obtain ⟨result, swap, ok⟩ := of_bind ok
    have spec := swap_spec wellFormed.book nonneg0 (by rintro _ ⟨⟩) swap
    have moves := spec.moves
    rw [PrecDecCoin.flow, PrecDecCoin.flow, spec.takerDenom, spec.makerDenom] at moves
    dsimp only at ok
    split at ok
    · cases ok
      refine ⟨⟨swapOnDepositInAmount_nonneg spec.inLe _, Int.add_nonneg nonneg1 spec.outNonneg, _, moves,
        le_of_eq ?_⟩, fun impossible => by cases impossible⟩
      rw [Flow.coin_sub, Flow.coin_add]
      simp only [PairID.takerToken0]
      abel
    · rename_i notPositive
      cases ok
      have zero : result.totalTakerCoin.amount = zeroPrecDec :=
        PrecDec.ext (le_antisymm (not_lt.mp notPositive) spec.inNonneg)
      refine ⟨⟨nonneg0, nonneg1, _, moves, ?_⟩, fun _ => rfl⟩
      rw [zero, Flow.coin_zero, zero_sub]
      intro denom
      have out := Flow.coin_nonneg spec.outNonneg pairID.takerToken0.makerDenom denom
      simp only [Pi.add_apply, Pi.neg_apply]
      omega
  · cases ok
    exact ⟨.none nonneg0 nonneg1, fun _ => rfl⟩

theorem swapOnDeposit_swaps {swapped : SwapOnDepositResult}
    (wellFormed : dex.WellFormed) (nonneg0 : 0 ≤ amount0.i) (nonneg1 : 0 ≤ amount1.i)
    (ok : swapOnDeposit dex.book rules.now pairID tickIndex fee amount0 amount1 =
      .ok swapped) :
    SwapsOnDeposit rules dex pairID swapped := by
  obtain ⟨⟨first, swappedToken0⟩, swapFirst, ok⟩ := of_bind ok
  obtain ⟨firstSwaps, isFirst⟩ := @swapOnDepositToken0_swaps rules _ _ _ _ _ _ _ _
    wellFormed nonneg0 nonneg1 swapFirst
  dsimp only at ok
  split at ok
  · obtain ⟨firstFlow, firstMoves, firstCovers⟩ := firstSwaps.moves
    obtain ⟨limitPrice, _, ok⟩ := of_bind ok
    obtain ⟨result, swap, ok⟩ := of_bind ok
    have spec := swap_spec (firstMoves.wellFormed wellFormed).book nonneg1 (by rintro _ ⟨⟩)
      swap
    have secondMoves : Moves rules (dex.updateBook first.writes) _ _ := spec.moves
    rw [PrecDecCoin.flow, PrecDecCoin.flow, spec.takerDenom, spec.makerDenom] at secondMoves
    have moves := firstMoves.append secondMoves
    have writes : (dex.updateBook first.writes).updateBook result.writes =
        dex.updateBook (first.writes ++ result.writes) := by
      simp [DexState.updateBook]
    rw [writes] at moves
    split at ok
    · split at ok
      · cases ok
      · rename_i notSwapped
        cases ok
        rw [isFirst (Bool.eq_false_iff.mpr notSwapped)] at firstCovers ⊢
        dsimp only at firstCovers ⊢
        refine ⟨Int.add_nonneg nonneg0 spec.outNonneg,
          swapOnDepositInAmount_nonneg spec.inLe _, _, moves, ?_⟩
        intro denom
        have covers := firstCovers denom
        simp only [Flow.coin_sub, Flow.coin_add, PairID.takerToken1, Pi.add_apply,
          Pi.sub_apply] at covers ⊢
        omega
    · rename_i notPositive
      cases ok
      have zero : result.totalTakerCoin.amount = zeroPrecDec :=
        PrecDec.ext (le_antisymm (not_lt.mp notPositive) spec.inNonneg)
      refine ⟨firstSwaps.nonneg0, firstSwaps.nonneg1, _, moves, ?_⟩
      intro denom
      have covers := firstCovers denom
      have out := Flow.coin_nonneg spec.outNonneg pairID.takerToken1.makerDenom denom
      simp only [zero, Flow.coin_zero, zero_sub, Pi.add_apply, Pi.neg_apply] at covers ⊢
      omega
  · cases ok
    exact firstSwaps

end SwapOnDeposit

theorem not_isPoolBehindEnemyLines_mono {book : OrderBook} {now : Time} {pairID : PairID}
    {tickIndex : Int} {fee : Nat} {amount0 amount1 less0 less1 : PrecDec}
    (le0 : less0.i ≤ amount0.i) (le1 : less1.i ≤ amount1.i)
    (clear : ¬ IsPoolBehindEnemyLines book now pairID tickIndex fee amount0 amount1) :
    ¬ IsPoolBehindEnemyLines book now pairID tickIndex fee less0 less1 := by
  rintro (⟨positive, behind⟩ | ⟨positive, behind⟩)
  · exact clear (.inl ⟨lt_of_lt_of_le positive le0, behind⟩)
  · exact clear (.inr ⟨lt_of_lt_of_le positive le1, behind⟩)

section Deposit

variable {rules : Rules} {pairID : PairID} {supply : String → Nat} {leg : DepositLeg}
  {state next : DepositState}

structure DepositLeg.Valid (leg : DepositLeg) : Prop where
  nonneg0 : 0 ≤ leg.amount0
  nonneg1 : 0 ≤ leg.amount1
  options : ¬ (leg.options.disableAutoswap = true ∧ leg.options.swapOnDeposit = true)

def FundsPools (rules : Rules) (sharesIssued : List Coin) : Prop :=
  ∀ shares ∈ sharesIssued, shares.amount ≠ 0 →
    ∀ id, shares.denom = newPoolDenom id → rules.funded id

structure DepositMoves (rules : Rules) (pairID : PairID) (state next : DepositState) :
    Prop where
  moves : ∃ flow, Moves rules state.dex flow next.dex ∧
    flow ≤ Flow.coin pairID.token0 (next.totalInAmount0 - state.totalInAmount0) +
      Flow.coin pairID.token1 (next.totalInAmount1 - state.totalInAmount1)
  params : next.dex.params = state.dex.params

theorem DepositMoves.idle (dex : next.dex = state.dex)
    (total0 : next.totalInAmount0 = state.totalInAmount0)
    (total1 : next.totalInAmount1 = state.totalInAmount1) :
    DepositMoves rules pairID state next := by
  have zero : (0 : PrecDec) = zeroPrecDec := rfl
  refine ⟨⟨0, dex ▸ .nil _, ?_⟩, by rw [dex]⟩
  rw [total0, total1, sub_self, sub_self, zero, Flow.coin_zero, Flow.coin_zero, add_zero]

theorem DepositMoves.trans {middle : DepositState}
    (first : DepositMoves rules pairID state middle)
    (rest : DepositMoves rules pairID middle next) :
    DepositMoves rules pairID state next := by
  obtain ⟨firstFlow, firstMoves, firstCovers⟩ := first.moves
  obtain ⟨restFlow, restMoves, restCovers⟩ := rest.moves
  refine ⟨⟨_, firstMoves.append restMoves, ?_⟩, rest.params.trans first.params⟩
  intro denom
  have firstCover := firstCovers denom
  have restCover := restCovers denom
  simp only [Flow.coin_sub, Pi.add_apply, Pi.sub_apply] at firstCover restCover ⊢
  omega

theorem depositLegSwap_swaps {dex : DexState} {swapped : SwapOnDepositResult}
    (wellFormed : dex.WellFormed) (valid : leg.Valid)
    (ok : depositLegSwap dex.book rules.now pairID leg = .ok swapped) :
    SwapsOnDeposit rules dex pairID swapped ∧ (leg.options.swapOnDeposit = false →
      swapped = ⟨[], newPrecDecFromInt leg.amount0, newPrecDecFromInt leg.amount1,
        newPrecDecFromInt leg.amount0, newPrecDecFromInt leg.amount1⟩) := by
  have nonneg0 : 0 ≤ (newPrecDecFromInt leg.amount0).i :=
    Int.mul_nonneg valid.nonneg0 (Int.natCast_nonneg _)
  have nonneg1 : 0 ≤ (newPrecDecFromInt leg.amount1).i :=
    Int.mul_nonneg valid.nonneg1 (Int.natCast_nonneg _)
  unfold depositLegSwap at ok
  dsimp only at ok
  split at ok
  · rename_i swaps
    exact ⟨swapOnDeposit_swaps wellFormed nonneg0 nonneg1 ok,
      fun noSwaps => absurd swaps (Bool.eq_false_iff.mp noSwaps)⟩
  · cases ok
    exact ⟨.none nonneg0 nonneg1, fun _ => rfl⟩

structure PoolDeposit (rules : Rules) (pairID : PairID) (leg : DepositLeg)
    (swapped : SwapOnDepositResult) (state next : DepositState)
    (inAmount0 inAmount1 : PrecDec) : Prop where
  moves : Moves rules state.dex
    (Flow.coin pairID.token0 inAmount0 + Flow.coin pairID.token1 inAmount1) next.dex
  params : next.dex.params = state.dex.params
  whole : leg.options.disableAutoswap = false →
    inAmount0 = swapped.depositAmount0 ∧ inAmount1 = swapped.depositAmount1
  total0 : next.totalInAmount0 =
    state.totalInAmount0 + leg.options.charged inAmount0 swapped.inAmount0
  total1 : next.totalInAmount1 =
    state.totalInAmount1 + leg.options.charged inAmount1 swapped.inAmount1

theorem depositLegPool_deposit {swapped : SwapOnDepositResult}
    (wellFormed : state.dex.WellFormed) (nonneg0 : 0 ≤ swapped.depositAmount0.i)
    (nonneg1 : 0 ≤ swapped.depositAmount1.i)
    (clear : ¬ IsPoolBehindEnemyLines state.dex.book rules.now pairID leg.tickIndex leg.fee
      swapped.depositAmount0 swapped.depositAmount1)
    (ok : depositLegPool supply pairID leg swapped state = .ok next) :
    ∃ inAmount0 inAmount1 shares, shares.amount ≠ 0 ∧
      next.sharesIssued = state.sharesIssued ++ [shares] ∧
      (FundsPools rules [shares] →
        PoolDeposit rules pairID leg swapped state next inAmount0 inAmount1) := by
  obtain ⟨⟨pool, dex⟩, find, ok⟩ := of_bind ok
  obtain ⟨deposited, deposit, ok⟩ := of_bind ok
  obtain ⟨found, sameBook, sameParams, isFound⟩ :=
    @getOrInitPool_moves _ _ _ _ _ _ rules wellFormed find
  have foundWellFormed := found.wellFormed wellFormed
  have loaded := isFound.readAt.loaded
  have deposits := Pool.deposit_deposits (loaded.lower_nonneg foundWellFormed.book)
    (loaded.upper_nonneg foundWellFormed.book) nonneg0 nonneg1 deposit
  dsimp only at ok
  split at ok
  · cases ok
  · split at ok
    · cases ok
    · rename_i someShares
      cases ok
      refine ⟨deposited.inAmount0, deposited.inAmount1, deposited.outShares, someShares, rfl,
        fun funds => ?_⟩
      have move : Move rules dex _ _ := .deposit isFound.registered
        (funds _ List.mem_cons_self someShares _ deposits.denom) isFound.readAt
        deposits.nonneg0 deposits.nonneg1 (by
          rw [sameBook]
          exact not_isPoolBehindEnemyLines_mono deposits.within0 deposits.within1 clear)
      rw [← deposits.eq_withReserves] at move
      refine ⟨?_, sameParams, ?_, rfl, rfl⟩
      · have moves := found.append (.single move)
        rwa [zero_add] at moves
      · intro autoswap
        exact deposits.whole (by simp [autoswap])

variable {isWhitelistedLP : Bool}

theorem depositLeg_moves {isWhitelistedLP : Bool} (wellFormed : state.dex.WellFormed)
    (valid : leg.Valid)
    (ok : depositLeg supply rules.now pairID isWhitelistedLP state leg = .ok next) :
    (∃ issued, next.sharesIssued = state.sharesIssued ++ issued ∧
      ∀ shares ∈ issued, shares.amount ≠ 0) ∧
      (FundsPools rules next.sharesIssued → DepositMoves rules pairID state next) := by
  obtain ⟨_, _, ok⟩ := of_bind ok
  obtain ⟨swapped, swap, ok⟩ := of_bind ok
  obtain ⟨swaps, noSwaps⟩ := @depositLegSwap_swaps rules _ _ _ _ wellFormed valid swap
  obtain ⟨flow, moves, covers⟩ := swaps.moves
  dsimp only at ok
  split at ok
  · split at ok
    · cases ok
    · rename_i lenient
      cases ok
      refine ⟨⟨[], (List.append_nil _).symm, by rintro _ ⟨⟩⟩, fun _ => ?_⟩
      have noSwap : leg.options.swapOnDeposit = false :=
        Bool.eq_false_iff.mpr fun swapped => lenient (.inr swapped)
      have same : state.dex.updateBook swapped.writes = state.dex := by
        rw [noSwaps noSwap]
        rfl
      exact .idle same rfl rfl
  · rename_i clear
    obtain ⟨inAmount0, inAmount1, shares, nonzero, issued, deposit⟩ :=
      depositLegPool_deposit (moves.wellFormed wellFormed) swaps.nonneg0 swaps.nonneg1
        clear ok
    refine ⟨⟨[shares], issued, by simpa using nonzero⟩, fun funds => ?_⟩
    have deposits := deposit fun coin member => funds coin (by
      rw [issued]
      exact List.mem_append_right _ member)
    have total0 : next.totalInAmount0 - state.totalInAmount0 =
        leg.options.charged inAmount0 swapped.inAmount0 := by
      rw [deposits.total0]
      abel
    have total1 : next.totalInAmount1 - state.totalInAmount1 =
        leg.options.charged inAmount1 swapped.inAmount1 := by
      rw [deposits.total1]
      abel
    refine ⟨?_, deposits.params⟩
    rw [total0, total1]
    cases autoswap : leg.options.disableAutoswap with
    | true =>
        -- without autoswap the leg did not swap either
        have noSwap : leg.options.swapOnDeposit = false :=
          Bool.eq_false_iff.mpr fun swaps => valid.options ⟨autoswap, swaps⟩
        have same : state.dex.updateBook swapped.writes = state.dex := by
          rw [noSwaps noSwap]
          rfl
        have depositMoves := deposits.moves
        rw [same] at depositMoves
        refine ⟨_, depositMoves, ?_⟩
        simp [DepositOptions.charged, autoswap]
    | false =>
        obtain ⟨whole0, whole1⟩ := deposits.whole autoswap
        refine ⟨_, moves.append deposits.moves, ?_⟩
        simpa [DepositOptions.charged, autoswap, whole0, whole1] using covers

theorem executeDeposit_moves {legs : List DepositLeg}
    {state final : DepositState} (wellFormed : state.dex.WellFormed)
    (valid : ∀ leg ∈ legs, leg.Valid)
    (ok : legs.foldlM (depositLeg supply rules.now pairID isWhitelistedLP) state =
      .ok final) :
    (∃ issued, final.sharesIssued = state.sharesIssued ++ issued ∧
      ∀ shares ∈ issued, shares.amount ≠ 0) ∧
      (FundsPools rules final.sharesIssued → DepositMoves rules pairID state final) := by
  induction legs generalizing state with
  | nil =>
      cases ok
      exact ⟨⟨[], (List.append_nil _).symm, by rintro _ ⟨⟩⟩, fun _ => .idle rfl rfl rfl⟩
  | cons leg rest ih =>
      rw [List.foldlM_cons] at ok
      obtain ⟨middle, turn, ok⟩ := of_bind ok
      have legValid := valid leg List.mem_cons_self
      obtain ⟨⟨firstIssued, isFirst, firstNonzero⟩, first⟩ :=
        depositLeg_moves wellFormed legValid turn
      -- that the stores stay well formed does not depend on who gets shares
      obtain ⟨_, anyMoves, _⟩ := ((@depositLeg_moves
        ⟨rules.now, rules.pays, rules.cancels, fun _ => True⟩
        _ _ _ _ _ _ wellFormed legValid turn).2 fun _ _ _ _ _ => trivial).moves
      obtain ⟨⟨restIssued, isRest, restNonzero⟩, others⟩ :=
        ih (anyMoves.wellFormed wellFormed)
          (fun other member => valid other (List.mem_cons_of_mem _ member)) ok
      refine ⟨⟨firstIssued ++ restIssued, ?_, ?_⟩, fun funds => ?_⟩
      · rw [isRest, isFirst, List.append_assoc]
      · intro shares member
        rcases List.mem_append.mp member with inFirst | inRest
        · exact firstNonzero shares inFirst
        · exact restNonzero shares inRest
      · refine (first fun coin member => funds coin ?_).trans (others funds)
        rw [isRest]
        exact List.mem_append_left _ member

end Deposit

section Shares

theorem get?_foldl_sanitize {coins : List Coin} {clean : Coins} {denom : String}
    (present : (∃ amount, clean.get? denom = some amount) ∨
      ∃ coin ∈ coins, coin.denom = denom ∧ coin.amount ≠ 0) :
    ∃ amount, (coins.foldl (fun clean coin =>
      if coin.amount = 0 then clean
      else clean.set coin.denom (Tally.amountOf clean coin.denom + coin.amount))
        clean).get? denom = some amount := by
  induction coins generalizing clean with
  | nil =>
      rcases present with found | ⟨_, impossible, _⟩
      · exact found
      · cases impossible
  | cons coin rest ih =>
      rw [List.foldl_cons]
      apply ih
      rcases present with ⟨amount, found⟩ | ⟨other, member, isDenom, nonzero⟩
      · left
        split
        · exact ⟨amount, found⟩
        · rw [SortedStore.get?_set]
          split
          · exact ⟨_, rfl⟩
          · exact ⟨amount, found⟩
      · rcases List.mem_cons.mp member with rfl | inRest
        · left
          rw [if_neg nonzero, ← isDenom, SortedStore.get?_set_self]
          exact ⟨_, rfl⟩
        · exact .inr ⟨other, inRest, isDenom, nonzero⟩

end Shares

end Neutron.Dex
