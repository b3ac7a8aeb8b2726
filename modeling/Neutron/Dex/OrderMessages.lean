import Neutron.Dex.Banker

namespace Neutron.Dex

open Library PrecDec

theorem OrderBook.findLimitOrderTranche_eq_some {book : OrderBook}
    {key : LimitOrderTrancheKey} {tranche : LimitOrderTranche} {wasFilled : Bool}
    (found : book.findLimitOrderTranche key = some (tranche, wasFilled)) :
    (wasFilled = false ∧ book.getLimitOrderTranche key = some tranche) ∨
      (wasFilled = true ∧ book.getInactiveLimitOrderTranche key = some tranche ∧
        book.getLimitOrderTranche key = none) := by
  unfold findLimitOrderTranche at found
  split at found
  · rename_i active
    cases found
    exact .inl ⟨rfl, active⟩
  · rename_i absent
    obtain ⟨other, inactive, isFound⟩ := Option.map_eq_some_iff.mp found
    cases isFound
    exact .inr ⟨rfl, inactive, absent⟩

variable {address : String}

theorem limitOrderTrancheKey_of_stored {dex : DexState} {trancheKey : String}
    {user : LimitOrderTrancheUser}
    (holder : dex.getLimitOrderTrancheUser address trancheKey = some user) :
    (⟨user.tradePairID, user.tickIndexTakerToMaker, trancheKey⟩ : LimitOrderTrancheKey) =
      user.limitOrderTrancheKey := by
  rw [← (LimitOrderTrancheUser.key_eq_of_stored holder).2]
  rfl

def LimitOrderCoins.flow (coins : LimitOrderCoins) : Flow :=
  coins.makerCoinOut.flow + coins.takerCoinOut.flow

section Tranche

variable {rules : Rules} {dex next : DexState} {trancheKey callerAddr : String}
  {coins : LimitOrderCoins}

theorem executeCancelLimitOrder_moves
    (cancels : ∀ {user tranche},
      dex.getLimitOrderTrancheUser callerAddr trancheKey = some user →
      dex.book.getLimitOrderTranche user.limitOrderTrancheKey = some tranche →
        rules.cancels tranche user)
    (ok : executeCancelLimitOrder dex trancheKey callerAddr = .ok (coins, next)) :
    Moves rules dex (-coins.flow) next := by
  unfold executeCancelLimitOrder at ok
  split at ok
  · cases ok
  · rename_i user holder
    rw [limitOrderTrancheKey_of_stored holder] at ok
    split at ok
    · cases ok
    · rename_i tranche wasFilled found
      obtain ⟨⟨makerOut, takerOut, cancelled⟩, cancel, ok⟩ := of_bind ok
      dsimp only at ok
      split at ok
      · cases ok
      · cases ok
        rcases OrderBook.findLimitOrderTranche_eq_some found with
          ⟨rfl, stored⟩ | ⟨rfl, stored, notActive⟩
        · exact .single (.cancelActive holder stored cancel (cancels holder stored))
        · exact .single (.cancelInactive holder stored notActive cancel)

theorem executeWithdrawFilledLimitOrder_moves
    (pays : ∀ {user tranche},
      dex.getLimitOrderTrancheUser callerAddr trancheKey = some user →
      dex.book.getLimitOrderTranche user.limitOrderTrancheKey = some tranche →
        rules.pays tranche user)
    (ok : executeWithdrawFilledLimitOrder dex trancheKey callerAddr = .ok (coins, next)) :
    Moves rules dex (-coins.flow) next := by
  unfold executeWithdrawFilledLimitOrder at ok
  split at ok
  · cases ok
  · rename_i user holder
    obtain ⟨withdrawal, find, ok⟩ := of_bind ok
    split at ok
    · cases ok
    · rename_i nonempty
      obtain ⟨takerCoin, takerNew, ok⟩ := of_bind ok
      obtain ⟨makerCoin, makerNew, ok⟩ := of_bind ok
      obtain ⟨_, _, rfl⟩ := newPrecDecCoin_eq_ok_iff.mp takerNew
      obtain ⟨_, _, rfl⟩ := newPrecDecCoin_eq_ok_iff.mp makerNew
      cases ok
      rw [findWithdrawal, limitOrderTrancheKey_of_stored holder] at find
      split at find
      · cases find
        exact absurd ⟨lt_irrefl 0, lt_irrefl 0⟩ nonempty
      · rename_i tranche wasFilled found
        obtain ⟨⟨shares, takerOut, withdrawn⟩, withdraw, find⟩ := of_bind find
        rcases OrderBook.findLimitOrderTranche_eq_some found with
          ⟨rfl, stored⟩ | ⟨rfl, stored, notActive⟩
        · cases find
          have positive : 0 < takerOut.i := by
            by_contra notPositive
            exact nonempty ⟨notPositive, lt_irrefl 0⟩
          have moves : Moves rules dex _ _ := .single
            (.withdrawActive holder stored withdraw positive (pays holder stored))
          simpa [LimitOrderCoins.flow, PrecDecCoin.flow] using moves
        · obtain ⟨⟨makerOut, removed⟩, remove, find⟩ := of_bind find
          cases find
          exact .single (.withdrawInactive holder stored notActive withdraw remove)

end Tranche

variable {rules : Rules} {amountLeft : PrecDec} {orderFilled : Bool}

section Place

variable {now : Time} {dex opened : DexState} {tradePairID : TradePairID}
  {tickIndex : Int} {goodTil : Option Time} {tranche : LimitOrderTranche}

theorem getGTCPlaceTranche_eq_some
    (found : getGTCPlaceTranche dex.book tradePairID tickIndex = some tranche) :
    dex.book.getLimitOrderTranche tranche.key = some tranche ∧
      tranche.key = ⟨tradePairID, tickIndex, tranche.key.trancheKey⟩ ∧
      tranche.expirationTime = none ∧ tranche.IsPlaceTranche := by
  have member := List.mem_of_find?_eq_some found
  have condition := List.find?_some found
  obtain ⟨tick, listed, isTranche⟩ := List.mem_filterMap.mp member
  obtain ⟨stored, within⟩ := (IndexedStore.mem_iterate_iff _ _ _).mp listed
  cases tick with
  | poolReserves _ => cases isTranche
  | limitOrderTranche other =>
      cases isTranche
      obtain ⟨samePair, sameTick⟩ := of_decide_eq_true within
      obtain ⟨place, permanent⟩ := of_decide_eq_true condition
      refine ⟨OrderBook.getLimitOrderTranche_eq_some_iff.mpr stored, ?_,
        not_not.mp permanent, place⟩
      rw [← samePair, ← sameTick]

theorem initPlaceTranche_opened
    (timely : ∀ expirationTime ∈ goodTil, Timely now expirationTime)
    (ok : initPlaceTranche dex tradePairID tickIndex goodTil = .ok (tranche, opened)) :
    Opened now dex tranche opened ∧
      tranche.key = ⟨tradePairID, tickIndex, tranche.key.trancheKey⟩ ∧
      tranche.expirationTime = goodTil := by
  obtain ⟨created, new, ok⟩ := of_bind ok
  cases ok
  obtain ⟨price, priced, new⟩ := of_bind new
  obtain ⟨inRange, rfl⟩ := calcPrice_eq_ok_iff.mp priced
  cases new
  exact ⟨.fresh inRange timely, rfl, rfl⟩

theorem getOrInitPlaceTranche_opened {orderType : LimitOrderType}
    (timely : orderType = .goodTilTime → ∀ expirationTime ∈ goodTil,
      Timely now expirationTime)
    (ok : getOrInitPlaceTranche dex tradePairID tickIndex goodTil orderType =
      .ok (tranche, opened)) :
    Opened now dex tranche opened ∧
      tranche.key = ⟨tradePairID, tickIndex, tranche.key.trancheKey⟩ ∧
      (¬ orderType.HasExpiration → tranche.expirationTime = none) := by
  unfold getOrInitPlaceTranche at ok
  split at ok
  · obtain ⟨opens, key, _⟩ := initPlaceTranche_opened
      (by rintro _ ⟨⟩; exact .inl rfl) ok
    exact ⟨opens, key, fun lasting => absurd (.inr rfl) lasting⟩
  · obtain ⟨opens, key, _⟩ := initPlaceTranche_opened (timely rfl) ok
    exact ⟨opens, key, fun lasting => absurd (.inl rfl) lasting⟩
  · split at ok
    · rename_i found
      cases ok
      obtain ⟨stored, key, permanent, place⟩ := getGTCPlaceTranche_eq_some found
      exact ⟨.existing stored permanent place, key, fun _ => permanent⟩
    · obtain ⟨opens, key, lasting⟩ := initPlaceTranche_opened
        (by rintro _ ⟨⟩) ok
      exact ⟨opens, key, fun _ => lasting⟩

theorem getOrInitLimitOrderTrancheUser_holder {trancheKey receiver : String}
    {orderType : LimitOrderType} {user : LimitOrderTrancheUser}
    (ok : getOrInitLimitOrderTrancheUser dex tradePairID tickIndex trancheKey orderType
      receiver = .ok user) :
    Holder dex ⟨tradePairID, tickIndex, trancheKey⟩ receiver user := by
  unfold getOrInitLimitOrderTrancheUser at ok
  split at ok
  · rename_i stored found
    split at ok
    · rename_i same
      cases ok
      refine .existing found ?_
      rw [LimitOrderTrancheUser.limitOrderTrancheKey, same.1, same.2,
        (LimitOrderTrancheUser.key_eq_of_stored found).2]
    · cases ok
  · rename_i absent
    cases ok
    exact .fresh absent

theorem Holder.congr {key : LimitOrderTrancheKey}
    {user : LimitOrderTrancheUser} (holder : Holder opened key address user)
    (sameUsers : opened.trancheUsers = dex.trancheUsers) : Holder dex key address user := by
  cases holder with
  | existing stored sameKey =>
      rw [DexState.getLimitOrderTrancheUser, sameUsers] at stored
      exact .existing stored sameKey
  | fresh absent =>
      rw [DexState.getLimitOrderTrancheUser, sameUsers] at absent
      exact .fresh absent

theorem Holder.updateTrancheUser_eq_self {key : LimitOrderTrancheKey}
    {user : LimitOrderTrancheUser} (holder : Holder dex key address user)
    (orders : Orders dex.book dex.trancheUsers dex.trancheCount)
    {next : DexState} (sameUsers : next.trancheUsers = dex.trancheUsers) :
    next.updateTrancheUser user = next := by
  rw [DexState.updateTrancheUser_eq, sameUsers]
  have users : (if user.IsEmpty then dex.trancheUsers.delete user.key
      else dex.trancheUsers.set user) = dex.trancheUsers := by
    cases holder with
    | existing stored _ =>
        rw [if_neg (orders.userSound stored).not_isEmpty]
        exact dex.trancheUsers.set_eq_self (user_key_of_stored stored)
    | fresh absent =>
        rw [if_pos (by rfl)]
        exact dex.trancheUsers.delete_eq_self absent
  rw [users, ← sameUsers]

theorem recordExpiration_eq_ok {orderType : LimitOrderType}
    (lasting : ¬ orderType.HasExpiration → tranche.expirationTime = none)
    (ok : recordExpiration dex orderType tranche = .ok opened) :
    opened = dex.recordExpirationOf tranche := by
  unfold recordExpiration at ok
  unfold DexState.recordExpirationOf
  split at ok
  · obtain ⟨record, new, ok⟩ := of_bind ok
    unfold newLimitOrderExpiration at new
    cases expires : tranche.expirationTime with
    | none =>
        rw [expires] at new
        cases new
    | some expirationTime =>
        rw [expires] at new
        cases new
        exact (Except.ok.inj ok).symm
  · rename_i permanent
    rw [lasting permanent]
    exact (Except.ok.inj ok).symm

theorem countJIT_eq {orderType : LimitOrderType}
    (ok : countJIT dex orderType = .ok opened) :
    ∃ jitsInBlock, opened = { dex with jitsInBlock := jitsInBlock } := by
  unfold countJIT at ok
  split at ok
  · split at ok
    · cases ok
    · exact ⟨_, (Except.ok.inj ok).symm⟩
  · exact ⟨_, (Except.ok.inj ok).symm⟩

theorem countJIT_moves {orderType : LimitOrderType}
    (ok : countJIT dex orderType = .ok opened) : Moves rules dex 0 opened := by
  obtain ⟨jitsInBlock, rfl⟩ := countJIT_eq ok
  exact .single (.countJITs jitsInBlock)

theorem placeMakerLimitOrder_eq_ok {amount : Int} {placed : LimitOrderTranche}
    (ok : tranche.placeMakerLimitOrder amount = .ok placed) :
    placed = tranche.placed amount := by
  obtain ⟨set, setMaker, ok⟩ := of_bind ok
  obtain ⟨_, rfl⟩ := unlessNegative_eq_ok_iff.mp setMaker
  exact (Except.ok.inj ok).symm

theorem Opened.moves {rules : Rules} (opens : Opened now dex tranche opened) :
    Moves rules dex 0 opened := by
  cases opens with
  | existing _ _ _ => exact .nil dex
  | fresh _ _ => exact .single .issueTrancheKey

theorem placeMakerOrder_moves {orderType : LimitOrderType}
    {user : LimitOrderTrancheUser}
    {placed : PlacedMakerOrder}
    (opens : Opened rules.now dex tranche opened)
    (holder : Holder dex tranche.key address user)
    (orders : Orders dex.book dex.trancheUsers dex.trancheCount)
    (lasting : ¬ orderType.HasExpiration → tranche.expirationTime = none)
    (uncrossed : Rests orderType amountLeft orderFilled →
      NoneBelow rules.now dex.book tranche.key.tradePairID.reversed
        (-tranche.key.tickIndexTakerToMaker))
    (ok : placeMakerOrder opened orderType tranche user amountLeft orderFilled =
      .ok placed) :
    0 ≤ placed.sharesIssued ∧
      Moves rules dex (Flow.coin tranche.key.tradePairID.makerDenom
        (newPrecDecFromInt placed.sharesIssued))
        (placed.dex.updateTrancheUser placed.trancheUser) := by
  unfold placeMakerOrder at ok
  split at ok
  · rename_i rests
    obtain ⟨filled, place, ok⟩ := of_bind ok
    obtain ⟨recorded, record, ok⟩ := of_bind ok
    cases ok
    obtain rfl := placeMakerLimitOrder_eq_ok place
    obtain rfl := recordExpiration_eq_ok (by exact lasting) record
    exact ⟨le_of_lt rests.1, .single (.place opens holder rests.1 (uncrossed rests))⟩
  · cases ok
    have nothing : newPrecDecFromInt 0 = zeroPrecDec := rfl
    refine ⟨le_refl 0, ?_⟩
    rw [holder.updateTrancheUser_eq_self orders opens.trancheUsers, nothing,
      Flow.coin_zero]
    exact opens.moves

end Place

section Swap

variable {now : Time} {book : OrderBook} {tradePairID : TradePairID} {amountIn : PrecDec}
  {result : SwapResult}

theorem SwapSpec.noneBelow {tickIndex : Int}
    (spec : SwapSpec now tradePairID amountIn (some (tickPrice tickIndex)) book result)
    (wellFormed : (book.writeAll result.writes).WellFormed)
    (unfilled : result.orderFilled = false) :
    NoneBelow now (book.writeAll result.writes) tradePairID tickIndex := by
  intro tick live pair
  have past : tickPrice tickIndex < tick.price := spec.swept.past unfilled tick live pair
  rw [wellFormed.price_eq live.stored, lt_def] at past
  by_contra below
  have ordered := tickPrice_mono (le_of_lt (not_le.mp below))
  omega

theorem SwapSpec.moves {rules : Rules} {dex : DexState} {limitPrice : Option PrecDec}
    (spec : SwapSpec rules.now tradePairID amountIn limitPrice dex.book result) :
    Moves rules dex (result.totalTakerCoin.flow - result.totalMakerCoin.flow)
      (dex.updateBook result.writes) := by
  rw [PrecDecCoin.flow, PrecDecCoin.flow, spec.takerDenom, spec.makerDenom]
  exact .ofVisits spec.swept.visits

variable {maxAmountOut : Option Int} {limitPrice minAvgSellPrice : PrecDec}
  {orderType : LimitOrderType}

theorem takerLimitOrderSwap_eq_ok
    (ok : takerLimitOrderSwap book now tradePairID amountIn maxAmountOut limitPrice
      minAvgSellPrice orderType = .ok result) :
    swap book now tradePairID amountIn maxAmountOut (some limitPrice) = .ok result := by
  obtain ⟨swapped, swap, ok⟩ := of_bind ok
  split at ok
  · cases ok
  · split at ok
    · cases ok
    · obtain ⟨truePrice, _, ok⟩ := of_bind ok
      split at ok
      · cases ok
      · split at ok
        · cases ok
        · exact Except.ok.inj ok ▸ swap

theorem makerLimitOrderSwap_eq_ok
    (ok : makerLimitOrderSwap book now tradePairID amountIn limitPrice minAvgSellPrice =
      .ok result) :
    swap book now tradePairID amountIn none (some limitPrice) = .ok result := by
  obtain ⟨swapped, swap, ok⟩ := of_bind ok
  split at ok
  · obtain ⟨expected, _, ok⟩ := of_bind ok
    obtain ⟨truePrice, _, ok⟩ := of_bind ok
    split at ok
    · cases ok
    · exact Except.ok.inj ok ▸ swap
  · exact Except.ok.inj ok ▸ swap

theorem limitOrderSwap_eq_ok
    (ok : limitOrderSwap book now tradePairID amountIn maxAmountOut limitPrice
      minAvgSellPrice orderType = .ok (result, orderFilled)) :
    swap book now tradePairID amountIn
        (if orderType.IsTakerOnly then maxAmountOut else none) (some limitPrice) =
          .ok result ∧
      (orderType.IsTakerOnly ∨ orderFilled = result.orderFilled) := by
  unfold limitOrderSwap at ok
  split at ok
  · rename_i takerOnly
    obtain ⟨swapped, swap, ok⟩ := of_bind ok
    cases ok
    rw [if_pos takerOnly]
    exact ⟨takerLimitOrderSwap_eq_ok swap, .inl takerOnly⟩
  · rename_i mayRest
    obtain ⟨swapped, swap, ok⟩ := of_bind ok
    cases ok
    rw [if_neg mayRest]
    exact ⟨makerLimitOrderSwap_eq_ok swap, .inr rfl⟩

theorem limitOrderSwap_spec (wellFormed : book.WellFormed) (inNonneg : 0 ≤ amountIn.i)
    (outNonneg : ∀ limit ∈ maxAmountOut, 0 ≤ limit)
    (ok : limitOrderSwap book now tradePairID amountIn maxAmountOut limitPrice
      minAvgSellPrice orderType = .ok (result, orderFilled)) :
    SwapSpec now tradePairID amountIn (some limitPrice) book result ∧
      (orderType.IsTakerOnly ∨ orderFilled = result.orderFilled) := by
  obtain ⟨swap, filled⟩ := limitOrderSwap_eq_ok ok
  refine ⟨swap_spec wellFormed inNonneg ?_ swap, filled⟩
  split
  · exact outNonneg
  · rintro _ ⟨⟩

end Swap

theorem Rests.unfilled {orderType : LimitOrderType}
    {swapFilled : Bool} (rests : Rests orderType amountLeft orderFilled)
    (filled : orderType.IsTakerOnly ∨ orderFilled = swapFilled) : swapFilled = false := by
  rcases filled with takerOnly | same
  · rcases takerOnly with taker | taker <;> rcases rests.2.2 with maker | maker | maker <;>
      exact nomatch Eq.trans (Eq.symm taker) maker
  · rw [← same]
    exact Bool.eq_false_iff.mpr rests.2.1

theorem executePlaceLimitOrder_moves {dex : DexState}
    {takerTradePairID : TradePairID} {amountIn tickIndexInToOut : Int}
    {orderType : LimitOrderType} {goodTil : Option Time} {maxAmountOut : Option Int}
    {minAvgSellPriceP : Option PrecDec} {receiverAddr : String}
    {executed : ExecutedLimitOrder} (wellFormed : dex.WellFormed)
    (inNonneg : 0 ≤ amountIn) (outNonneg : ∀ limit ∈ maxAmountOut, 0 ≤ limit)
    (timely : orderType = .goodTilTime → ∀ expirationTime ∈ goodTil,
      Timely rules.now expirationTime)
    (ok : executePlaceLimitOrder dex rules.now takerTradePairID amountIn tickIndexInToOut
      orderType goodTil maxAmountOut minAvgSellPriceP receiverAddr = .ok executed) :
    0 ≤ executed.totalIn.i ∧ 0 ≤ executed.swapOutCoin.amount.i ∧
      Moves rules dex (Flow.coin takerTradePairID.takerDenom executed.totalIn -
        executed.swapOutCoin.flow) executed.dex := by
  obtain ⟨limitBuyPrice, buyPrice, ok⟩ := of_bind ok
  obtain ⟨_, rfl⟩ := calcPrice_eq_ok_iff.mp buyPrice
  obtain ⟨limitSellPrice, _, ok⟩ := of_bind ok
  obtain ⟨⟨swapped, orderFilled⟩, swap, ok⟩ := of_bind ok
  obtain ⟨⟨tranche, counted⟩, init, ok⟩ := of_bind ok
  obtain ⟨user, hold, ok⟩ := of_bind ok
  obtain ⟨placed, place, ok⟩ := of_bind ok
  obtain ⟨final, count, ok⟩ := of_bind ok
  cases ok
  obtain ⟨spec, filled⟩ := limitOrderSwap_spec wellFormed.book
    (Int.mul_nonneg inNonneg (Int.natCast_nonneg _)) outNonneg swap
  have swaps := spec.moves
  have swappedWellFormed := swaps.wellFormed wellFormed
  obtain ⟨opens, key, lasting⟩ := getOrInitPlaceTranche_opened timely init
  have pair : tranche.key.tradePairID = takerTradePairID.reversed :=
    congrArg LimitOrderTrancheKey.tradePairID key
  have tick : tranche.key.tickIndexTakerToMaker = tickIndexInToOut * -1 :=
    congrArg LimitOrderTrancheKey.tickIndexTakerToMaker key
  have holder := (getOrInitLimitOrderTrancheUser_holder hold).congr opens.trancheUsers
  rw [← key] at holder
  obtain ⟨issued, places⟩ := placeMakerOrder_moves opens holder swappedWellFormed.orders
    lasting (by
      intro rests
      rw [pair, tick, mul_neg_one, neg_neg]
      exact spec.noneBelow swappedWellFormed.book (rests.unfilled filled)) place
  refine ⟨?_, spec.outNonneg, ?_⟩
  · exact Int.add_nonneg spec.inNonneg (Int.mul_nonneg issued (Int.natCast_nonneg _))
  · have moves := (swaps.append places).append (countJIT_moves count)
    rw [pair] at moves
    have flow : Flow.coin takerTradePairID.takerDenom (swapped.totalTakerCoin.amount +
          newPrecDecFromInt placed.sharesIssued) - swapped.totalMakerCoin.flow =
        swapped.totalTakerCoin.flow - swapped.totalMakerCoin.flow +
          Flow.coin takerTradePairID.reversed.makerDenom
            (newPrecDecFromInt placed.sharesIssued) + 0 := by
      rw [Flow.coin_add, add_zero, PrecDecCoin.flow, PrecDecCoin.flow, spec.takerDenom,
        TradePairID.reversed_makerDenom]
      abel
    rw [flow]
    exact moves

def PurgeState.Archived (state : PurgeState) : Prop :=
  ∀ key ∈ state.archivedTranches, state.dex.book.getLimitOrderTranche key = none

variable {state : PurgeState}

theorem purgeRecord_moves {rules : Rules} {state : PurgeState} (archived : state.Archived)
    (record : LimitOrderExpiration) :
    Moves rules state.dex 0 (purgeRecord state record).dex ∧
      (purgeRecord state record).Archived := by
  unfold purgeRecord
  dsimp only
  split
  · rename_i before
    exact ⟨.single (.dropRecord (archived _ before)), archived⟩
  · split
    · rename_i absent
      exact ⟨.single (.dropRecord absent), archived⟩
    · rename_i tranche stored
      refine ⟨.single (.archive stored), ?_⟩
      intro key member
      change (state.dex.book.writeAll (archiveTranche tranche)).getLimitOrderTranche key =
        none
      rw [OrderBook.getLimitOrderTranche_archiveTranche]
      split
      · rfl
      · rename_i different
        rcases List.mem_cons.mp member with same | before
        · exact absurd (same.trans (OrderBook.getLimitOrderTranche_key stored).symm)
            different
        · exact archived key before

theorem purgeLoop_moves {curTime : Time} {gasCutoff : Nat}
    {gasConsumed : Nat → Nat} (records : List LimitOrderExpiration) (turn : Nat)
    (archived : state.Archived) :
    Moves rules state.dex 0
      (purgeLoop curTime gasCutoff gasConsumed records turn state).dex := by
  induction records generalizing turn state with
  | nil => exact .nil _
  | cons record rest ih =>
      unfold purgeLoop
      split
      · exact .nil _
      · dsimp only
        split
        · exact .nil _
        · have entered : PurgeState.Archived ⟨state.dex, state.inGoodTilSegment ||
              decide (record.expirationTime ≠ jitGoodTilTime), state.archivedTranches⟩ :=
            archived
          obtain ⟨first, after⟩ := @purgeRecord_moves rules _ entered record
          have moves := first.append (ih (turn + 1) after)
          rwa [add_zero] at moves

theorem purgeExpiredLimitOrders_moves {rules : Rules} (dex : DexState) (curTime : Time)
    (gasAtStart : Nat) (gasConsumed : Nat → Nat) :
    Moves rules dex 0 (purgeExpiredLimitOrders dex curTime gasAtStart gasConsumed) := by
  have start : PurgeState.Archived ⟨dex, false, []⟩ := by rintro key ⟨⟩
  exact purgeLoop_moves dex.expirations.values 0 start

end Neutron.Dex
