import Mathlib.Data.List.Nodup
import Neutron.Dex.PoolMessages
import Neutron.Dex.RouteMoves
import Neutron.Dex.TransferSpec

namespace Neutron.Dex

open Library PrecDec

variable {tickIndexes : List Int} {fees : List Nat}

section Deposit

theorem validateDeposits_valid {legs : List DepositLeg} {poolsDeposited : List (Int × Nat)}
    {result : Unit} (ok : validateDeposits poolsDeposited legs = .ok result)
    {leg : DepositLeg} (member : leg ∈ legs) : leg.Valid := by
  induction legs generalizing poolsDeposited with
  | nil => cases member
  | cons first rest ih =>
      obtain ⟨_, _, ok⟩ := of_bind ok
      obtain ⟨_, nonneg, ok⟩ := of_bind ok
      obtain ⟨_, _, ok⟩ := of_bind ok
      obtain ⟨_, _, ok⟩ := of_bind ok
      obtain ⟨_, options, ok⟩ := of_bind ok
      rw [ensure_eq_ok_iff] at nonneg options
      cases member with
      | head =>
          rw [not_or, not_lt, not_lt] at nonneg
          exact ⟨nonneg.1, nonneg.2, options⟩
      | tail _ later => exact ih ok later

theorem zipDeposits_valid {amountsA amountsB normalized : List Int}
    {options : List (Option DepositOptions)}
    (valid : ∀ leg ∈ zipDeposits amountsA amountsB tickIndexes fees options, leg.Valid)
    (sameLength : normalized.length = tickIndexes.length) :
    (∀ leg ∈ zipDeposits amountsA amountsB normalized fees options, leg.Valid) ∧
      ∀ leg ∈ zipDeposits amountsB amountsA normalized fees options, leg.Valid := by
  induction amountsA generalizing amountsB tickIndexes normalized fees options with
  | nil => cases amountsB <;> simp [zipDeposits]
  | cons amountA amountsA ih =>
      cases amountsB with
      | nil => simp [zipDeposits]
      | cons amountB amountsB =>
          cases normalized with
          | nil => simp [zipDeposits]
          | cons normal normalized =>
              cases tickIndexes with
              | nil => cases sameLength
              | cons tickIndex tickIndexes =>
                  cases fees with
                  | nil => simp [zipDeposits]
                  | cons fee fees =>
                      cases options with
                      | nil => simp [zipDeposits]
                      | cons option options =>
                          simp only [zipDeposits, List.forall_mem_cons] at valid ⊢
                          have later := ih valid.2 (Nat.succ.inj sameLength)
                          have first := valid.1
                          exact ⟨⟨⟨first.nonneg0, first.nonneg1, first.options⟩, later.1⟩,
                            ⟨first.nonneg1, first.nonneg0, first.options⟩, later.2⟩

theorem normalizeAllTickIndexes_length (takerDenom token0 : String)
    (tickIndexes : List Int) :
    (normalizeAllTickIndexes takerDenom token0 tickIndexes).length =
      tickIndexes.length := by
  unfold normalizeAllTickIndexes
  split
  · exact List.length_map _
  · rfl

theorem depositLegs_valid {msg : MsgDeposit} {result : Unit}
    (ok : msg.validate = .ok result) (pairID : PairID) :
    ∀ leg ∈ MsgServer.depositLegs msg pairID, leg.Valid := by
  obtain ⟨_, _, ok⟩ := of_bind ok
  obtain ⟨_, _, ok⟩ := of_bind ok
  obtain ⟨_, _, ok⟩ := of_bind ok
  obtain ⟨_, _, ok⟩ := of_bind ok
  obtain ⟨_, _, ok⟩ := of_bind ok
  have sorted := zipDeposits_valid (fun leg member => validateDeposits_valid ok member)
    (normalizeAllTickIndexes_length msg.tokenA pairID.token0 msg.tickIndexesAToB)
  unfold MsgServer.depositLegs sortAmounts
  split
  · exact sorted.1
  · exact sorted.2

end Deposit

section Withdrawal

variable {pools : List (Int × Nat)}

theorem validateRemovals_positive {shares : List Int}
    {result : Unit} (ok : validateRemovals shares pools = .ok result)
    (sameLength : shares.length = pools.length) : ∀ share ∈ shares, 0 ≤ share := by
  induction shares generalizing pools with
  | nil => simp
  | cons share rest ih =>
      cases pools with
      | nil => cases sameLength
      | cons pool pools =>
          obtain ⟨_, positive, ok⟩ := of_bind ok
          obtain ⟨_, _, ok⟩ := of_bind ok
          rw [List.forall_mem_cons]
          exact ⟨(ensure_eq_ok_iff.mp positive).le, ih ok (Nat.succ.inj sameLength)⟩

theorem validateDistinctPools_nodup {poolsSeen : List (Int × Nat)} {result : Unit}
    (ok : validateDistinctPools poolsSeen pools = .ok result) :
    pools.Nodup ∧ ∀ pool ∈ pools, pool ∉ poolsSeen := by
  induction pools generalizing poolsSeen with
  | nil => simp
  | cons pool rest ih =>
      obtain ⟨_, fresh, ok⟩ := of_bind ok
      rw [ensure_eq_ok_iff] at fresh
      obtain ⟨nodup, unseen⟩ := ih ok
      have notLater : pool ∉ rest := fun later => unseen pool later List.mem_cons_self
      refine ⟨List.nodup_cons.mpr ⟨notLater, nodup⟩, ?_⟩
      rw [List.forall_mem_cons]
      exact ⟨fresh, fun other member seen =>
        unseen other member (List.mem_cons_of_mem _ seen)⟩

theorem normalizeAllTickIndexes_zip_nodup (takerDenom token0 : String)
    (nodup : (tickIndexes.zip fees).Nodup) :
    ((normalizeAllTickIndexes takerDenom token0 tickIndexes).zip fees).Nodup := by
  unfold normalizeAllTickIndexes
  split
  · rw [List.zip_map_left]
    refine List.Nodup.map (fun left right same => ?_) nodup
    have ticks := congrArg Prod.fst same
    have fees := congrArg Prod.snd same
    simp only [Prod.map_fst, Prod.map_snd, id] at ticks fees
    exact Prod.ext (by omega) fees
  · exact nodup

theorem MsgWithdrawal.validate_eq_ok {msg : MsgWithdrawal} {result : Unit}
    (ok : msg.validate = .ok result) :
    (∀ share ∈ msg.sharesToRemove, 0 ≤ share) ∧
      (msg.tickIndexesAToB.zip msg.fees).Nodup := by
  obtain ⟨_, _, ok⟩ := of_bind ok
  obtain ⟨_, _, ok⟩ := of_bind ok
  obtain ⟨_, _, ok⟩ := of_bind ok
  obtain ⟨_, lengths, ok⟩ := of_bind ok
  obtain ⟨_, _, ok⟩ := of_bind ok
  obtain ⟨_, removals, ok⟩ := of_bind ok
  rw [ensure_eq_ok_iff] at lengths
  refine ⟨validateRemovals_positive removals ?_, (validateDistinctPools_nodup ok).1⟩
  rw [List.length_zip, lengths.1, lengths.2, min_self]

theorem validateShares_eq_ok {shares : List Coin} {poolsSeen : List Nat} {result : Unit}
    (ok : validateShares poolsSeen shares = .ok result) :
    (∀ share ∈ shares, 0 ≤ share.amount) ∧
      (shares.Pairwise fun left right =>
        parsePoolIDFromDenom left.denom ≠ parsePoolIDFromDenom right.denom) ∧
      ∀ share ∈ shares, ∃ poolID, parsePoolIDFromDenom share.denom = .ok poolID ∧
        poolID ∉ poolsSeen := by
  induction shares generalizing poolsSeen with
  | nil => simp
  | cons share rest ih =>
      obtain ⟨_, positive, ok⟩ := of_bind ok
      obtain ⟨poolID, parsed, ok⟩ := of_bind ok
      obtain ⟨_, fresh, ok⟩ := of_bind ok
      rw [ensure_eq_ok_iff] at positive fresh
      rw [wrapError_eq_ok_iff] at parsed
      obtain ⟨nonneg, distinct, unseen⟩ := ih ok
      simp only [List.forall_mem_cons, List.pairwise_cons]
      refine ⟨⟨positive.le, nonneg⟩, ⟨fun other member same => ?_, distinct⟩,
        ⟨poolID, parsed, fresh⟩, fun other member => ?_⟩
      · obtain ⟨otherID, otherParsed, notSeen⟩ := unseen other member
        rw [parsed, otherParsed] at same
        exact notSeen (Except.ok.inj same ▸ List.mem_cons_self)
      · obtain ⟨otherID, otherParsed, notSeen⟩ := unseen other member
        exact ⟨otherID, otherParsed, fun seen => notSeen (List.mem_cons_of_mem _ seen)⟩

end Withdrawal

section LimitOrder

variable {msg : MsgPlaceLimitOrder} {result : Unit}

theorem MsgPlaceLimitOrder.validateMaxAmountOut_eq_ok
    (ok : msg.validateMaxAmountOut = .ok result) :
    ∀ limit ∈ msg.maxAmountOut, 0 < limit ∧ msg.orderType.IsTakerOnly := by
  intro limit isLimit
  unfold validateMaxAmountOut at ok
  rw [isLimit] at ok
  obtain ⟨_, positive, takerOnly⟩ := of_bind ok
  exact ⟨ensure_eq_ok_iff.mp positive, ensure_eq_ok_iff.mp takerOnly⟩

theorem MsgPlaceLimitOrder.validate_eq_ok (ok : msg.validate = .ok result) :
    0 < msg.amountIn ∧
      ∀ limit ∈ msg.maxAmountOut, 0 < limit ∧ msg.orderType.IsTakerOnly := by
  obtain ⟨_, _, ok⟩ := of_bind ok
  obtain ⟨_, _, ok⟩ := of_bind ok
  obtain ⟨_, _, ok⟩ := of_bind ok
  obtain ⟨_, positive, ok⟩ := of_bind ok
  obtain ⟨_, _, ok⟩ := of_bind ok
  obtain ⟨_, _, ok⟩ := of_bind ok
  obtain ⟨_, maxAmountOut, _⟩ := of_bind ok
  exact ⟨ensure_eq_ok_iff.mp positive, validateMaxAmountOut_eq_ok maxAmountOut⟩

theorem MsgPlaceLimitOrder.timely {blockTime : Time}
    (ok : msg.validateGoodTilExpiration blockTime = .ok result)
    (goodTil : msg.orderType = .goodTilTime) :
    ∀ expirationTime ∈ msg.expirationTime.map Timestamp.time,
      Timely blockTime expirationTime := by
  intro expirationTime isExpiration
  obtain ⟨timestamp, isTimestamp, rfl⟩ := Option.mem_map.mp isExpiration
  have isGoodTil : msg.orderType.IsGoodTil := goodTil
  unfold validateGoodTilExpiration at ok
  rw [if_pos isGoodTil, isTimestamp] at ok
  exact .inr ⟨ensure_eq_ok_iff.mp ok, timestamp.beforeYear10000⟩

end LimitOrder

theorem validateRouteEnds_entry {routes : List (List String)}
    {exitToken entryToken : Option String} {result : Unit}
    (ok : validateRouteEnds (some (exitToken, entryToken)) routes = .ok result) :
    ∀ hops ∈ routes, hops.head? = entryToken := by
  induction routes with
  | nil => simp
  | cons hops rest ih =>
      obtain ⟨_, _, ok⟩ := of_bind ok
      obtain ⟨_, _, ok⟩ := of_bind ok
      obtain ⟨_, entry, ok⟩ := of_bind ok
      rw [List.forall_mem_cons]
      exact ⟨ensure_eq_ok_iff.mp entry, ih ok⟩

theorem MsgMultiHopSwap.entries {msg : MsgMultiHopSwap} {result : Unit}
    (ok : msg.validate = .ok result) :
    ∀ hops ∈ msg.routes, hops.head? = msg.routes.head?.bind List.head? := by
  obtain ⟨_, routes, _⟩ := of_bind ok
  obtain ⟨_, _, routes⟩ := of_bind routes
  obtain ⟨_, _, routes⟩ := of_bind routes
  cases isRoutes : msg.routes with
  | nil => simp
  | cons first rest =>
      rw [isRoutes] at routes
      obtain ⟨_, _, routes⟩ := of_bind routes
      rw [List.forall_mem_cons]
      exact ⟨rfl, validateRouteEnds_entry routes⟩

/-- What rules ask of a message: the block time, the withdrawals it may make from active
tranches and the cancellations in them, and the pools it may issue shares of. -/
structure Rules.Permits (rules : Rules) (world : World) (msg : Msg) (prepared : Prepared) :
    Prop where
  now : rules.now = world.blockTime
  pays : ∀ {withdrawal user tranche}, msg = .withdrawFilledLimitOrder withdrawal →
    world.dex.getLimitOrderTrancheUser withdrawal.creator.address withdrawal.trancheKey =
      some user →
    world.dex.book.getLimitOrderTranche user.limitOrderTrancheKey = some tranche →
      rules.pays tranche user
  cancels : ∀ {cancel user tranche}, msg = .cancelLimitOrder cancel →
    world.dex.getLimitOrderTrancheUser cancel.creator.address cancel.trancheKey =
      some user →
    world.dex.book.getLimitOrderTranche user.limitOrderTrancheKey = some tranche →
      rules.cancels tranche user
  funded : ∀ {address shares id amount}, .mintShares address shares ∈ prepared.transfers →
    shares.get? (newPoolDenom id) = some amount → rules.funded id

structure Prepared.Moved (rules : Rules) (dex : DexState) (prepared : Prepared) : Prop where
  moves : ∃ flow, Moves rules dex flow prepared.dex ∧
    flow ≤ (prepared.transfers.map Transfer.due).sum
  sound : ∀ transfer ∈ prepared.transfers, transfer.Sound

namespace Prepare

variable {rules : Rules} {world : World} {prepared : Prepared}

theorem deposit_moved {msg : MsgDeposit} (wellFormed : world.dex.WellFormed)
    (permits : rules.Permits world (.deposit msg) prepared)
    (ok : deposit world msg = .ok prepared) : prepared.Moved rules world.dex := by
  obtain ⟨_, valid, ok⟩ := of_bind ok
  obtain ⟨_, _, ok⟩ := of_bind ok
  obtain ⟨_, _, ok⟩ := of_bind ok
  obtain ⟨pairID, _, ok⟩ := of_bind ok
  obtain ⟨executed, execute, ok⟩ := of_bind ok
  obtain ⟨coin0, new0, ok⟩ := of_bind ok
  obtain ⟨coin1, new1, ok⟩ := of_bind ok
  obtain ⟨tokens, tokensNew, ok⟩ := of_bind ok
  cases ok
  obtain ⟨_, _, rfl⟩ := newPrecDecCoin_eq_ok_iff.mp new0
  obtain ⟨_, _, rfl⟩ := newPrecDecCoin_eq_ok_iff.mp new1
  obtain ⟨flow, _⟩ := newPrecDecCoins_eq_ok tokensNew
  rw [executeDeposit, ← permits.now] at execute
  have validLegs := depositLegs_valid (wrapError_eq_ok_iff.mp valid) pairID
  obtain ⟨_, moves⟩ := executeDeposit_moves wellFormed validLegs execute
  have funds : FundsPools rules executed.sharesIssued := by
    intro shares member someShares id isPool
    obtain ⟨amount, found⟩ := @get?_foldl_sanitize _ SortedStore.empty _
      (.inr ⟨shares, member, isPool, someShares⟩)
    exact permits.funded (List.mem_append_right _ List.mem_cons_self) found
  obtain ⟨moved, isMoved, covers⟩ := (moves funds).moves
  have zero : zeroPrecDec = 0 := rfl
  have charged : Flow.coin pairID.token0 (executed.totalInAmount0 - zeroPrecDec) +
      Flow.coin pairID.token1 (executed.totalInAmount1 - zeroPrecDec) = tokens.flow := by
    simp [flow, PrecDecCoin.flow, zero]
  refine ⟨⟨moved, isMoved, covers.trans (le_of_eq (charged.trans ?_))⟩, ?_⟩
  · dsimp only
    split
    · rename_i empty
      simp [Transfer.due, PrecDecCoins.flow_of_entries empty]
    · simp [Transfer.due]
  · dsimp only
    split
    · simp [Transfer.Sound]
    · simp [Transfer.Sound, msg.creator.external]

theorem withdrawHandler_moved {callerAddr receiverAddr : String} {pairID : PairID}
    {removals : List (Pool × Int)} (wellFormed : world.dex.WellFormed)
    (external : callerAddr ≠ moduleName) (remove : Removals world.dex pairID removals)
    (ok : withdrawHandler world callerAddr receiverAddr pairID removals = .ok prepared) :
    prepared.Moved rules world.dex := by
  obtain ⟨executed, execute, ok⟩ := of_bind ok
  obtain ⟨coin0, new0, ok⟩ := of_bind ok
  obtain ⟨coin1, new1, ok⟩ := of_bind ok
  obtain ⟨tokens, tokensNew, ok⟩ := of_bind ok
  cases ok
  obtain ⟨_, _, rfl⟩ := newPrecDecCoin_eq_ok_iff.mp new0
  obtain ⟨_, _, rfl⟩ := newPrecDecCoin_eq_ok_iff.mp new1
  obtain ⟨flow, nonneg⟩ := newPrecDecCoins_eq_ok tokensNew
  have moves : Moves rules world.dex _ executed.dex :=
    executeWithdraw_moves wellFormed remove execute
  have zero : zeroPrecDec = 0 := rfl
  refine ⟨⟨_, moves, le_of_eq ?_⟩, ?_⟩
  · simp [Transfer.due, flow, PrecDecCoin.flow, zero]
  · rw [List.forall_mem_cons, List.forall_mem_singleton]
    exact ⟨external, nonneg⟩

theorem withdrawal_moved {msg : MsgWithdrawal} (wellFormed : world.dex.WellFormed)
    (ok : withdrawal world msg = .ok prepared) : prepared.Moved rules world.dex := by
  obtain ⟨_, valid, ok⟩ := of_bind ok
  obtain ⟨_, _, ok⟩ := of_bind ok
  obtain ⟨pairID, _, ok⟩ := of_bind ok
  obtain ⟨pools, found, ok⟩ := of_bind ok
  obtain ⟨nonneg, nodup⟩ := MsgWithdrawal.validate_eq_ok (wrapError_eq_ok_iff.mp valid)
  exact withdrawHandler_moved wellFormed msg.creator.external
    (withdrawCore_removals wellFormed (normalizeAllTickIndexes_zip_nodup _ _ nodup) nonneg
      found) ok

theorem withdrawalWithShares_moved {msg : MsgWithdrawalWithShares}
    (wellFormed : world.dex.WellFormed)
    (ok : withdrawalWithShares world msg = .ok prepared) :
    prepared.Moved rules world.dex := by
  obtain ⟨_, valid, ok⟩ := of_bind ok
  obtain ⟨_, _, ok⟩ := of_bind ok
  obtain ⟨pools, found, ok⟩ := of_bind ok
  obtain ⟨_, _, shares⟩ := of_bind (wrapError_eq_ok_iff.mp valid)
  obtain ⟨nonneg, distinct, _⟩ := validateShares_eq_ok shares
  cases isFirst : pools.head? with
  | none =>
      rw [isFirst] at ok
      cases ok
  | some first =>
      rw [isFirst] at ok
      exact withdrawHandler_moved wellFormed msg.creator.external
        (withdrawWithShares_removals wellFormed nonneg distinct found isFirst) ok

theorem placeLimitOrder_moved {msg : MsgPlaceLimitOrder} (wellFormed : world.dex.WellFormed)
    (now : rules.now = world.blockTime) (ok : placeLimitOrder world msg = .ok prepared) :
    prepared.Moved rules world.dex := by
  obtain ⟨_, valid, ok⟩ := of_bind ok
  obtain ⟨_, _, ok⟩ := of_bind ok
  obtain ⟨_, _, ok⟩ := of_bind ok
  obtain ⟨_, expiration, ok⟩ := of_bind ok
  obtain ⟨tickIndex, _, ok⟩ := of_bind ok
  obtain ⟨tradePairID, pair, ok⟩ := of_bind ok
  obtain ⟨executed, execute, ok⟩ := of_bind ok
  obtain ⟨_, _, ok⟩ := of_bind ok
  obtain ⟨coin, coinNew, ok⟩ := of_bind ok
  cases ok
  obtain ⟨_, _, rfl⟩ := newPrecDecCoin_eq_ok_iff.mp coinNew
  obtain ⟨inPositive, limits⟩ :=
    MsgPlaceLimitOrder.validate_eq_ok (wrapError_eq_ok_iff.mp valid)
  rw [← now] at expiration execute
  obtain ⟨_, outAmount, moves⟩ := executePlaceLimitOrder_moves wellFormed inPositive.le
    (fun limit isLimit => (limits limit isLimit).1.le)
    (MsgPlaceLimitOrder.timely expiration) execute
  have taker := newTradePairID_takerDenom pair
  refine ⟨⟨_, moves, le_of_eq ?_⟩, ?_⟩
  · dsimp only
    split
    · simp only [Transfer.due, flow_single, PrecDecCoin.flow, taker, List.cons_append,
        List.nil_append, List.map_cons, List.map_nil, List.sum_cons, List.sum_nil]
      abel
    · rename_i nothing
      have zero : executed.swapOutCoin.amount = zeroPrecDec :=
        PrecDec.ext (le_antisymm (not_lt.mp nothing) outAmount)
      simp [Transfer.due, flow_single, PrecDecCoin.flow, taker, zero]
  · dsimp only
    split
    · rw [List.cons_append, List.nil_append, List.forall_mem_cons,
        List.forall_mem_singleton]
      exact ⟨single_nonneg outAmount, msg.creator.external⟩
    · simp [Transfer.Sound, msg.creator.external]

theorem shareholder_moved {dex : DexState} {coins : LimitOrderCoins}
    {listed : List PrecDecCoin} {tokens : PrecDecCoins} (address : String)
    (moves : Moves rules world.dex (-coins.flow) dex)
    (tokensNew : newPrecDecCoins listed = .ok tokens)
    (total : (listed.map PrecDecCoin.flow).sum = coins.flow) :
    Prepared.Moved rules world.dex ⟨dex, [.payOut address tokens]⟩ := by
  obtain ⟨flow, nonneg⟩ := newPrecDecCoins_eq_ok tokensNew
  refine ⟨⟨_, moves, le_of_eq ?_⟩, ?_⟩
  · simp [Transfer.due, flow, total]
  · rw [List.forall_mem_singleton]
    exact nonneg

variable {msg : MsgTranche}

theorem cancelLimitOrder_moved
    (permits : rules.Permits world (.cancelLimitOrder msg) prepared)
    (ok : cancelLimitOrder world msg = .ok prepared) : prepared.Moved rules world.dex := by
  obtain ⟨_, _, ok⟩ := of_bind ok
  obtain ⟨⟨coins, dex⟩, execute, ok⟩ := of_bind ok
  obtain ⟨tokens, tokensNew, ok⟩ := of_bind ok
  cases ok
  refine shareholder_moved _ (executeCancelLimitOrder_moves (permits.cancels rfl) execute) tokensNew ?_
  simp [LimitOrderCoins.flow]

theorem withdrawFilledLimitOrder_moved
    (permits : rules.Permits world (.withdrawFilledLimitOrder msg) prepared)
    (ok : withdrawFilledLimitOrder world msg = .ok prepared) :
    prepared.Moved rules world.dex := by
  obtain ⟨_, _, ok⟩ := of_bind ok
  obtain ⟨⟨coins, dex⟩, execute, ok⟩ := of_bind ok
  obtain ⟨tokens, tokensNew, ok⟩ := of_bind ok
  cases ok
  refine shareholder_moved _
    (executeWithdrawFilledLimitOrder_moves (permits.pays rfl) execute) tokensNew ?_
  simp [LimitOrderCoins.flow, add_comm]

theorem multiHopSwap_moved {msg : MsgMultiHopSwap} (wellFormed : world.dex.WellFormed)
    (now : rules.now = world.blockTime) (ok : multiHopSwap world msg = .ok prepared) :
    prepared.Moved rules world.dex := by
  obtain ⟨_, valid, ok⟩ := of_bind ok
  obtain ⟨_, _, ok⟩ := of_bind ok
  obtain ⟨_, _, ok⟩ := of_bind ok
  obtain ⟨output, calculated, ok⟩ := of_bind ok
  cases best : output.bestRoute with
  | none =>
      rw [best] at ok
      cases ok
  | some bestRoute =>
      rw [best] at ok
      cases ok
      rw [← now] at calculated
      have moved := calulateMultiHopSwap_moves wellFormed
        (MsgMultiHopSwap.entries (wrapError_eq_ok_iff.mp valid)) calculated best
      refine ⟨⟨_, moved.moves, le_of_eq ?_⟩, ?_⟩
      · simp only [List.map_cons, List.map_nil, List.sum_cons, List.sum_nil, Transfer.due,
          PrecDecCoins.flow_add, flow_single]
        abel
      · rw [List.forall_mem_cons, List.forall_mem_singleton]
        refine ⟨msg.creator.external, fun denom => ?_⟩
        rw [Tally.amountOf_add, add_i]
        exact add_nonneg (moved.dustNonneg denom) (single_nonneg moved.coinNonneg denom)

theorem updateParams_moved {msg : MsgUpdateParams}
    (ok : updateParams world msg = .ok prepared) : prepared.Moved rules world.dex := by
  obtain ⟨_, _, ok⟩ := of_bind ok
  obtain ⟨_, _, ok⟩ := of_bind ok
  cases ok
  exact ⟨⟨0, .single (.setParams msg.params), le_refl _⟩, by simp⟩

end Prepare

variable {rules : Rules} {world : World}

theorem prepare_moved {msg : Msg} {prepared : Prepared}
    (wellFormed : world.dex.WellFormed) (permits : rules.Permits world msg prepared)
    (ok : prepare world msg = .ok prepared) : prepared.Moved rules world.dex := by
  cases msg with
  | deposit msg => exact Prepare.deposit_moved wellFormed permits ok
  | withdrawal msg => exact Prepare.withdrawal_moved wellFormed ok
  | withdrawalWithShares msg => exact Prepare.withdrawalWithShares_moved wellFormed ok
  | placeLimitOrder msg => exact Prepare.placeLimitOrder_moved wellFormed permits.now ok
  | withdrawFilledLimitOrder msg => exact Prepare.withdrawFilledLimitOrder_moved permits ok
  | cancelLimitOrder msg => exact Prepare.cancelLimitOrder_moved permits ok
  | multiHopSwap msg => exact Prepare.multiHopSwap_moved wellFormed permits.now ok
  | updateParams msg => exact Prepare.updateParams_moved ok

theorem deliver_delivers {final : World} {msg : Msg}
    (wellFormed : world.dex.WellFormed)
    (permits : ∀ {prepared}, prepare world msg = .ok prepared →
      rules.Permits world msg prepared)
    (ok : deliver world msg = .ok final) : Delivers rules world final := by
  obtain ⟨prepared, isPrepared, settled⟩ := of_bind ((deliver_eq_ok_iff world msg final).mp ok)
  have moved := prepare_moved wellFormed (permits isPrepared) isPrepared
  obtain ⟨flow, moves, covers⟩ := moved.moves
  exact .of_pays moves (settle_pays moved.sound settled) covers

end Neutron.Dex
