import Neutron.Dex.Solvency

namespace Neutron.Dex

open Library PrecDec

section Redeem

variable {reserves deposited paid before later : PrecDec} {shares supply laterSupply : Int}

theorem redeemSide_eq (nonneg : 0 ≤ reserves.i) (sharesNonneg : 0 ≤ shares)
    (existing : shares ≤ supply)
    (ok : Pool.redeemSide reserves shares supply = .ok paid) :
    0 < supply ∧ paid.i = reserves.i * shares / supply := by
  obtain ⟨value, quotient, ok⟩ := of_bind ok
  cases ok
  obtain ⟨nonzero, isValue⟩ := quoInt_eq_ok_iff.mp quotient
  have positive : 0 < supply := lt_of_le_of_ne (sharesNonneg.trans existing) (Ne.symm nonzero)
  rw [mulInt_i, Int.tdiv_eq_ediv_of_nonneg (Int.mul_nonneg nonneg sharesNonneg)] at isValue
  have within : reserves.i * shares / supply ≤ reserves.i := by
    refine (Int.ediv_le_ediv positive
      (Int.mul_le_mul_of_nonneg_left existing nonneg)).trans (le_of_eq ?_)
    exact Int.mul_ediv_cancel _ positive.ne'
  refine ⟨positive, ?_⟩
  rw [minPrecDec_i, isValue]
  exact min_eq_left within

/-- The tokens that shares are paid grow with a deposit by less than eleven units, or are
diluted by its new shares by less than eleven units. -/
def Undisturbed (reserves deposited : PrecDec) (shares supply laterSupply : Int) : Prop :=
  deposited.i * shares <
      reserves.i * shares - reserves.i * shares % supply + 11 * supply ∨
    deposited.i * shares * laterSupply <
      (deposited.i * shares - deposited.i * shares % laterSupply + 11 * laterSupply) * supply

theorem redeem_bounded_iff (positive : 0 < supply) (laterPositive : 0 < laterSupply)
    (isBefore : before.i = reserves.i * shares / supply)
    (isPaid : paid.i = deposited.i * shares / supply)
    (isLater : later.i = deposited.i * shares / laterSupply) :
    paid.i ≤ max before.i later.i + 10 ↔
      Undisturbed reserves deposited shares supply laterSupply := by
  have either : paid.i ≤ max before.i later.i + 10 ↔
      paid.i ≤ before.i + 10 ∨ paid.i ≤ later.i + 10 := by
    omega
  rw [either, isBefore, isPaid, isLater, ediv_le_ediv_add_iff positive positive,
    ediv_le_ediv_add_iff positive laterPositive, mul_lt_mul_iff_left₀ positive]
  rfl

end Redeem

def MsgWithdrawal.poolData (msg : MsgWithdrawal) (pairID : PairID) : List (Int × Nat) :=
  (normalizeAllTickIndexes msg.tokenA pairID.token0 msg.tickIndexesAToB).zip msg.fees

structure MsgWithdrawal.OfPool (msg : MsgWithdrawal) (key : PoolIDKey) (shares : Int) :
    Prop where
  pair : newPairID msg.tokenA msg.tokenB = .ok key.pairID
  pool : msg.poolData key.pairID = [(key.centerTickIndexNormalized, key.fee)]
  shares : msg.sharesToRemove = [shares]

structure PaysShares (world : World) (pool : Pool) (shares : Int)
    (response : MsgWithdrawalResponse) : Prop where
  nonneg : 0 ≤ shares
  positive : 0 < (world.bank.supply pool.getPoolDenom : Int)
  paid0 : response.decReserve0Withdrawn.i = pool.lowerTick0.decReservesMakerDenom.i * shares /
    world.bank.supply pool.getPoolDenom
  paid1 : response.decReserve1Withdrawn.i = pool.upperTick1.decReservesMakerDenom.i * shares /
    world.bank.supply pool.getPoolDenom

theorem poolDataToPools_single {dex : DexState} {pairID : PairID} {center : Int} {fee : Nat}
    {pools : List Pool} (ok : poolDataToPools dex pairID [(center, fee)] = .ok pools) :
    ∃ pool, pools = [pool] ∧ dex.getPool pairID center fee = .ok (some pool) := by
  cases Outcome.forall₂_of_mapM_eq_ok ok with
  | @cons _ pool _ _ turn rest =>
      cases rest
      obtain ⟨found, get, turn⟩ := of_bind turn
      cases found with
      | none => cases turn
      | some existing =>
          cases turn
          exact ⟨pool, rfl, get⟩

theorem withdrawFromPool_pays {bank : Bank} {callerAddr : String} {dex : DexState}
    {pool : Pool} {shares : Int} {executed : WithdrawState}
    (ok : withdrawFromPool bank callerAddr
      ⟨dex, zeroPrecDec, zeroPrecDec, SortedStore.empty⟩ (pool, shares) = .ok executed) :
    pool.redeemValue shares (bank.supply pool.getPoolDenom) =
        .ok (executed.totalReserve0ToRemove, executed.totalReserve1ToRemove) ∧
      Tally.amountOf executed.coinsToBurn pool.getPoolDenom = shares := by
  obtain ⟨_, _, ok⟩ := of_bind ok
  obtain ⟨⟨outAmount0, outAmount1, withdrawn⟩, withdraws, ok⟩ := of_bind ok
  obtain ⟨coin, coinNew, ok⟩ := of_bind ok
  cases newCoin_eq_ok coinNew
  cases ok
  obtain ⟨⟨redeemed0, redeemed1⟩, redeems, withdraws⟩ := of_bind withdraws
  obtain ⟨_, _, withdraws⟩ := of_bind withdraws
  obtain ⟨_, _, withdraws⟩ := of_bind withdraws
  cases withdraws
  have zero : zeroPrecDec = 0 := rfl
  refine ⟨?_, ?_⟩
  · rw [redeems, zero, zero_add, zero_add]
  · rw [Tally.amountOf_add, Tally.amountOf_empty, Tally.amountOf_set_empty, if_pos rfl,
      zero_add]

theorem withdrawal_pays {world final : World} {msg : MsgWithdrawal} {key : PoolIDKey}
    {shares : Int} {response : MsgWithdrawalResponse} (wellFormed : world.dex.WellFormed)
    (ofPool : msg.OfPool key shares)
    (ok : MsgServer.withdrawal world msg = .ok (response, final)) :
    ∃ pool, world.dex.getPool key.pairID key.centerTickIndexNormalized key.fee =
      .ok (some pool) ∧ PaysShares world pool shares response := by
  obtain ⟨_, valid, ok⟩ := of_bind ok
  obtain ⟨_, _, ok⟩ := of_bind ok
  obtain ⟨pairID, pair, ok⟩ := of_bind ok
  obtain ⟨⟨output, after⟩, withdrawn, ok⟩ := of_bind ok
  cases ok
  cases ofPool.pair.symm.trans pair
  obtain ⟨pools, found, withdrawn⟩ := of_bind withdrawn
  obtain ⟨executed, executes, withdrawn⟩ := of_bind withdrawn
  obtain ⟨burned, burns, withdrawn⟩ := of_bind withdrawn
  obtain ⟨_, _, withdrawn⟩ := of_bind withdrawn
  obtain ⟨_, _, withdrawn⟩ := of_bind withdrawn
  obtain ⟨_, _, withdrawn⟩ := of_bind withdrawn
  obtain ⟨_, _, withdrawn⟩ := of_bind withdrawn
  cases withdrawn
  have single := ofPool.pool
  unfold MsgWithdrawal.poolData at single
  rw [single] at found
  obtain ⟨pool, rfl, get⟩ := poolDataToPools_single found
  refine ⟨pool, get, ?_⟩
  rw [ofPool.shares, List.zip_cons_cons, List.zip_nil_left] at executes
  obtain ⟨_, turn, last⟩ := of_bind executes
  cases last
  obtain ⟨redeems, isBurned⟩ := withdrawFromPool_pays turn
  have nonneg : 0 ≤ shares := (MsgWithdrawal.validate_eq_ok (wrapError_eq_ok_iff.mp valid)).1
    shares (ofPool.shares ▸ List.mem_cons_self)
  have existing : shares ≤ world.bank.supply pool.getPoolDenom := by
    have supply := (burnShares_eq_ok msg.creator.external burns).2 pool.getPoolDenom
    rw [isBurned] at supply
    omega
  have loaded := (getPool_eq_ok wellFormed get).readAt.loaded
  obtain ⟨paid1, redeem1, redeems⟩ := of_bind redeems
  obtain ⟨paid0, redeem0, redeems⟩ := of_bind redeems
  obtain ⟨rfl, rfl⟩ := Prod.mk.inj (Except.ok.inj redeems)
  have side0 := redeemSide_eq (loaded.lower_nonneg wellFormed.book) nonneg existing redeem0
  have side1 := redeemSide_eq (loaded.upper_nonneg wellFormed.book) nonneg existing redeem1
  exact ⟨nonneg, side0.1, side0.2, side1.2⟩

def Pending.isPayIn : Pending → Bool
  | .payIn _ _ _ => true
  | .payOut _ _ _ | .sendShares _ _ | .collectShares _ _ => false

/-- A withdrawal that a hook sends while the coins of a deposit are to be moved, and that
could have been sent right before the deposit or right after it. -/
structure NestedWithdrawal (world mid after : World) (deposit : MsgDeposit)
    (withdrawal : MsgWithdrawal) (before nested later : MsgWithdrawalResponse) : Prop where
  waits : ∃ frame, frame.pending.isPayIn = true ∧
    hookedStep (Nested.idle world) (.message (.deposit deposit)) = ⟨mid, [(frame, world)]⟩
  deposits : ∃ response, MsgServer.deposit world deposit = .ok (response, after)
  paysBefore : ∃ final, MsgServer.withdrawal world withdrawal = .ok (before, final)
  paysNested : ∃ final, MsgServer.withdrawal mid withdrawal = .ok (nested, final)
  paysLater : ∃ final, MsgServer.withdrawal after withdrawal = .ok (later, final)

theorem begin_eq_ok_payIn {transfer : Transfer} {world begun : World} {pending : Pending}
    (ok : transfer.begin world = .ok (pending, begun)) (isPayIn : pending.isPayIn = true) :
    begun = world := by
  cases transfer with
  | payIn address tokens | payOut address tokens =>
      obtain ⟨_, _, ok⟩ := of_bind ok
      cases ok
      rfl
  | mintShares address shares =>
      obtain ⟨_, _, ok⟩ := of_bind ok
      cases ok
      cases isPayIn
  | burnShares address shares =>
      cases ok
      rfl

theorem beginNext_eq_ok_payIn {transfers : List Transfer} {world begun : World}
    {frame : Frame} (ok : beginNext world transfers = .ok (some frame, begun))
    (isPayIn : frame.pending.isPayIn = true) : begun = world := by
  cases transfers with
  | nil => cases ok
  | cons transfer others =>
      obtain ⟨⟨pending, middle⟩, began, ok⟩ := of_bind ok
      cases ok
      exact begin_eq_ok_payIn began isPayIn

theorem prepared_of_waits {world mid : World} {msg : Msg} {frame : Frame}
    (isPayIn : frame.pending.isPayIn = true)
    (waits : hookedStep (Nested.idle world) (.message msg) = ⟨mid, [(frame, world)]⟩) :
    ∃ prepared, prepare world msg = .ok prepared ∧
      mid = { world with dex := prepared.dex } := by
  rw [hookedStep_message_idle] at waits
  cases isPrepared : prepare world msg with
  | error failure =>
      rw [isPrepared] at waits
      exact nomatch congrArg Nested.stack waits
  | ok prepared =>
      refine ⟨prepared, rfl, ?_⟩
      rw [isPrepared] at waits
      change HookedWorld.begun world (beginNext { world with dex := prepared.dex }
        prepared.transfers) = _ at waits
      rcases isBegun : beginNext { world with dex := prepared.dex } prepared.transfers
        with _ | ⟨_ | next, begun⟩
      · rw [isBegun] at waits
        exact nomatch congrArg Nested.stack waits
      · rw [isBegun] at waits
        exact nomatch congrArg Nested.stack waits
      · rw [isBegun] at waits
        cases waits
        exact beginNext_eq_ok_payIn isBegun isPayIn

section Bounded

variable {world mid after : World} {deposit : MsgDeposit} {withdrawal : MsgWithdrawal}
  {before nested later : MsgWithdrawalResponse} {key : PoolIDKey} {shares : Int}
  {pool deposited : Pool}

end Bounded

section Examples

theorem begun_of_frames {world : World} (begun : Outcome (Option Frame × World))
    (frames : (HookedWorld.begun world begun).frames.map
      (fun frame => frame.pending.isPayIn) = [true]) :
    ∃ frame, frame.pending.isPayIn = true ∧
      HookedWorld.begun world begun =
        ⟨(HookedWorld.begun world begun).world, [(frame, world)]⟩ := by
  rcases begun with _ | ⟨_ | frame, _⟩
  · cases frames
  · cases frames
  · exact ⟨frame, (List.cons.inj frames).1, rfl⟩

theorem waits_of_frames {world : World} {msg : Msg}
    (frames : (hookedStep (Nested.idle world) (.message msg)).frames.map
      (fun frame => frame.pending.isPayIn) = [true]) :
    ∃ frame, frame.pending.isPayIn = true ∧
      hookedStep (Nested.idle world) (.message msg) =
        ⟨(hookedStep (Nested.idle world) (.message msg)).world, [(frame, world)]⟩ := by
  rw [hookedStep_message_idle] at frames ⊢
  exact begun_of_frames _ frames

def pooledWorld : World :=
  step (World.initial defaultParams twoDenoms 5 "gov") (.message (.deposit evenDeposit))

def oneSidedDeposit : MsgDeposit :=
  ⟨alice, "alice", "uatom", "untrn", [3], [0], [0], [1], [none]⟩

def shareOfEight : MsgWithdrawal := ⟨alice, "alice", "uatom", "untrn", [1], [0], [1]⟩

def depositedWorld (deposit : MsgDeposit) : World :=
  step pooledWorld (.message (.deposit deposit))

def hookWorld (deposit : MsgDeposit) : World :=
  (hookedStep (Nested.idle pooledWorld) (.message (.deposit deposit))).world

def paidBy (world : World) : Option (Int × Int) :=
  (MsgServer.withdrawal world shareOfEight).toOption.map fun paid =>
    (paid.1.decReserve0Withdrawn.i, paid.1.decReserve1Withdrawn.i)

theorem withdrawal_of_paidBy {world : World} {paid : Int × Int}
    (isPaid : paidBy world = some paid) :
    ∃ response : MsgWithdrawalResponse,
      (∃ final, MsgServer.withdrawal world shareOfEight = .ok (response, final)) ∧
      (response.decReserve0Withdrawn.i, response.decReserve1Withdrawn.i) = paid := by
  obtain ⟨⟨response, final⟩, ok, same⟩ := Outcome.eq_ok_of_map_toOption isPaid
  exact ⟨response, ⟨final, ok⟩, same⟩

theorem nests_of_paidBy {deposit : MsgDeposit} {before nested later : Int × Int}
    (frames : (hookedStep (Nested.idle pooledWorld) (.message (.deposit deposit))).frames.map
      (fun frame => frame.pending.isPayIn) = [true])
    (isDeposited : (MsgServer.deposit pooledWorld deposit).isOk = true)
    (isBefore : paidBy pooledWorld = some before)
    (isNested : paidBy (hookWorld deposit) = some nested)
    (isLater : paidBy (depositedWorld deposit) = some later) :
    ∃ paysBefore paysNested paysLater,
      NestedWithdrawal pooledWorld (hookWorld deposit) (depositedWorld deposit) deposit
        shareOfEight paysBefore paysNested paysLater ∧
      (paysBefore.decReserve0Withdrawn.i, paysBefore.decReserve1Withdrawn.i) = before ∧
      (paysNested.decReserve0Withdrawn.i, paysNested.decReserve1Withdrawn.i) = nested ∧
      (paysLater.decReserve0Withdrawn.i, paysLater.decReserve1Withdrawn.i) = later := by
  obtain ⟨paysBefore, okBefore, sameBefore⟩ := withdrawal_of_paidBy isBefore
  obtain ⟨paysNested, okNested, sameNested⟩ := withdrawal_of_paidBy isNested
  obtain ⟨paysLater, okLater, sameLater⟩ := withdrawal_of_paidBy isLater
  have deposits : ∃ response, MsgServer.deposit pooledWorld deposit =
      .ok (response, depositedWorld deposit) := by
    unfold depositedWorld
    cases ok : MsgServer.deposit pooledWorld deposit with
    | error failure =>
        rw [ok] at isDeposited
        cases isDeposited
    | ok deposited =>
        refine ⟨deposited.1, ?_⟩
        simp only [step, deliver, ok]
        rfl
  exact ⟨paysBefore, paysNested, paysLater,
    ⟨waits_of_frames frames, deposits, okBefore, okNested, okLater⟩,
    sameBefore, sameNested, sameLater⟩

def sharedPool : PoolIDKey := ⟨⟨"uatom", "untrn", by decide⟩, 0, 1⟩

end Examples

end Neutron.Dex
