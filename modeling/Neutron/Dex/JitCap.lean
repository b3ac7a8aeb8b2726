import Neutron.Dex.Settlement

namespace Neutron.Dex

open Library PrecDec

/-! The cap on JIT orders per block (`AssertCanPlaceJIT` and `IncrementJITsInBlock`).
The count lives in the transient store and the cap in the params, which may change
while a block is under way. -/

def DexState.jitGuard (dex : DexState) : Nat × Params := (dex.jitsInBlock, dex.params)

theorem jitGuard_updateTrancheUser (dex : DexState) (user : LimitOrderTrancheUser) :
    (dex.updateTrancheUser user).jitGuard = dex.jitGuard := by
  unfold DexState.updateTrancheUser
  split <;> rfl

theorem jitGuard_dropExpiration (dex : DexState) (tranche : LimitOrderTranche) :
    (dropExpiration dex tranche).jitGuard = dex.jitGuard := by
  unfold dropExpiration
  split
  · rfl
  · split <;> rfl

variable {dex next : DexState} {pairID : PairID}

theorem jitGuard_getOrInitPool {center : Int}
    {fee : Nat} {pool : Pool} (ok : dex.getOrInitPool pairID center fee = .ok (pool, next)) :
    next.jitGuard = dex.jitGuard := by
  obtain ⟨found, _, ok⟩ := of_bind ok
  cases found with
  | some existing =>
      cases ok
      rfl
  | none =>
      obtain ⟨created, _, ok⟩ := of_bind ok
      cases ok
      rfl

variable {blockTime : Time}

theorem jitGuard_depositLeg {supply : String → Nat}
    {whitelisted : Bool} {state next : DepositState} {leg : DepositLeg}
    (ok : depositLeg supply blockTime pairID whitelisted state leg = .ok next) :
    next.dex.jitGuard = state.dex.jitGuard := by
  obtain ⟨_, _, ok⟩ := of_bind ok
  obtain ⟨swapped, _, ok⟩ := of_bind ok
  dsimp only at ok
  split at ok
  · split at ok
    · cases ok
    · cases ok
      rfl
  · obtain ⟨⟨pool, dex⟩, found, ok⟩ := of_bind ok
    obtain ⟨deposited, _, ok⟩ := of_bind ok
    dsimp only at ok
    obtain ⟨_, ok⟩ := (Outcome.ite_throw_eq_ok_iff _ _ _ _).mp ok
    obtain ⟨_, ok⟩ := (Outcome.ite_throw_eq_ok_iff _ _ _ _).mp ok
    cases ok
    have guard := jitGuard_getOrInitPool found
    exact guard

variable {callerAddr : String}

theorem jitGuard_executeDeposit {world : World}
    {legs : List DepositLeg} {executed : DepositState}
    (ok : executeDeposit world pairID callerAddr legs = .ok executed) :
    executed.dex.jitGuard = world.dex.jitGuard :=
  @Outcome.foldlM_invariant _ _ _ _
    (fun state => state.dex.jitGuard = world.dex.jitGuard)
    (fun kept turn => (jitGuard_depositLeg turn).trans kept) _ _ _ rfl ok

variable {removals : List (Pool × Int)}

theorem jitGuard_executeWithdraw {world : World}
    {executed : WithdrawState}
    (ok : executeWithdraw world callerAddr removals = .ok executed) :
    executed.dex.jitGuard = world.dex.jitGuard := by
  refine @Outcome.foldlM_invariant _ _ _ _
    (fun state => state.dex.jitGuard = world.dex.jitGuard) ?_ _ _ _ rfl ok
  intro state removal next kept turn
  obtain ⟨_, _, turn⟩ := of_bind turn
  obtain ⟨_, _, turn⟩ := of_bind turn
  obtain ⟨_, _, turn⟩ := of_bind turn
  cases turn
  exact kept

variable {trancheKey : String} {coins : LimitOrderCoins}

theorem jitGuard_executeCancelLimitOrder
    (ok : executeCancelLimitOrder dex trancheKey callerAddr = .ok (coins, next)) :
    next.jitGuard = dex.jitGuard := by
  unfold executeCancelLimitOrder at ok
  split at ok
  · cases ok
  · split at ok
    · cases ok
    · obtain ⟨_, _, ok⟩ := of_bind ok
      obtain ⟨_, ok⟩ := (Outcome.ite_throw_eq_ok_iff _ _ _ _).mp ok
      cases ok
      rw [jitGuard_dropExpiration]
      exact jitGuard_updateTrancheUser _ _

theorem jitGuard_executeWithdrawFilledLimitOrder
    (ok : executeWithdrawFilledLimitOrder dex trancheKey callerAddr = .ok (coins, next)) :
    next.jitGuard = dex.jitGuard := by
  unfold executeWithdrawFilledLimitOrder at ok
  split at ok
  · cases ok
  · obtain ⟨withdrawal, _, ok⟩ := of_bind ok
    obtain ⟨_, ok⟩ := (Outcome.ite_throw_eq_ok_iff _ _ _ _).mp ok
    obtain ⟨_, _, ok⟩ := of_bind ok
    obtain ⟨_, _, ok⟩ := of_bind ok
    cases ok
    exact jitGuard_updateTrancheUser _ _

variable {tradePairID : TradePairID} {tickIndex : Int} {goodTil : Option Time}
  {orderType : LimitOrderType} {tranche : LimitOrderTranche}

theorem jitGuard_getOrInitPlaceTranche
    (ok : getOrInitPlaceTranche dex tradePairID tickIndex goodTil orderType =
      .ok (tranche, next)) : next.jitGuard = dex.jitGuard := by
  have created : ∀ {goodTil}, initPlaceTranche dex tradePairID tickIndex goodTil =
      .ok (tranche, next) → next.jitGuard = dex.jitGuard := by
    intro goodTil ok
    obtain ⟨_, _, ok⟩ := of_bind ok
    cases ok
    rfl
  unfold getOrInitPlaceTranche at ok
  split at ok
  · exact created ok
  · exact created ok
  · split at ok
    · cases ok
      rfl
    · exact created ok

theorem jitGuard_placeMakerOrder
    {user : LimitOrderTrancheUser} {amountLeft : PrecDec}
    {orderFilled : Bool} {placed : PlacedMakerOrder}
    (ok : placeMakerOrder dex orderType tranche user amountLeft orderFilled = .ok placed) :
    placed.dex.jitGuard = dex.jitGuard := by
  unfold placeMakerOrder at ok
  split at ok
  · obtain ⟨resting, _, ok⟩ := of_bind ok
    obtain ⟨recorded, record, ok⟩ := of_bind ok
    cases ok
    unfold recordExpiration at record
    split at record
    · obtain ⟨_, _, record⟩ := of_bind record
      cases record
      rfl
    · cases record
      rfl
  · cases ok
    rfl

theorem countJIT_eq_ok
    (ok : countJIT dex orderType = .ok next) :
    next.params = dex.params ∧
      if orderType.IsJIT then
        dex.jitsInBlock ≠ dex.params.maxJitsPerBlock ∧
          next.jitsInBlock = dex.jitsInBlock + 1
      else next.jitsInBlock = dex.jitsInBlock := by
  unfold countJIT at ok
  split at ok
  · rename_i isJIT
    obtain ⟨room, ok⟩ := (Outcome.ite_throw_eq_ok_iff _ _ _ _).mp ok
    cases ok
    rw [if_pos isJIT]
    exact ⟨rfl, room, rfl⟩
  · rename_i notJIT
    cases ok
    rw [if_neg notJIT]
    exact ⟨rfl, rfl⟩

variable {receiverAddr : String}

theorem executePlaceLimitOrder_counts
    {amountIn : Int}
    {maxAmountOut : Option Int} {minAvgSellPrice : Option PrecDec}
    {executed : ExecutedLimitOrder}
    (ok : executePlaceLimitOrder dex blockTime tradePairID amountIn tickIndex orderType
      goodTil maxAmountOut minAvgSellPrice receiverAddr = .ok executed) :
    executed.dex.params = dex.params ∧
      if orderType.IsJIT then
        dex.jitsInBlock ≠ dex.params.maxJitsPerBlock ∧
          executed.dex.jitsInBlock = dex.jitsInBlock + 1
      else executed.dex.jitsInBlock = dex.jitsInBlock := by
  obtain ⟨_, _, ok⟩ := of_bind ok
  obtain ⟨_, _, ok⟩ := of_bind ok
  obtain ⟨⟨swapped, orderFilled⟩, _, ok⟩ := of_bind ok
  obtain ⟨⟨tranche, opened⟩, found, ok⟩ := of_bind ok
  obtain ⟨user, _, ok⟩ := of_bind ok
  obtain ⟨placed, place, ok⟩ := of_bind ok
  obtain ⟨final, count, ok⟩ := of_bind ok
  cases ok
  have guard := (jitGuard_updateTrancheUser placed.dex placed.trancheUser).trans
    ((jitGuard_placeMakerOrder place).trans (jitGuard_getOrInitPlaceTranche found))
  obtain ⟨jits, params⟩ := Prod.mk.inj guard
  have counts := countJIT_eq_ok count
  rw [jits, params] at counts
  exact counts

theorem jitGuard_settle {world final : World} {transfers : List Transfer}
    (ok : settle world transfers = .ok final) : final.dex.jitGuard = world.dex.jitGuard := by
  refine @Outcome.foldlM_invariant _ _ _ _
    (fun state => state.dex.jitGuard = world.dex.jitGuard) ?_ _ _ _ rfl ok
  intro state transfer next kept ran
  obtain ⟨⟨pending, begun⟩, began, ran⟩ := of_bind ran
  cases transfer with
  | payIn address tokens | payOut address tokens =>
      obtain ⟨quote, _, began⟩ := of_bind began
      cases began
      obtain ⟨_, _, ran⟩ := of_bind ran
      cases ran
      exact kept
  | mintShares address shares =>
      obtain ⟨_, _, began⟩ := of_bind began
      cases began
      obtain ⟨_, _, ran⟩ := of_bind ran
      cases ran
      exact kept
  | burnShares address shares =>
      cases began
      obtain ⟨_, _, ran⟩ := of_bind ran
      cases ran
      exact kept

def Msg.TouchesJITs : Msg → Prop
  | .placeLimitOrder _ | .updateParams _ => True
  | _ => False

variable {prepared : Prepared}

theorem jitGuard_withdrawHandler {world : World}
    (ok : Prepare.withdrawHandler world callerAddr receiverAddr pairID removals =
      .ok prepared) : prepared.dex.jitGuard = world.dex.jitGuard := by
  obtain ⟨executed, execute, ok⟩ := of_bind ok
  obtain ⟨_, _, ok⟩ := of_bind ok
  obtain ⟨_, _, ok⟩ := of_bind ok
  obtain ⟨_, _, ok⟩ := of_bind ok
  cases ok
  exact jitGuard_executeWithdraw execute

theorem jitGuard_prepare {world : World} {msg : Msg}
    (untouched : ¬ msg.TouchesJITs) (ok : prepare world msg = .ok prepared) :
    prepared.dex.jitGuard = world.dex.jitGuard := by
  cases msg with
  | placeLimitOrder msg | updateParams msg => exact absurd trivial untouched
  | deposit msg =>
      obtain ⟨_, _, ok⟩ := of_bind ok
      obtain ⟨_, _, ok⟩ := of_bind ok
      obtain ⟨_, _, ok⟩ := of_bind ok
      obtain ⟨_, _, ok⟩ := of_bind ok
      obtain ⟨executed, execute, ok⟩ := of_bind ok
      obtain ⟨_, _, ok⟩ := of_bind ok
      obtain ⟨_, _, ok⟩ := of_bind ok
      obtain ⟨_, _, ok⟩ := of_bind ok
      cases ok
      exact jitGuard_executeDeposit execute
  | withdrawal msg =>
      obtain ⟨_, _, ok⟩ := of_bind ok
      obtain ⟨_, _, ok⟩ := of_bind ok
      obtain ⟨_, _, ok⟩ := of_bind ok
      obtain ⟨_, _, ok⟩ := of_bind ok
      exact jitGuard_withdrawHandler ok
  | withdrawalWithShares msg =>
      obtain ⟨_, _, ok⟩ := of_bind ok
      obtain ⟨_, _, ok⟩ := of_bind ok
      obtain ⟨_, _, ok⟩ := of_bind ok
      split at ok
      · cases ok
      · exact jitGuard_withdrawHandler ok
  | withdrawFilledLimitOrder msg =>
      obtain ⟨_, _, ok⟩ := of_bind ok
      obtain ⟨⟨coins, dex⟩, execute, ok⟩ := of_bind ok
      obtain ⟨_, _, ok⟩ := of_bind ok
      cases ok
      exact jitGuard_executeWithdrawFilledLimitOrder execute
  | cancelLimitOrder msg =>
      obtain ⟨_, _, ok⟩ := of_bind ok
      obtain ⟨⟨coins, dex⟩, execute, ok⟩ := of_bind ok
      obtain ⟨_, _, ok⟩ := of_bind ok
      cases ok
      exact jitGuard_executeCancelLimitOrder execute
  | multiHopSwap msg =>
      obtain ⟨_, _, ok⟩ := of_bind ok
      obtain ⟨_, _, ok⟩ := of_bind ok
      obtain ⟨_, _, ok⟩ := of_bind ok
      obtain ⟨output, _, ok⟩ := of_bind ok
      split at ok
      · cases ok
      · cases ok
        rfl

theorem jitGuard_deliver {world final : World} {msg : Msg}
    (untouched : ¬ msg.TouchesJITs) (ok : deliver world msg = .ok final) :
    final.dex.jitGuard = world.dex.jitGuard := by
  obtain ⟨prepared, isPrepared, settled⟩ := of_bind ((deliver_eq_ok_iff world msg final).mp ok)
  exact (jitGuard_settle settled).trans (jitGuard_prepare untouched isPrepared)

theorem deliver_placeLimitOrder_counts {world final : World} {msg : MsgPlaceLimitOrder}
    (ok : deliver world (.placeLimitOrder msg) = .ok final) :
    final.dex.params = world.dex.params ∧
      if msg.orderType.IsJIT then
        world.dex.jitsInBlock ≠ world.dex.params.maxJitsPerBlock ∧
          final.dex.jitsInBlock = world.dex.jitsInBlock + 1
      else final.dex.jitsInBlock = world.dex.jitsInBlock := by
  obtain ⟨prepared, ok, settled⟩ := of_bind ((deliver_eq_ok_iff world _ final).mp ok)
  obtain ⟨_, _, ok⟩ := of_bind ok
  obtain ⟨_, _, ok⟩ := of_bind ok
  obtain ⟨_, _, ok⟩ := of_bind ok
  obtain ⟨_, _, ok⟩ := of_bind ok
  obtain ⟨_, _, ok⟩ := of_bind ok
  obtain ⟨_, _, ok⟩ := of_bind ok
  obtain ⟨executed, execute, ok⟩ := of_bind ok
  obtain ⟨_, _, ok⟩ := of_bind ok
  obtain ⟨_, _, ok⟩ := of_bind ok
  cases ok
  obtain ⟨jits, params⟩ := Prod.mk.inj (jitGuard_settle settled)
  rw [jits, params]
  exact executePlaceLimitOrder_counts execute

theorem deliver_updateParams {world final : World} {msg : MsgUpdateParams}
    (ok : deliver world (.updateParams msg) = .ok final) :
    final.dex.jitGuard = (world.dex.jitsInBlock, msg.params) := by
  obtain ⟨_, _, ok⟩ := of_bind ok
  obtain ⟨_, _, ok⟩ := of_bind ok
  cases ok
  rfl

theorem jitGuard_purgeRecord (state : PurgeState) (record : LimitOrderExpiration) :
    (purgeRecord state record).dex.jitGuard = state.dex.jitGuard := by
  unfold purgeRecord
  dsimp only
  split
  · rfl
  · split <;> rfl

theorem jitGuard_purgeLoop (curTime : Time) (gasCutoff : Nat) (gasConsumed : Nat → Nat)
    (records : List LimitOrderExpiration) (turn : Nat) (state : PurgeState) :
    (purgeLoop curTime gasCutoff gasConsumed records turn state).dex.jitGuard =
      state.dex.jitGuard := by
  induction records generalizing turn state with
  | nil => rfl
  | cons record rest ih =>
      unfold purgeLoop
      dsimp only
      split
      · rfl
      · split
        · rfl
        · rw [ih, jitGuard_purgeRecord]

/-- The tranche a message creates for a JIT order; every JIT order that succeeds has
one of its own. -/
def jitTrancheCreated (world : World) : Msg → List String
  | .placeLimitOrder msg =>
      match MsgServer.placeLimitOrder world msg with
      | .error _ => []
      | .ok (response, _) => if msg.orderType.IsJIT then [response.trancheKey] else []
  | _ => []

/-- The chain, with the JIT tranches that were created in the current block. -/
structure JITLedger where
  world : World
  jitTranches : List String

def JITLedger.step (ledger : JITLedger) (action : Action) : JITLedger where
  world := Dex.step ledger.world action
  jitTranches :=
    match action with
    | .message msg => jitTrancheCreated ledger.world msg ++ ledger.jitTranches
    | .purge _ _ _ => ledger.jitTranches
    | .nextBlock _ => []

/-- A change of the params that succeeds leaves room for the JIT orders the block has already seen. -/
def LeavesJITRoom (world : World) : Action → Prop
  | .message (.updateParams msg) =>
      (MsgServer.updateParams world msg).isOk →
        world.dex.jitsInBlock ≤ msg.params.maxJitsPerBlock
  | _ => True

instance (world : World) (action : Action) : Decidable (LeavesJITRoom world action) :=
  match action with
  | .message (.updateParams msg) =>
      inferInstanceAs (Decidable ((MsgServer.updateParams world msg).isOk →
        world.dex.jitsInBlock ≤ msg.params.maxJitsPerBlock))
  | .message (.deposit _) | .message (.withdrawal _) | .message (.withdrawalWithShares _)
  | .message (.placeLimitOrder _) | .message (.withdrawFilledLimitOrder _)
  | .message (.cancelLimitOrder _) | .message (.multiHopSwap _) | .purge _ _ _
  | .nextBlock _ => .isTrue trivial

theorem jitTrancheCreated_error {world : World} {msg : Msg} {failure : Failure}
    (failed : deliver world msg = .error failure) : jitTrancheCreated world msg = [] := by
  cases msg with
  | placeLimitOrder msg =>
      cases placed : MsgServer.placeLimitOrder world msg with
      | error cause => simp only [jitTrancheCreated, placed]
      | ok result =>
          simp only [deliver, placed] at failed
          cases failed
  | _ => rfl

theorem length_jitTrancheCreated {world final : World} {msg : MsgPlaceLimitOrder}
    (ok : deliver world (.placeLimitOrder msg) = .ok final) :
    (jitTrancheCreated world (.placeLimitOrder msg)).length =
      if msg.orderType.IsJIT then 1 else 0 := by
  cases placed : MsgServer.placeLimitOrder world msg with
  | error cause =>
      simp only [deliver, placed] at ok
      cases ok
  | ok result =>
      simp only [jitTrancheCreated, placed]
      split <;> rfl

/-- The count is the number of JIT tranches of the block, and within the cap. -/
structure JITLedger.Capped (ledger : JITLedger) : Prop where
  counted : ledger.jitTranches.length = ledger.world.dex.jitsInBlock
  within : ledger.world.dex.jitsInBlock ≤ ledger.world.dex.params.maxJitsPerBlock

namespace JITLedger

variable {ledger : JITLedger}

theorem Capped.of_guard (capped : ledger.Capped) {world : World}
    (guard : world.dex.jitGuard = ledger.world.dex.jitGuard) :
    Capped ⟨world, ledger.jitTranches⟩ := by
  obtain ⟨jits, params⟩ := Prod.mk.inj guard
  constructor
  · exact capped.counted.trans jits.symm
  · dsimp only
    rw [jits, params]
    exact capped.within

theorem Capped.placed (capped : ledger.Capped) {msg : MsgPlaceLimitOrder} {final : World}
    (ok : deliver ledger.world (.placeLimitOrder msg) = .ok final) :
    Capped ⟨final, jitTrancheCreated ledger.world (.placeLimitOrder msg) ++
      ledger.jitTranches⟩ := by
  obtain ⟨params, counts⟩ := deliver_placeLimitOrder_counts ok
  have created := length_jitTrancheCreated ok
  obtain ⟨counted, within⟩ := capped
  constructor
  · rw [List.length_append, created, counted]
    split at counts <;> rename_i isJIT
    · rw [if_pos isJIT, counts.2, Nat.add_comm]
    · rw [if_neg isJIT, counts, Nat.zero_add]
  · dsimp only
    rw [params]
    split at counts
    · -- the count was not the cap and not above it
      obtain ⟨room, counts⟩ := counts
      omega
    · rw [counts]
      exact within

theorem Capped.message (capped : ledger.Capped) {msg : Msg} {final : World}
    (room : LeavesJITRoom ledger.world (.message msg))
    (ok : deliver ledger.world msg = .ok final) :
    Capped ⟨final, jitTrancheCreated ledger.world msg ++ ledger.jitTranches⟩ := by
  cases msg with
  | placeLimitOrder msg => exact capped.placed ok
  | updateParams msg =>
      obtain ⟨jits, params⟩ := Prod.mk.inj (deliver_updateParams ok)
      constructor
      · exact capped.counted.trans jits.symm
      · dsimp only
        rw [jits, params]
        refine room ?_
        rw [show MsgServer.updateParams ledger.world msg = .ok final from ok]
        rfl
  | _ =>
      refine capped.of_guard (jitGuard_deliver ?_ ok)
      exact not_false

theorem step_capped (capped : ledger.Capped) {action : Action}
    (room : LeavesJITRoom ledger.world action) : (ledger.step action).Capped := by
  cases action with
  | message msg =>
      unfold JITLedger.step Dex.step
      dsimp only
      cases delivered : deliver ledger.world msg with
      | error failure =>
          rw [jitTrancheCreated_error delivered]
          exact capped
      | ok final => exact capped.message room delivered
  | purge curTime gasAtStart gasConsumed =>
      exact capped.of_guard (jitGuard_purgeLoop _ _ _ _ _ _)
  | nextBlock blockTime => exact ⟨rfl, Nat.zero_le _⟩

theorem run_world (ledger : JITLedger) (actions : List Action) :
    (Machine.run JITLedger.step ledger actions).world =
      Machine.run Dex.step ledger.world actions := by
  induction actions generalizing ledger with
  | nil => rfl
  | cons action rest ih => exact ih (ledger.step action)

end JITLedger

/-- Where the transient store is empty, as at the start of a block, and as long as no
change of the params sets the cap below the JIT orders the block has already seen: after
every order that succeeds, the block has created no more JIT tranches than the cap. -/
theorem jits_capped {world final : World} {actions : List Action} {msg : MsgPlaceLimitOrder}
    (started : world.dex.jitsInBlock = 0)
    (room : Machine.Allowed JITLedger.step
      (fun ledger action => LeavesJITRoom ledger.world action) ⟨world, []⟩ actions)
    (placed : deliver (Machine.run step world actions) (.placeLimitOrder msg) = .ok final) :
    (Machine.run JITLedger.step ⟨world, []⟩
      (actions ++ [.message (.placeLimitOrder msg)])).jitTranches.length ≤
        final.dex.params.maxJitsPerBlock := by
  have start : JITLedger.Capped ⟨world, []⟩ := ⟨started.symm, started ▸ Nat.zero_le _⟩
  have capped := @Machine.Allowed.invariant _ _ JITLedger.step _ JITLedger.Capped
    (fun _ _ capped room => JITLedger.step_capped capped room) _ _ start room
  rw [Machine.run_append]
  generalize isBefore : Machine.run JITLedger.step ⟨world, []⟩ actions = before at capped ⊢
  have isWorld : before.world = Machine.run step world actions := by
    rw [← isBefore, JITLedger.run_world]
  rw [← isWorld] at placed
  have after := capped.placed placed
  exact after.counted.trans_le after.within

def jitOrder : MsgPlaceLimitOrder :=
  ⟨alice, "alice", "uatom", "untrn", 0, 1, .justInTime, none, none, none, none⟩

def setMaxJits (maxJitsPerBlock : Nat) : Action :=
  .message (.updateParams ⟨"gov", { defaultParams with maxJitsPerBlock := maxJitsPerBlock }⟩)

theorem jits_capped_raised :
    ∃ final, deliver (Machine.run step openWorld
        [.message (.placeLimitOrder jitOrder), setMaxJits 2]) (.placeLimitOrder jitOrder) =
          .ok final ∧
      (Machine.run JITLedger.step ⟨openWorld, []⟩
        ([.message (.placeLimitOrder jitOrder), setMaxJits 2] ++
          [.message (.placeLimitOrder jitOrder)])).jitTranches.length ≤
            final.dex.params.maxJitsPerBlock := by
  obtain ⟨final, placed, _⟩ := @Outcome.eq_ok_of_map_toOption _ _ _ (deliver
    (Machine.run step openWorld [.message (.placeLimitOrder jitOrder), setMaxJits 2])
    (.placeLimitOrder jitOrder)) (fun final => final.dex.jitsInBlock) 2 (by decide +kernel)
  exact ⟨final, placed, jits_capped rfl (by decide +kernel) placed⟩

/-- With two JIT orders placed the cap becomes one, which the count of two is not equal
to: a third order succeeds. -/
theorem jits_exceed_lowered_cap :
    ∃ final, deliver (Machine.run step openWorld
        [.message (.placeLimitOrder jitOrder), .message (.placeLimitOrder jitOrder),
          setMaxJits 1]) (.placeLimitOrder jitOrder) = .ok final ∧
      (Machine.run JITLedger.step ⟨openWorld, []⟩
        [.message (.placeLimitOrder jitOrder), .message (.placeLimitOrder jitOrder),
          setMaxJits 1, .message (.placeLimitOrder jitOrder)]).jitTranches =
            ["tk-2", "tk-1", "tk-0"] ∧
      final.dex.params.maxJitsPerBlock = 1 := by
  obtain ⟨final, placed, cap⟩ := @Outcome.eq_ok_of_map_toOption _ _ _ (deliver
    (Machine.run step openWorld
      [.message (.placeLimitOrder jitOrder), .message (.placeLimitOrder jitOrder),
        setMaxJits 1]) (.placeLimitOrder jitOrder))
    (fun final => final.dex.params.maxJitsPerBlock) 1 (by decide +kernel)
  exact ⟨final, placed, by decide +kernel, cap⟩

end Neutron.Dex
