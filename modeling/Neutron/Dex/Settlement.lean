import Neutron.Library.Machine
import Neutron.Dex.Transfers

namespace Neutron.Dex

open Library PrecDec

namespace Transfer

variable (world : World) (address : String)

theorem run_payIn (tokens : PrecDecCoins) :
    run world (.payIn address tokens) =
      sendFractionalCoinsFromAccountToDex world address tokens := by
  simp only [run, Transfer.begin, quoteIn, Pending.finish,
    sendFractionalCoinsFromAccountToDex, bind_assoc, pure_bind]

theorem run_payOut (tokens : PrecDecCoins) :
    run world (.payOut address tokens) =
      sendFractionalCoinsFromDexToAccount world address tokens := by
  simp only [run, Transfer.begin, quoteOut, Pending.finish,
    sendFractionalCoinsFromDexToAccount, bind_assoc, pure_bind]

theorem run_mintShares (shares : Coins) :
    run world (.mintShares address shares) =
      (fun bank => { world with bank := bank }) <$> Dex.mintShares world.bank address shares := by
  simp only [run, Transfer.begin, Pending.finish, Dex.mintShares, bind_assoc, pure_bind,
    map_eq_pure_bind]

theorem run_burnShares (shares : Coins) :
    run world (.burnShares address shares) =
      (fun bank => { world with bank := bank }) <$> Dex.burnShares world.bank address shares := by
  simp only [run, Transfer.begin, Pending.finish, pure_bind, map_eq_pure_bind]

end Transfer

@[simp] theorem settle_nil (world : World) : settle world [] = pure world := rfl

@[simp] theorem settle_cons (world : World) (transfer : Transfer) (rest : List Transfer) :
    settle world (transfer :: rest) = transfer.run world >>= (settle · rest) := rfl

theorem settle_append (world : World) (first rest : List Transfer) :
    settle world (first ++ rest) = settle world first >>= (settle · rest) :=
  List.foldlM_append

theorem settle_if (world : World) {condition : Prop} [Decidable condition]
    (transfer : Transfer) :
    settle world (if condition then [transfer] else []) =
      if condition then transfer.run world else pure world := by
  split
  · exact bind_pure _
  · rfl

theorem settle_unless (world : World) {condition : Prop} [Decidable condition]
    (transfer : Transfer) :
    settle world (if condition then [] else [transfer]) =
      if condition then pure world else transfer.run world := by
  split
  · rfl
  · exact bind_pure _

def Prepared.settle (world : World) (prepared : Prepared) : Outcome World :=
  Dex.settle { world with dex := prepared.dex } prepared.transfers

section Deliver

variable (world : World)

theorem deposit_settles (msg : MsgDeposit) :
    Prod.snd <$> MsgServer.deposit world msg =
      Prepare.deposit world msg >>= Prepared.settle world := by
  simp only [MsgServer.deposit, depositCore, Prepare.deposit, Prepared.settle, unlessEmpty,
    bind_assoc, pure_bind, settle_append, settle_unless, settle_cons, settle_nil,
    Transfer.run_payIn, Transfer.run_mintShares, bind_pure, map_eq_pure_bind]

theorem withdrawHandler_settles (callerAddr receiverAddr : String) (pairID : PairID)
    (removals : List (Pool × Int)) (final : World) :
    Prod.snd <$> withdrawHandler world callerAddr receiverAddr pairID removals = .ok final ↔
      Prepare.withdrawHandler world callerAddr receiverAddr pairID removals >>=
        Prepared.settle world = .ok final := by
  simp only [withdrawHandler, Prepare.withdrawHandler, Prepared.settle, bind_assoc, pure_bind,
    settle_cons, settle_nil, Transfer.run_payOut, Transfer.run_burnShares, bind_pure,
    map_eq_pure_bind, Outcome.bind_eq_ok_iff]
  constructor
  · rintro ⟨executed, ran, bank, burned, coin0, new0, coin1, new1, coins, new, sent⟩
    exact ⟨executed, ran, coin0, new0, coin1, new1, coins, new, bank, burned, sent⟩
  · rintro ⟨executed, ran, coin0, new0, coin1, new1, coins, new, bank, burned, sent⟩
    exact ⟨executed, ran, bank, burned, coin0, new0, coin1, new1, coins, new, sent⟩

theorem withdrawal_settles (msg : MsgWithdrawal) (final : World) :
    Prod.snd <$> MsgServer.withdrawal world msg = .ok final ↔
      Prepare.withdrawal world msg >>= Prepared.settle world = .ok final := by
  simp only [MsgServer.withdrawal, withdrawCore, Prepare.withdrawal, map_bind, map_pure,
    bind_assoc]
  refine Outcome.bind_eq_ok_congr fun _ => Outcome.bind_eq_ok_congr fun _ =>
    Outcome.bind_eq_ok_congr fun pairID => Outcome.bind_eq_ok_congr fun pools => ?_
  exact withdrawHandler_settles world _ _ pairID _ final

theorem withdrawalWithShares_settles (msg : MsgWithdrawalWithShares) (final : World) :
    Prod.snd <$> MsgServer.withdrawalWithShares world msg = .ok final ↔
      Prepare.withdrawalWithShares world msg >>= Prepared.settle world = .ok final := by
  simp only [MsgServer.withdrawalWithShares, withdrawWithSharesCore,
    Prepare.withdrawalWithShares, map_bind, map_pure, bind_assoc]
  refine Outcome.bind_eq_ok_congr fun _ => Outcome.bind_eq_ok_congr fun _ =>
    Outcome.bind_eq_ok_congr fun pools => ?_
  cases pools.head? with
  | none => exact Iff.rfl
  | some first => exact withdrawHandler_settles world _ _ first.pairID _ final

theorem placeLimitOrder_settles (msg : MsgPlaceLimitOrder) (final : World) :
    Prod.snd <$> MsgServer.placeLimitOrder world msg = .ok final ↔
      Prepare.placeLimitOrder world msg >>= Prepared.settle world = .ok final := by
  simp only [MsgServer.placeLimitOrder, placeLimitOrderCore, Prepare.placeLimitOrder,
    Prepared.settle, payTakerOut, map_bind, bind_assoc, pure_bind, settle_append,
    settle_if, settle_cons, settle_nil, Transfer.run_payIn, Transfer.run_payOut, bind_pure]
  refine Outcome.bind_eq_ok_congr fun _ => Outcome.bind_eq_ok_congr fun _ =>
    Outcome.bind_eq_ok_congr fun _ => Outcome.bind_eq_ok_congr fun _ =>
    Outcome.bind_eq_ok_congr fun tickIndex => Outcome.bind_eq_ok_congr fun tradePairID =>
    Outcome.bind_eq_ok_congr fun executed => ?_
  by_cases charged : executed.totalIn.IsPositive
  · simp only [Outcome.require, if_pos charged, pure_bind, bind_assoc, map_pure, bind_pure,
      Outcome.bind_eq_ok_iff]
    constructor
    · rintro ⟨paidOut, sent, coin, new, paid⟩
      exact ⟨coin, new, paidOut, sent, paid⟩
    · rintro ⟨coin, new, paidOut, sent, paid⟩
      exact ⟨paidOut, sent, coin, new, paid⟩
  · -- one side pays the receiver first, and both panic
    simp only [Outcome.require, if_neg charged, pure_bind, Outcome.bind_eq_ok_iff]
    constructor
    · rintro ⟨_, _, impossible⟩
      cases impossible
    · rintro ⟨_, impossible, _⟩
      cases impossible

theorem cancelLimitOrder_settles (msg : MsgTranche) :
    Prod.snd <$> MsgServer.cancelLimitOrder world msg =
      Prepare.cancelLimitOrder world msg >>= Prepared.settle world := by
  simp only [MsgServer.cancelLimitOrder, cancelLimitOrderCore, Prepare.cancelLimitOrder,
    Prepared.settle, map_bind, map_pure, bind_assoc, pure_bind, settle_cons, settle_nil,
    Transfer.run_payOut, bind_pure]

theorem withdrawFilledLimitOrder_settles (msg : MsgTranche) :
    Prod.snd <$> MsgServer.withdrawFilledLimitOrder world msg =
      Prepare.withdrawFilledLimitOrder world msg >>= Prepared.settle world := by
  simp only [MsgServer.withdrawFilledLimitOrder, withdrawFilledLimitOrderCore,
    Prepare.withdrawFilledLimitOrder, Prepared.settle, map_bind, map_pure, bind_assoc,
    pure_bind, settle_cons, settle_nil, Transfer.run_payOut, bind_pure]

theorem multiHopSwap_settles (msg : MsgMultiHopSwap) (final : World) :
    Prod.snd <$> MsgServer.multiHopSwap world msg = .ok final ↔
      Prepare.multiHopSwap world msg >>= Prepared.settle world = .ok final := by
  simp only [MsgServer.multiHopSwap, multiHopSwapCore, Prepare.multiHopSwap, map_bind,
    map_pure, bind_assoc]
  refine Outcome.bind_eq_ok_congr fun _ => Outcome.bind_eq_ok_congr fun _ =>
    Outcome.bind_eq_ok_congr fun _ => Outcome.bind_eq_ok_congr fun output => ?_
  cases output.bestRoute with
  | none => exact Iff.rfl
  | some bestRoute =>
      simp only [Prepared.settle, bind_assoc, pure_bind, settle_cons, settle_nil,
        Transfer.run_payIn, Transfer.run_payOut, bind_pure]
      refine Outcome.bind_eq_ok_congr fun paidIn => ?_
      exact wrapError_eq_ok_iff

theorem updateParams_settles (msg : MsgUpdateParams) :
    MsgServer.updateParams world msg =
      Prepare.updateParams world msg >>= Prepared.settle world := by
  simp only [MsgServer.updateParams, Prepare.updateParams, Prepared.settle, bind_assoc,
    pure_bind, settle_nil]

theorem deliver_eq_ok_iff (msg : Msg) (final : World) :
    deliver world msg = .ok final ↔
      prepare world msg >>= Prepared.settle world = .ok final := by
  cases msg with
  | deposit msg => exact Eq.congr (deposit_settles world msg) rfl
  | withdrawal msg => exact withdrawal_settles world msg final
  | withdrawalWithShares msg => exact withdrawalWithShares_settles world msg final
  | placeLimitOrder msg => exact placeLimitOrder_settles world msg final
  | withdrawFilledLimitOrder msg =>
      exact Eq.congr (withdrawFilledLimitOrder_settles world msg) rfl
  | cancelLimitOrder msg => exact Eq.congr (cancelLimitOrder_settles world msg) rfl
  | multiHopSwap msg => exact multiHopSwap_settles world msg final
  | updateParams msg => exact Eq.congr (updateParams_settles world msg) rfl

end Deliver

section Hookless

variable (world snapshot : World)

theorem run_proceed_idle (count : Nat) :
    Machine.run hookedStep (Nested.idle world) (List.replicate count .proceed) =
      Nested.idle world := by
  induction count with
  | zero => rfl
  | succ count ih => exact ih

def HookedWorld.begun : Outcome (Option Frame × World) → HookedWorld
  | .error _ => Nested.idle snapshot
  | .ok (none, world) => Nested.idle world
  | .ok (some frame, world) => ⟨world, [(frame, snapshot)]⟩

theorem run_proceed_begun (transfers : List Transfer) :
    Machine.run hookedStep (.begun snapshot (beginNext world transfers))
        (List.replicate transfers.length .proceed) =
      Nested.idle ((settle world transfers).toOption.getD snapshot) := by
  induction transfers generalizing world with
  | nil => rfl
  | cons transfer rest ih =>
      rw [settle_cons, Transfer.run, beginNext]
      cases transfer.begin world with
      | error failure => exact run_proceed_idle snapshot _
      | ok began =>
          obtain ⟨pending, begun⟩ := began
          rw [List.length_cons, List.replicate_succ]
          change Machine.run hookedStep (HookedWorld.proceed ⟨begun, [(⟨pending, rest⟩,
            snapshot)]⟩ ⟨pending, rest⟩) _ =
              Nested.idle ((pending.finish begun >>= (settle · rest)).toOption.getD snapshot)
          unfold HookedWorld.proceed
          dsimp only
          cases pending.finish begun with
          | error failure => exact run_proceed_idle snapshot _
          | ok finished =>
              refine Eq.trans ?_ (ih finished)
              change Machine.run hookedStep (match beginNext finished rest with
                | .error _ => _
                | .ok (none, world) => _
                | .ok (some next, world) => _) _ = _
              rcases beginNext finished rest with _ | ⟨_ | _, _⟩ <;> rfl

theorem hookedStep_message_idle (msg : Msg) :
    hookedStep (Nested.idle world) (.message msg) = .begun world (do
      let prepared ← prepare world msg
      beginNext { world with dex := prepared.dex } prepared.transfers) := by
  have receives : HookedWorld.Receives (Nested.idle world) := by
    intro frame impossible
    cases impossible
  unfold hookedStep
  dsimp only
  rw [if_pos receives]
  unfold HookedWorld.receive
  dsimp only [Nested.idle]
  split <;> rename_i isBegun <;> rw [isBegun] <;> rfl

theorem run_message_hookless (msg : Msg) :
    ∃ count, Machine.run hookedStep (Nested.idle world)
      (.message msg :: List.replicate count .proceed) =
        Nested.idle (step world (.message msg)) := by
  have delivered : (deliver world msg).toOption =
      (prepare world msg >>= Prepared.settle world).toOption :=
    Outcome.toOption_eq_of_ok_iff (deliver_eq_ok_iff world msg)
  simp only [Machine.run_cons, hookedStep_message_idle, step, delivered]
  cases prepare world msg with
  | error failure => exact ⟨0, rfl⟩
  | ok prepared =>
      exact ⟨prepared.transfers.length,
        run_proceed_begun { world with dex := prepared.dex } world prepared.transfers⟩

end Hookless

end Neutron.Dex
