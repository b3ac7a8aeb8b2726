import Neutron.TokenFactory.BeforeSend

namespace Neutron.TokenFactory

open Library

universe u v

variable {Address : Type u} {State : Type v} {codec : AddressCodec Address}

def Chain.whitelistedHook (factory : Factory) (chain : Chain codec State) (denom : String) :
    Option Address :=
  (codec.accAddressFromBech32 (chain.beforeSendHooks.getBeforeSendHook denom)).filter
    (chain.assertIsHookWhitelisted factory denom)

section Listeners

variable (factory : Factory) (wasmSudo : Sudo codec State) (sender receiver : Address)

def trackCall (contract : Address) (coin : Coin) : Call Address :=
  ⟨contract, .trackBeforeSend (codec.toBech32 sender) (codec.toBech32 receiver) coin⟩

def listenerRun (chain : Chain codec State) (contract : Address) (coin : Coin) :
    SudoRun codec State :=
  wasmSudo chain trackBeforeSendGasLimit contract
    (@trackCall Address codec sender receiver contract coin).msg

/-- What a call of a listener is to leave: its gas is charged however it ends, and its
writes are kept if it returns. -/
def Context.settle (context : Context codec State) (call : Call Address)
    (run : SudoRun codec State) : Context codec State where
  chain := if run.ending = .returned then run.chain else context.chain
  gasMeter := { context.gasMeter with
    consumed := context.gasMeter.consumed + run.gasConsumed }
  calls := context.calls ++ [call]

def trackIndependently : Context codec State → List Coin → Context codec State
  | context, [] => context
  | context, coin :: rest =>
      match context.chain.whitelistedHook factory coin.denom with
      | none => trackIndependently context rest
      | some contract =>
          trackIndependently
            (context.settle (@trackCall Address codec sender receiver contract coin)
              (listenerRun wasmSudo sender receiver context.chain contract coin)) rest

/-- Only the last hook of the send fails, and if it does, it has neither written nor used
gas. -/
def FailsHarmlessly : Chain codec State → List Coin → Prop
  | _, [] => True
  | chain, coin :: rest =>
      match chain.whitelistedHook factory coin.denom with
      | none => FailsHarmlessly chain rest
      | some contract =>
          let run := listenerRun wasmSudo sender receiver chain contract coin
          if run.ending = .returned then
            FailsHarmlessly run.chain rest
          else
            run.chain = chain ∧ run.gasConsumed = 0 ∧
              ∀ other ∈ rest, chain.whitelistedHook factory other.denom = none

variable {factory wasmSudo sender receiver}
variable {context : Context codec State} {coin : Coin} {contract : Address}

theorem trackBeforeSend_skip (isNone : context.chain.whitelistedHook factory coin.denom = none)
    (rest : List Coin) :
    trackBeforeSend factory wasmSudo sender receiver context (coin :: rest) =
      trackBeforeSend factory wasmSudo sender receiver context rest := by
  unfold trackBeforeSend
  rw [callBeforeSendListener]
  dsimp only
  by_cases isEmpty : context.chain.beforeSendHooks.getBeforeSendHook coin.denom = ""
  · rw [if_pos isEmpty]
  · obtain ⟨address, isAddress⟩ :=
      context.chain.beforeSendHooks.readable_getBeforeSendHook isEmpty
    have notListed : ¬context.chain.assertIsHookWhitelisted factory coin.denom address := by
      unfold Chain.whitelistedHook at isNone
      rw [isAddress, Option.filter_eq_none_iff] at isNone
      exact isNone address rfl
    rw [if_neg isEmpty, isAddress]
    exact congrArg Prod.fst (if_neg notListed)

theorem whitelistedHook_eq_some
    (isHook : context.chain.whitelistedHook factory coin.denom = some contract) :
    context.chain.beforeSendHooks.getBeforeSendHook coin.denom ≠ "" ∧
      codec.accAddressFromBech32
        (context.chain.beforeSendHooks.getBeforeSendHook coin.denom) = some contract ∧
      context.chain.assertIsHookWhitelisted factory coin.denom contract := by
  unfold Chain.whitelistedHook at isHook
  obtain ⟨isAddress, isListed⟩ := Option.filter_eq_some_iff.mp isHook
  refine ⟨?_, isAddress, isListed⟩
  intro isEmpty
  rw [isEmpty, codec.nonempty] at isAddress
  cases isAddress

theorem trackBeforeSend_fails
    (isHook : context.chain.whitelistedHook factory coin.denom = some contract)
    (fails : (listenerRun wasmSudo sender receiver context.chain contract coin).ending ≠
      .returned) (rest : List Coin) :
    trackBeforeSend factory wasmSudo sender receiver context (coin :: rest) =
      ⟨(listenerRun wasmSudo sender receiver context.chain contract coin).chain,
        context.gasMeter,
        context.calls ++ [@trackCall Address codec sender receiver contract coin]⟩ := by
  obtain ⟨notEmpty, isAddress, isListed⟩ := whitelistedHook_eq_some isHook
  unfold trackBeforeSend
  rw [callBeforeSendListener]
  simp only [notEmpty, isAddress, isListed, if_false, if_true, Bool.false_eq_true]
  split
  · rfl
  · rfl
  · rename_i returned
    exact absurd returned fails

theorem trackBeforeSend_returns
    (isHook : context.chain.whitelistedHook factory coin.denom = some contract)
    (returns : (listenerRun wasmSudo sender receiver context.chain contract coin).ending =
      .returned)
    (enough : context.gasMeter.consumed +
      (listenerRun wasmSudo sender receiver context.chain contract coin).gasConsumed ≤
        context.gasMeter.limit) (rest : List Coin) :
    trackBeforeSend factory wasmSudo sender receiver context (coin :: rest) =
      trackBeforeSend factory wasmSudo sender receiver
        (context.settle (@trackCall Address codec sender receiver contract coin)
          (listenerRun wasmSudo sender receiver context.chain contract coin)) rest := by
  obtain ⟨notEmpty, isAddress, isListed⟩ := whitelistedHook_eq_some isHook
  unfold trackBeforeSend
  rw [callBeforeSendListener]
  simp only [notEmpty, isAddress, isListed, if_false, if_true, Bool.false_eq_true]
  rw [Context.settle, if_pos returns]
  have consumed := GasMeter.consumeGas_of_le enough
  unfold listenerRun trackCall at consumed returns
  simp only [returns, consumed, Bool.false_eq_true, if_false]
  rfl

theorem trackIndependently_none (coins : List Coin)
    (isNone : ∀ coin ∈ coins, context.chain.whitelistedHook factory coin.denom = none) :
    trackIndependently factory wasmSudo sender receiver context coins = context := by
  induction coins with
  | nil => rfl
  | cons coin rest ih =>
      rw [trackIndependently, isNone coin List.mem_cons_self]
      exact ih fun other member => isNone other (List.mem_cons_of_mem _ member)

theorem consumed_trackIndependently (context : Context codec State) (coins : List Coin) :
    context.gasMeter.consumed ≤
      (trackIndependently factory wasmSudo sender receiver context coins).gasMeter.consumed := by
  induction coins generalizing context with
  | nil => exact Nat.le_refl _
  | cons coin rest ih =>
      rw [trackIndependently]
      split
      · exact ih context
      · refine Nat.le_trans ?_ (ih _)
        exact Nat.le_add_right _ _

theorem calls_trackIndependently (context : Context codec State) (coins : List Coin) :
    ∃ made, (trackIndependently factory wasmSudo sender receiver context coins).calls =
      context.calls ++ made ∧
      (made = [] → ∀ coin ∈ coins,
        context.chain.whitelistedHook factory coin.denom = none) := by
  induction coins generalizing context with
  | nil => exact ⟨[], (List.append_nil _).symm, fun _ coin member => nomatch member⟩
  | cons coin rest ih =>
      rw [trackIndependently]
      cases isHook : context.chain.whitelistedHook factory coin.denom with
      | none =>
          obtain ⟨made, isMade, noHooks⟩ := ih context
          refine ⟨made, isMade, fun isEmpty => ?_⟩
          exact List.forall_mem_cons.mpr ⟨isHook, noHooks isEmpty⟩
      | some contract =>
          obtain ⟨made, isMade, _⟩ := ih (context.settle
            (@trackCall Address codec sender receiver contract coin)
            (listenerRun wasmSudo sender receiver context.chain contract coin))
          refine ⟨_ :: made, isMade.trans (List.append_assoc _ _ _), fun isEmpty => ?_⟩
          cases isEmpty

theorem fails_eq_trackIndependently_iff (call : Call Address) {run : SudoRun codec State}
    (fails : run.ending ≠ .returned) (rest : List Coin) :
    (⟨run.chain, context.gasMeter, context.calls ++ [call]⟩ : Context codec State) =
        trackIndependently factory wasmSudo sender receiver (context.settle call run) rest ↔
      run.chain = context.chain ∧ run.gasConsumed = 0 ∧
        ∀ other ∈ rest, context.chain.whitelistedHook factory other.denom = none := by
  have isChain : (context.settle call run).chain = context.chain := if_neg fails
  constructor
  · intro same
    obtain ⟨made, isMade, noHooks⟩ := @calls_trackIndependently _ _ codec factory wasmSudo
      sender receiver (context.settle call run) rest
    rw [← same] at isMade
    have none := noHooks (List.self_eq_append_right.mp isMade)
    rw [trackIndependently_none rest none] at same
    rw [isChain] at none
    have isConsumed := congrArg (fun context => context.gasMeter.consumed) same
    refine ⟨(congrArg Context.chain same).trans isChain, ?_, none⟩
    exact Nat.left_eq_add.mp isConsumed
  · rintro ⟨unwritten, free, none⟩
    rw [trackIndependently_none rest (by rw [isChain]; exact none), Context.settle,
      if_neg fails, unwritten, free]
    rfl

theorem failsHarmlessly_of_returned
    (returned : ∀ chain contract coin,
      (listenerRun wasmSudo sender receiver chain contract coin).ending = .returned)
    (chain : Chain codec State) (coins : List Coin) :
    FailsHarmlessly factory wasmSudo sender receiver chain coins := by
  induction coins generalizing chain with
  | nil => trivial
  | cons coin rest ih =>
      rw [FailsHarmlessly]
      cases chain.whitelistedHook factory coin.denom with
      | none => exact ih chain
      | some contract =>
          dsimp only
          rw [if_pos (returned _ _ _)]
          exact ih _

/-- The listeners of a send are independent exactly when none of them fails but the last,
and this one only before it writes or uses gas. -/
theorem trackBeforeSend_independent_iff (factory : Factory) (wasmSudo : Sudo codec State)
    (sender receiver : Address) (context : Context codec State) (amount : List Coin)
    (enough : (trackIndependently factory wasmSudo sender receiver context amount).gasMeter.consumed
      ≤ context.gasMeter.limit) :
    trackBeforeSend factory wasmSudo sender receiver context amount =
        trackIndependently factory wasmSudo sender receiver context amount ↔
      FailsHarmlessly factory wasmSudo sender receiver context.chain amount := by
  induction amount generalizing context with
  | nil => exact iff_of_true rfl trivial
  | cons coin rest ih =>
      rw [trackIndependently, FailsHarmlessly]
      rw [trackIndependently] at enough
      cases isHook : context.chain.whitelistedHook factory coin.denom with
      | none =>
          rw [isHook] at enough
          rw [trackBeforeSend_skip isHook]
          exact ih context enough
      | some contract =>
          rw [isHook] at enough
          dsimp only at enough ⊢
          by_cases returns : (listenerRun wasmSudo sender receiver context.chain contract
            coin).ending = .returned
          · have enoughHere := Nat.le_trans (consumed_trackIndependently _ rest) enough
            rw [if_pos returns, trackBeforeSend_returns isHook returns enoughHere, ih _ enough,
              Context.settle, if_pos returns]
          · rw [if_neg returns, trackBeforeSend_fails isHook returns]
            exact fails_eq_trackIndependently_iff _ returns rest

end Listeners

def plainCodec : AddressCodec String where
  accAddressFromBech32 text := if text = "" then none else some text
  toBech32 := id
  nonempty := rfl

def Factory.denom (factory : Factory) (subdenom : String) : String :=
  factory.moduleDenomPrefix ++ factory.separator.toString ++ "creator" ++
    factory.separator.toString ++ subdenom

def twoHooks (factory : Factory) : HookStore plainCodec where
  hooks := (SortedStore.empty.set (factory.denom "first") "listenerA").set
    (factory.denom "second") "listenerB"
  readable := by
    intro denom contractAddr stored
    rw [SortedStore.get?_set, SortedStore.get?_set] at stored
    split at stored
    · exact Option.some.inj stored ▸ rfl
    · split at stored
      · exact Option.some.inj stored ▸ rfl
      · cases stored

def twoHooksContext (factory : Factory) : Context plainCodec Nat where
  chain := ⟨twoHooks factory, [⟨7, "creator"⟩], fun _ => some 7, 0⟩
  gasMeter := ⟨1000000, 0, by decide⟩
  calls := []

def twoCoins (factory : Factory) : List Coin :=
  [⟨factory.denom "first", 5⟩, ⟨factory.denom "second", 8⟩]

def countingSudo (fails : Bool) : Sudo plainCodec Nat :=
  fun chain _ contract _ =>
    ⟨if fails && contract == "listenerA" then .failed else .returned,
      { chain with state := chain.state + 1 }, 30000⟩

theorem trackBeforeSend_independent_counting :
    trackBeforeSend .tokenfactory (countingSudo false) "alice" "bob"
        (twoHooksContext .tokenfactory) (twoCoins .tokenfactory) =
      trackIndependently .tokenfactory (countingSudo false) "alice" "bob"
        (twoHooksContext .tokenfactory) (twoCoins .tokenfactory) :=
  (trackBeforeSend_independent_iff _ _ _ _ _ _ (by decide +kernel)).mpr
    (failsHarmlessly_of_returned (fun _ _ _ => rfl) _ _)

def afterFailure (factory : Factory) : Context plainCodec Nat :=
  trackBeforeSend factory (countingSudo true) "alice" "bob" (twoHooksContext factory)
    (twoCoins factory)

/-- The first listener fails: the second is not called, what the first has written stays,
and no gas is charged. -/
example : ((afterFailure .coinfactory).calls.map Call.contract,
    (afterFailure .coinfactory).chain.state,
    (afterFailure .coinfactory).gasMeter.consumed) = (["listenerA"], 1, 0) := by
  decide +kernel

theorem trackBeforeSend_stops :
    afterFailure .tokenfactory ≠
        trackIndependently .tokenfactory (countingSudo true) "alice" "bob"
          (twoHooksContext .tokenfactory) (twoCoins .tokenfactory) ∧
      afterFailure .coinfactory ≠
        trackIndependently .coinfactory (countingSudo true) "alice" "bob"
          (twoHooksContext .coinfactory) (twoCoins .coinfactory) := by
  refine ⟨fun same => ?_, fun same => ?_⟩
  · exact absurd (congrArg (fun context => context.calls.length) same) (by decide +kernel)
  · exact absurd (congrArg (fun context => context.calls.length) same) (by decide +kernel)

end Neutron.TokenFactory
