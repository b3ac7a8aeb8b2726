import Neutron.Dex.Keys
import Neutron.Library.SortedStore

namespace Neutron.TokenFactory

open Library

universe u v

/-! Hooks that listen to the sends of a factory's denoms (`keeper/before_send.go` of
`x/tokenfactory` and `x/coinfactory`, which differ in the form of their denoms only). -/

inductive Factory where
  | tokenfactory
  | coinfactory
deriving DecidableEq

namespace Factory

def moduleDenomPrefix : Factory → String
  | tokenfactory => "factory"
  | coinfactory => "coinfactory"

def separator : Factory → Char
  | tokenfactory => '/'
  | coinfactory => '.'

end Factory

structure AddressCodec (Address : Type u) where
  accAddressFromBech32 : String → Option Address
  toBech32 : Address → String
  nonempty : accAddressFromBech32 "" = none

variable {Address : Type u} {State : Type v}

def deconstructDenom (codec : AddressCodec Address) (factory : Factory) (denom : String) :
    Option (String × String) :=
  if Dex.ValidDenom denom then
    match denom.toList.splitOn factory.separator with
    | denomPrefix :: creator :: first :: others =>
        if String.ofList denomPrefix = factory.moduleDenomPrefix then
          (codec.accAddressFromBech32 (String.ofList creator)).map fun address =>
            (codec.toBech32 address,
              String.ofList ([factory.separator].intercalate (first :: others)))
        else none
    | _ => none
  else none

structure WhitelistedHook where
  codeID : Nat
  denomCreator : String
deriving DecidableEq

/-- The hooks of denoms.  Only addresses that can be read are stored. -/
structure HookStore (codec : AddressCodec Address) where
  hooks : SortedStore String String
  readable : ∀ denom contractAddr, hooks.get? denom = some contractAddr →
    (codec.accAddressFromBech32 contractAddr).isSome

/-- What a send can read and a contract can write: the hooks of the factory, its whitelist,
the code of each contract, and all of the rest. -/
structure Chain (codec : AddressCodec Address) (State : Type v) where
  beforeSendHooks : HookStore codec
  whitelistedHooks : List WhitelistedHook
  contractCodeID : Address → Option Nat
  state : State

section Keeper

variable {codec : AddressCodec Address}

namespace HookStore

def setBeforeSendHook (factory : Factory) (store : HookStore codec) (denom contractAddr : String) :
    Option (HookStore codec) :=
  if (deconstructDenom codec factory denom).isNone then
    none
  else if contractAddr = "" then
    some ⟨store.hooks.delete denom, by
      intro other address stored
      exact store.readable other address (SortedStore.of_get?_delete stored)⟩
  else if isReadable : (codec.accAddressFromBech32 contractAddr).isSome then
    some ⟨store.hooks.set denom contractAddr, by
      intro other address stored
      rw [SortedStore.get?_set] at stored
      split at stored
      · exact Option.some.inj stored ▸ isReadable
      · exact store.readable other address stored⟩
  else
    none

def getBeforeSendHook (store : HookStore codec) (denom : String) : String :=
  (store.hooks.get? denom).getD ""

theorem readable_getBeforeSendHook (store : HookStore codec) {denom : String}
    (isHooked : store.getBeforeSendHook denom ≠ "") :
    ∃ address, codec.accAddressFromBech32 (store.getBeforeSendHook denom) = some address := by
  unfold getBeforeSendHook at isHooked ⊢
  cases isStored : store.hooks.get? denom with
  | none => exact absurd (by rw [isStored]; rfl) isHooked
  | some contractAddr => exact Option.isSome_iff_exists.mp (store.readable denom _ isStored)

end HookStore

def Chain.assertIsHookWhitelisted (factory : Factory) (chain : Chain codec State)
    (denom : String) (contractAddress : Address) : Bool :=
  match chain.contractCodeID contractAddress with
  | none => false
  | some codeID =>
      match deconstructDenom codec factory denom with
      | none => false
      | some (denomCreator, _) =>
          chain.whitelistedHooks.any fun hook =>
            hook.codeID == codeID && hook.denomCreator == denomCreator

structure Coin where
  denom : String
  amount : Int
deriving DecidableEq

inductive SudoMsg where
  | blockBeforeSend (sender receiver : String) (amount : Coin)
  | trackBeforeSend (sender receiver : String) (amount : Coin)
deriving DecidableEq

inductive SudoEnding where
  | returned
  | failed
  | panicked
deriving DecidableEq

/-- A call of a contract: how it ends, what it has made of the chain, and its gas. -/
structure SudoRun (codec : AddressCodec Address) (State : Type v) where
  ending : SudoEnding
  chain : Chain codec State
  gasConsumed : Nat

/-- `Sudo` of the wasm keeper, with the gas that the meter has left. -/
abbrev Sudo (codec : AddressCodec Address) (State : Type v) :=
  Chain codec State → Nat → Address → SudoMsg → SudoRun codec State

/-- A meter of the SDK.  One without a limit has the greatest. -/
structure GasMeter where
  limit : Nat
  consumed : Nat
  bounded : limit < 2 ^ 64
deriving DecidableEq

namespace GasMeter

def consumeGas (meter : GasMeter) (amount : Nat) : GasMeter × Bool :=
  ({ meter with consumed := min (meter.consumed + amount) (2 ^ 64 - 1) },
    decide (meter.limit < meter.consumed + amount))

theorem consumeGas_of_le {meter : GasMeter} {amount : Nat}
    (enough : meter.consumed + amount ≤ meter.limit) :
    meter.consumeGas amount = ({ meter with consumed := meter.consumed + amount }, false) := by
  have bounded := meter.bounded
  rw [consumeGas, Nat.min_eq_left (by omega), decide_eq_false (by omega)]

end GasMeter

structure Call (Address : Type u) where
  contract : Address
  msg : SudoMsg

/-- The context of a send, with the calls made so far. -/
structure Context (codec : AddressCodec Address) (State : Type v) where
  chain : Chain codec State
  gasMeter : GasMeter
  calls : List (Call Address)

inductive HookError where
  | invalidAddress
  | hookFailed (denom : String)
  | trackBeforeSendOutOfGas
deriving DecidableEq

def trackBeforeSendGasLimit : Nat := 500000

/-- The error is returned with the context as it is then: the caller decides whether what
has been written so far is kept. -/
def callBeforeSendListener (factory : Factory) (wasmSudo : Sudo codec State)
    (sender receiver : Address) (blockBeforeSend : Bool) :
    Context codec State → List Coin → Context codec State × Option HookError
  | context, [] => (context, none)
  | context, coin :: rest =>
      let contractAddr := context.chain.beforeSendHooks.getBeforeSendHook coin.denom
      if contractAddr = "" then
        callBeforeSendListener factory wasmSudo sender receiver blockBeforeSend context rest
      else
        match codec.accAddressFromBech32 contractAddr with
        | none => (context, some .invalidAddress)
        | some cwAddr =>
            if context.chain.assertIsHookWhitelisted factory coin.denom cwAddr then
              if blockBeforeSend then
                let msg := SudoMsg.blockBeforeSend (codec.toBech32 sender)
                  (codec.toBech32 receiver) coin
                let run := wasmSudo context.chain
                  (context.gasMeter.limit - context.gasMeter.consumed) cwAddr msg
                let (meter, panics) := context.gasMeter.consumeGas run.gasConsumed
                let after : Context codec State :=
                  ⟨run.chain, meter, context.calls ++ [⟨cwAddr, msg⟩]⟩
                if panics then
                  (after, some .trackBeforeSendOutOfGas)
                else
                  match run.ending with
                  | .panicked => (after, some .trackBeforeSendOutOfGas)
                  | .failed => (after, some (.hookFailed coin.denom))
                  | .returned =>
                      callBeforeSendListener factory wasmSudo sender receiver blockBeforeSend
                        after rest
              else
                let msg := SudoMsg.trackBeforeSend (codec.toBech32 sender)
                  (codec.toBech32 receiver) coin
                let run := wasmSudo context.chain trackBeforeSendGasLimit cwAddr msg
                let after : Context codec State :=
                  ⟨run.chain, context.gasMeter, context.calls ++ [⟨cwAddr, msg⟩]⟩
                match run.ending with
                | .panicked => (after, some .trackBeforeSendOutOfGas)
                | .failed => (after, some (.hookFailed coin.denom))
                | .returned =>
                    let (meter, panics) := context.gasMeter.consumeGas run.gasConsumed
                    if panics then
                      ({ after with gasMeter := meter }, some .trackBeforeSendOutOfGas)
                    else
                      callBeforeSendListener factory wasmSudo sender receiver blockBeforeSend
                        { after with gasMeter := meter } rest
            else
              callBeforeSendListener factory wasmSudo sender receiver blockBeforeSend
                context rest

def trackBeforeSend (factory : Factory) (wasmSudo : Sudo codec State)
    (sender receiver : Address) (context : Context codec State) (amount : List Coin) :
    Context codec State :=
  (callBeforeSendListener factory wasmSudo sender receiver false context amount).1

def blockBeforeSend (factory : Factory) (wasmSudo : Sudo codec State)
    (sender receiver : Address) (context : Context codec State) (amount : List Coin) :
    Context codec State × Option HookError :=
  callBeforeSendListener factory wasmSudo sender receiver true context amount

end Keeper

end Neutron.TokenFactory
