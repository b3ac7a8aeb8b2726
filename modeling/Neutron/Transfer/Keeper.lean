import Neutron.Library.Nested
import Neutron.FeeRefunder.Keeper

namespace Neutron.Transfer

open Library
open Neutron.FeeRefunder (PacketID Fee)

/-! Transfers that pay for their acknowledgements (`x/transfer/keeper/keeper.go`).  The
fee and the coins move through the bank, which runs hooks before: between the parts of a
call other calls may run from begin to end. -/

/-- The separator of `GetFeePacketKey`; it is not allowed in identifiers. -/
def separator : Byte := 59

def IsIdentifier (text : String) : Prop := separator ∉ bytes text

instance (text : String) : Decidable (IsIdentifier text) :=
  inferInstanceAs (Decidable (_ ∉ _))

/-- The next send sequence, a `uint64`, of every channel that exists. -/
structure Channels where
  next : String → String → Option Nat
  identifiers : ∀ {portId channelId sequence}, next portId channelId = some sequence →
    IsIdentifier portId ∧ IsIdentifier channelId
  fits : ∀ {portId channelId sequence}, next portId channelId = some sequence →
    sequence < 2 ^ 64

def Channels.advance (channels : Channels) (portId channelId : String) : Channels where
  next port channel :=
    if port = portId ∧ channel = channelId then
      (channels.next portId channelId).map fun sequence => (sequence + 1) % 2 ^ 64
    else
      channels.next port channel
  identifiers := by
    intro port channel other found
    split at found
    · rename_i same
      obtain ⟨old, isOld, _⟩ := Option.map_eq_some_iff.mp found
      rw [same.1, same.2]
      exact channels.identifiers isOld
    · exact channels.identifiers found
  fits := by
    intro port channel other found
    split at found
    · obtain ⟨old, _, isOther⟩ := Option.map_eq_some_iff.mp found
      rw [← isOther]
      exact Nat.mod_lt _ (by decide)
    · exact channels.fits found

structure MsgTransfer where
  sourcePort : String
  sourceChannel : String
  sender : String
  fee : Fee
  /-- Whether `ValidateBasic` of the wrapped message accepts it. -/
  basic : Bool

structure MsgTransferResponse where
  sequenceId : Nat
  channel : String
  deriving DecidableEq

/-- A call that succeeded: what it returned, the packet id of the fee info it stored, and
the packet it sent. -/
structure Receipt where
  response : MsgTransferResponse
  feeInfo : Option PacketID
  sent : PacketID
  deriving DecidableEq

/-- The committed state; `receipts` and `overwritten` record what happened. -/
structure World where
  fees : FeeRefunder.State
  channels : Channels
  receipts : List Receipt
  overwritten : List PacketID

/-- A call between its parts; `due` are the fee coins that have not moved yet. -/
structure Frame where
  msg : MsgTransfer
  sequence : Nat
  feeInfo : Option PacketID
  due : Option Dex.Coins

def Frame.packetID (frame : Frame) : PacketID :=
  ⟨frame.msg.sourceChannel, frame.msg.sourcePort, frame.sequence⟩

inductive TransferError where
  | validation
  | sequenceSendNotFound (portId channelId : String)
  | lockFees (cause : FeeRefunder.Failure)

/-- `Transfer` up to the first hand-over to the bank. -/
def beginTransfer (world : World) (isContract : Bool) (msg : MsgTransfer) :
    Except TransferError (Frame × World) :=
  if (isContract ∧ ¬ msg.fee.validate.isOk) ∨ ¬ msg.basic then
    .error .validation
  else
    match world.channels.next msg.sourcePort msg.sourceChannel with
    | none => .error (.sequenceSendNotFound msg.sourcePort msg.sourceChannel)
    | some sequence =>
        if isContract ∧ world.fees.params.feeEnabled then
          let packetID : PacketID := ⟨msg.sourceChannel, msg.sourcePort, sequence⟩
          match world.fees.recordFees true msg.sender packetID msg.fee with
          | .error cause => .error (.lockFees cause)
          | .ok (fees, total) =>
              .ok (⟨msg, sequence, some packetID, some total⟩,
                { world with
                  fees := fees
                  overwritten :=
                    (world.fees.getFeeInfo packetID).toList.map FeeRefunder.FeeInfo.packetId ++
                      world.overwritten })
        else
          .ok (⟨msg, sequence, none, none⟩, world)

abbrev State := Nested World Frame

/-- What can happen next: a part of a call, or an effect of a hook or of another module. -/
inductive Step where
  | beginTransfer (isContract : Bool) (msg : MsgTransfer)
  | lockFees
  | sendTransfer
  | fail
  | distribute (result : FeeRefunder.State.PacketResult) (receiver : String)
      (packetID : PacketID)
  | setParams (params : FeeRefunder.Params)
  | setBank (bank : Dex.Bank)

/-- The fee coins move, then `Transfer` of the wrapped keeper begins. -/
def finishLockFees (state : State) : State :=
  match state.stack with
  | [] => state
  | (frame, _) :: _ =>
      match frame.due with
      | none => state
      | some total =>
          match state.world.fees.sendCoinsFromAccountToModule frame.msg.sender total with
          | .ok fees =>
              state.advance { frame with due := none } { state.world with fees := fees }
          | .error _ => state.revert

/-- The coins have moved: the packet gets the channel's next send sequence, and the call
returns the sequence it has read before. -/
def sendTransfer (state : State) : State :=
  match state.stack with
  | [] => state
  | (frame, _) :: _ =>
      match frame.due with
      | some _ => state
      | none =>
          match state.world.channels.next frame.msg.sourcePort frame.msg.sourceChannel with
          | none => state.revert
          | some sequence =>
              state.leave { state.world with
                channels := state.world.channels.advance frame.msg.sourcePort
                  frame.msg.sourceChannel
                receipts := ⟨⟨frame.sequence, frame.msg.sourceChannel⟩, frame.feeInfo,
                  ⟨frame.msg.sourceChannel, frame.msg.sourcePort, sequence⟩⟩ ::
                    state.world.receipts }

def step (state : State) : Step → State
  | .beginTransfer isContract msg =>
      match beginTransfer state.world isContract msg with
      | .error _ => state
      | .ok (frame, world) => state.enter frame world
  | .lockFees => finishLockFees state
  | .sendTransfer => sendTransfer state
  | .fail => state.revert
  | .distribute result receiver packetID =>
      match FeeRefunder.State.distribute result state.world.fees receiver packetID with
      | .error _ => state
      | .ok fees => state.update { state.world with fees := fees }
  | .setParams params =>
      state.update { state.world with fees := { state.world.fees with params := params } }
  | .setBank bank =>
      state.update { state.world with fees := { state.world.fees with bank := bank } }

def initial (params : FeeRefunder.Params) (bank : Dex.Bank) (channels : Channels) : State :=
  Nested.idle ⟨FeeRefunder.State.initial params bank, channels, [], []⟩

end Neutron.Transfer
