import Neutron.Library.Bytes
import Neutron.Dex.Bank

namespace Neutron.FeeRefunder

open Library
open Neutron.Dex (Coin Coins Bank ValidDenom)

/-! Fees for acknowledgements and timeouts of packets
(`x/feerefunder/keeper/keeper.go`, `x/feerefunder/types/fee.go`). -/

def moduleName : String := "feerefunder"

structure PacketID where
  channelId : String
  portId : String
  sequence : Nat
  deriving DecidableEq

def feeKey : Byte := 1

/-- `GetFeePacketKey`; the sequence is a `uint64`. -/
def getFeePacketKey (packet : PacketID) : Bytes :=
  feeKey :: bytes (packet.channelId ++ ";" ++ packet.portId ++ ";") ++
    bigEndian 8 packet.sequence

/-- `sdk.Coins` of a message; nothing is known of them before they are checked. -/
abbrev CoinList := List Coin

namespace CoinList

def entries (coins : CoinList) : List (String × Int) :=
  coins.map fun coin => (coin.denom, coin.amount)

def IsValid (coins : CoinList) : Prop :=
  (∀ coin ∈ coins, ValidDenom coin.denom ∧ 0 < coin.amount) ∧
    coins.Pairwise fun left right => left.denom < right.denom

def IsZero (coins : CoinList) : Prop := ∀ coin ∈ coins, coin.amount = 0

def IsSorted (coins : CoinList) : Prop :=
  coins.Pairwise fun left right => left.denom ≤ right.denom

instance (coins : CoinList) : Decidable coins.IsValid :=
  inferInstanceAs (Decidable (_ ∧ _))

instance (coins : CoinList) : Decidable coins.IsZero :=
  inferInstanceAs (Decidable (∀ coin ∈ coins, _))

instance (coins : CoinList) : Decidable coins.IsSorted :=
  inferInstanceAs (Decidable (coins.Pairwise _))

def amountOf (coins : CoinList) (denom : String) : Int :=
  ((coins.find? fun coin => coin.denom = denom).map Coin.amount).getD 0

/-- `IsAnyGTE`: some coin reaches a nonzero amount of the other coins. -/
def isAnyGTE (coins other : CoinList) : Bool :=
  coins.any fun coin =>
    decide (other.amountOf coin.denom ≤ coin.amount ∧ other.amountOf coin.denom ≠ 0)

end CoinList

def hasNotAllowedCoins (fees params : CoinList) : Bool :=
  fees.any fun fee => decide (params.amountOf fee.denom = 0)

structure Fee where
  recvFee : CoinList
  ackFee : CoinList
  timeoutFee : CoinList
  deriving DecidableEq

structure Params where
  minFee : Fee
  feeEnabled : Bool

structure FeeInfo where
  payer : String
  packetId : PacketID
  fee : Fee
  deriving DecidableEq

inductive FeeError where
  | invalidFees
  | recvFeeNotZero
  | zeroFee
  | insufficientTimeoutFee
  | insufficientAckFee
  | timeoutFeeNotAllowed
  | ackFeeNotAllowed
  | channelNotFound (channelId portId : String)
  | bank (cause : Dex.Failure)

inductive Failure where
  | error (cause : FeeError)
  | coinsNotSorted
  | distribution (cause : Dex.Failure)

namespace Fee

/-- `Fee.Total`; adding coins that are not sorted panics. -/
def total (fee : Fee) : Except Failure Coins :=
  if fee.recvFee.IsSorted ∧ fee.ackFee.IsSorted ∧ fee.timeoutFee.IsSorted then
    .ok (Tally.ofList (fee.recvFee.entries ++ fee.ackFee.entries ++ fee.timeoutFee.entries))
  else
    .error .coinsNotSorted

def validate (fee : Fee) : Except Failure Unit :=
  if ¬ (fee.ackFee.IsValid ∧ fee.timeoutFee.IsValid) then
    .error (.error .invalidFees)
  else if ¬ fee.recvFee.IsZero then
    .error (.error .recvFeeNotZero)
  else
    .ok ()

end Fee

structure State where
  params : Params
  feeInfos : SortedStore Bytes FeeInfo
  bank : Bank

namespace State

def getFeeInfo (state : State) (packetID : PacketID) : Option FeeInfo :=
  state.feeInfos.get? (getFeePacketKey packetID)

def storeFeeInfo (state : State) (feeInfo : FeeInfo) : State :=
  { state with feeInfos := state.feeInfos.set (getFeePacketKey feeInfo.packetId) feeInfo }

def removeFeeInfo (state : State) (packetID : PacketID) : State :=
  { state with feeInfos := state.feeInfos.delete (getFeePacketKey packetID) }

def checkFees (state : State) (fees : Fee) : Except Failure Unit := do
  let params := state.params
  fees.validate
  if fees.ackFee.IsZero ∨ fees.timeoutFee.IsZero then
    .error (.error .zeroFee)
  else if ¬ fees.timeoutFee.isAnyGTE params.minFee.timeoutFee then
    .error (.error .insufficientTimeoutFee)
  else if ¬ fees.ackFee.isAnyGTE params.minFee.ackFee then
    .error (.error .insufficientAckFee)
  else if hasNotAllowedCoins fees.timeoutFee params.minFee.timeoutFee then
    .error (.error .timeoutFeeNotAllowed)
  else if hasNotAllowedCoins fees.ackFee params.minFee.ackFee then
    .error (.error .ackFeeNotAllowed)
  else
    .ok ()

/-- `LockFees` up to the transfer: the coins that the payer has to send. -/
def recordFees (state : State) (channelFound : Bool) (payer : String)
    (packetID : PacketID) (fee : Fee) : Except Failure (State × Coins) := do
  state.checkFees fee
  if ¬ channelFound then
    .error (.error (.channelNotFound packetID.channelId packetID.portId))
  else
    let stored := state.storeFeeInfo ⟨payer, packetID, fee⟩
    let total ← fee.total
    .ok (stored, total)

def sendCoinsFromAccountToModule (state : State) (payer : String) (coins : Coins) :
    Except Failure State :=
  match state.bank.sendCoins payer moduleName coins with
  | .ok bank => .ok { state with bank := bank }
  | .error cause => .error (.error (.bank cause))

/-- `LockFees`; `channelFound` is what the channel keeper answers. -/
def lockFees (state : State) (channelFound : Bool) (payer : String)
    (packetID : PacketID) (fee : Fee) : Except Failure State :=
  if ¬ state.params.feeEnabled then
    .ok state
  else do
    let (stored, total) ← state.recordFees channelFound payer packetID fee
    stored.sendCoinsFromAccountToModule payer total

/-- `distributeFee`; its errors make the callers panic. -/
def distributeFee (state : State) (receiver : String) (fee : CoinList) :
    Except Failure State :=
  match state.bank.sendCoins moduleName receiver (Tally.ofList fee.entries) with
  | .ok bank => .ok { state with bank := bank }
  | .error cause => .error (.distribution cause)

/-- Which of the two fees the relayer earns; the other one returns to the payer. -/
inductive PacketResult where
  | acknowledged
  | timedOut
  deriving DecidableEq

def PacketResult.earned : PacketResult → Fee → CoinList
  | .acknowledged, fee => fee.ackFee
  | .timedOut, fee => fee.timeoutFee

def PacketResult.returned : PacketResult → Fee → CoinList
  | .acknowledged, fee => fee.timeoutFee
  | .timedOut, fee => fee.ackFee

def distribute (result : PacketResult) (state : State) (receiver : String)
    (packetID : PacketID) : Except Failure State :=
  match state.getFeeInfo packetID with
  | none => .ok state
  | some feeInfo => do
      let paid ← state.distributeFee receiver (result.earned feeInfo.fee)
      let returned ← paid.distributeFee feeInfo.payer (result.returned feeInfo.fee)
      .ok (returned.removeFeeInfo packetID)

def distributeAcknowledgementFee : State → String → PacketID → Except Failure State :=
  distribute .acknowledged

def distributeTimeoutFee : State → String → PacketID → Except Failure State :=
  distribute .timedOut

def initial (params : Params) (bank : Bank) : State := ⟨params, SortedStore.empty, bank⟩

end State

inductive Call where
  | lockFees (channelFound : Bool) (payer : String) (packetID : PacketID) (fee : Fee)
  | setParams (params : Params)
  | distributeAcknowledgementFee (receiver : String) (packetID : PacketID)
  | distributeTimeoutFee (receiver : String) (packetID : PacketID)

def Call.run (state : State) : Call → Except Failure State
  | .lockFees channelFound payer packetID fee =>
      state.lockFees channelFound payer packetID fee
  | .setParams params => .ok { state with params := params }
  | .distributeAcknowledgementFee receiver packetID =>
      state.distributeAcknowledgementFee receiver packetID
  | .distributeTimeoutFee receiver packetID =>
      state.distributeTimeoutFee receiver packetID

def step (state : State) (call : Call) : State :=
  match call.run state with
  | .ok final => final
  | .error _ => state

end Neutron.FeeRefunder
