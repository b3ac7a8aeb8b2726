import Neutron.FeeRefunder.Solvency
import Neutron.Transfer.Keeper

namespace Neutron.Transfer

open Library
open Neutron.FeeRefunder (PacketID Fee FeeInfo getFeePacketKey)

section Keys

theorem bytes_separator : bytes ";" = [separator] := by decide

theorem getFeePacketKey_injective {left right : PacketID}
    (leftPort : IsIdentifier left.portId) (leftChannel : IsIdentifier left.channelId)
    (rightPort : IsIdentifier right.portId) (rightChannel : IsIdentifier right.channelId)
    (leftFits : left.sequence < 2 ^ 64) (rightFits : right.sequence < 2 ^ 64)
    (same : getFeePacketKey left = getFeePacketKey right) : left = right := by
  have sameBody := (List.cons_eq_cons.mp same).2
  obtain ⟨sameText, sameSequence⟩ := List.append_inj' sameBody (by simp)
  have sequences : left.sequence = right.sequence :=
    bigEndian_injective leftFits rightFits sameSequence
  simp only [bytes_append, bytes_separator, List.append_assoc, List.cons_append,
    List.nil_append] at sameText
  have segments := congrArg (List.splitOn separator) sameText
  rw [List.splitOn_append_cons_self_of_not_mem leftChannel,
    List.splitOn_append_cons_self_of_not_mem rightChannel,
    List.splitOn_append_cons_self_of_not_mem leftPort,
    List.splitOn_append_cons_self_of_not_mem rightPort] at segments
  obtain ⟨channels, ports⟩ := List.cons_eq_cons.mp segments
  obtain ⟨samePort, _⟩ := List.cons_eq_cons.mp ports
  have channelIds := bytes_injective channels
  have portIds := bytes_injective samePort
  cases left
  cases right
  simp_all

end Keys

def Frame.SameChannel (left right : Frame) : Prop :=
  left.msg.sourcePort = right.msg.sourcePort ∧
    left.msg.sourceChannel = right.msg.sourceChannel

/-- A record belongs to a packet that was sent, or to a call under way. -/
structure Placed (world : World) (frames : List Frame) (key : Bytes) (feeInfo : FeeInfo) :
    Prop where
  isKey : key = getFeePacketKey feeInfo.packetId
  fits : feeInfo.packetId.sequence < 2 ^ 64
  channel : ∃ next,
    world.channels.next feeInfo.packetId.portId feeInfo.packetId.channelId = some next ∧
      (feeInfo.packetId.sequence < next ∨
        ∃ frame ∈ frames, frame.packetID = feeInfo.packetId)

structure Receipt.Right (receipt : Receipt) : Prop where
  returned : receipt.response.sequenceId = receipt.sent.sequence
  channel : receipt.response.channel = receipt.sent.channelId
  feeInfo : ∀ packetID ∈ receipt.feeInfo, packetID = receipt.sent

structure Bound (world : World) (frames : List Frame) : Prop where
  placed : ∀ {key feeInfo}, world.fees.feeInfos.get? key = some feeInfo →
    Placed world frames key feeInfo
  sequence : ∀ frame ∈ frames, world.channels.next frame.msg.sourcePort
    frame.msg.sourceChannel = some frame.sequence
  feeInfo : ∀ frame ∈ frames, ∀ packetID ∈ frame.feeInfo, packetID = frame.packetID
  separate : frames.Pairwise fun left right => ¬ left.SameChannel right
  receipts : ∀ receipt ∈ world.receipts, receipt.Right
  overwritten : world.overwritten = []

variable {fees : FeeRefunder.State}

section Steps

variable {world : World} {frames : List Frame}

theorem Bound.congr (bound : Bound world frames)
    (fewer : ∀ {key feeInfo}, fees.feeInfos.get? key = some feeInfo →
      world.fees.feeInfos.get? key = some feeInfo) :
    Bound { world with fees := fees } frames where
  placed found :=
    let placed := bound.placed (fewer found)
    ⟨placed.isKey, placed.fits, placed.channel⟩
  sequence := bound.sequence
  feeInfo := bound.feeInfo
  separate := bound.separate
  receipts := bound.receipts
  overwritten := bound.overwritten

theorem Bound.paid {frame : Frame} (bound : Bound world (frame :: frames))
    (due : Option Dex.Coins) : Bound world ({ frame with due := due } :: frames) := by
  refine ⟨?_, ?_, ?_, ?_, bound.receipts, bound.overwritten⟩
  · intro key feeInfo found
    have placed := bound.placed found
    obtain ⟨next, isNext, order⟩ := placed.channel
    refine ⟨placed.isKey, placed.fits, next, isNext, order.imp_right ?_⟩
    rintro ⟨owner, member, isOwner⟩
    rcases List.mem_cons.mp member with isTop | isBelow
    · exact ⟨_, List.mem_cons_self, isTop ▸ isOwner⟩
    · exact ⟨owner, List.mem_cons_of_mem _ isBelow, isOwner⟩
  · intro other member
    rcases List.mem_cons.mp member with isTop | isBelow
    · rw [isTop]
      exact bound.sequence frame List.mem_cons_self
    · exact bound.sequence other (List.mem_cons_of_mem _ isBelow)
  · intro other member
    rcases List.mem_cons.mp member with isTop | isBelow
    · rw [isTop]
      exact bound.feeInfo frame List.mem_cons_self
    · exact bound.feeInfo other (List.mem_cons_of_mem _ isBelow)
  · exact List.pairwise_cons.mpr (List.pairwise_cons.mp bound.separate)

theorem placed_mono {key : Bytes} {feeInfo : FeeInfo} (placed : Placed world frames key feeInfo)
    (frame : Frame) : Placed world (frame :: frames) key feeInfo := by
  obtain ⟨next, isNext, order⟩ := placed.channel
  refine ⟨placed.isKey, placed.fits, next, isNext, order.imp_right ?_⟩
  rintro ⟨owner, member, isOwner⟩
  exact ⟨owner, List.mem_cons_of_mem frame member, isOwner⟩

def Apart (frames : List Frame) (msg : MsgTransfer) : Prop :=
  ∀ frame ∈ frames, ¬ (frame.msg.sourcePort = msg.sourcePort ∧
    frame.msg.sourceChannel = msg.sourceChannel)

variable {msg : MsgTransfer} {sequence : Nat}

theorem Bound.getFeeInfo_next (bound : Bound world frames)
    (apart : Apart frames msg)
    (isNext : world.channels.next msg.sourcePort msg.sourceChannel = some sequence) :
    world.fees.getFeeInfo ⟨msg.sourceChannel, msg.sourcePort, sequence⟩ = none := by
  cases found : world.fees.getFeeInfo ⟨msg.sourceChannel, msg.sourcePort, sequence⟩ with
  | none => rfl
  | some feeInfo =>
      have placed := bound.placed found
      obtain ⟨next, isOwn, order⟩ := placed.channel
      have ids := world.channels.identifiers isNext
      have ownIds := world.channels.identifiers isOwn
      have same : (⟨msg.sourceChannel, msg.sourcePort, sequence⟩ : PacketID) =
          feeInfo.packetId :=
        getFeePacketKey_injective ids.1 ids.2 ownIds.1 ownIds.2
          (world.channels.fits isNext) placed.fits placed.isKey
      rw [← same] at isOwn order
      have sameNext : next = sequence := Option.some.inj (isOwn.symm.trans isNext)
      rcases order with below | ⟨frame, member, isFrame⟩
      · dsimp only at below
        omega
      · have channels := (PacketID.mk.injEq ..).mp isFrame
        exact absurd ⟨channels.2.1, channels.1⟩ (apart frame member)

theorem Bound.begin (bound : Bound world frames) {isContract : Bool}
    (apart : Apart frames msg) {frame : Frame} {after : World}
    (begun : beginTransfer world isContract msg = .ok (frame, after)) :
    Bound after (frame :: frames) := by
  unfold beginTransfer at begun
  split at begun
  · cases begun
  · split at begun
    · cases begun
    · rename_i sequence isNext
      have separate (next : Frame) (isMsg : next.msg = msg) :
          (next :: frames).Pairwise fun left right => ¬ left.SameChannel right := by
        refine List.pairwise_cons.mpr ⟨?_, bound.separate⟩
        intro other member same
        rw [Frame.SameChannel, isMsg] at same
        exact apart other member ⟨same.1.symm, same.2.symm⟩
      split at begun
      · dsimp only at begun
        split at begun
        · cases begun
        · rename_i fees total recorded
          cases begun
          obtain ⟨_, _, isFees, _⟩ := FeeRefunder.State.recordFees_eq_ok recorded
          dsimp only at isFees
          subst isFees
          have fresh := bound.getFeeInfo_next apart isNext
          refine ⟨?_, ?_, ?_, separate _ rfl, bound.receipts, ?_⟩
          · intro key feeInfo found
            rw [FeeRefunder.State.storeFeeInfo] at found
            rcases SortedStore.of_get?_set found with ⟨isKey, rfl⟩ | ⟨_, found⟩
            · exact ⟨isKey, world.channels.fits isNext, sequence, isNext,
                .inr ⟨_, List.mem_cons_self, rfl⟩⟩
            · have placed := placed_mono (bound.placed found)
                ⟨msg, sequence, some ⟨msg.sourceChannel, msg.sourcePort, sequence⟩, some total⟩
              exact ⟨placed.isKey, placed.fits, placed.channel⟩
          · intro other member
            rcases List.mem_cons.mp member with isTop | isBelow
            · rw [isTop]
              exact isNext
            · exact bound.sequence other isBelow
          · intro other member packetID isPacket
            rcases List.mem_cons.mp member with isTop | isBelow
            · rw [isTop] at isPacket ⊢
              exact (Option.some.inj isPacket).symm
            · exact bound.feeInfo other isBelow packetID isPacket
          · rw [fresh]
            exact bound.overwritten
      · cases begun
        refine ⟨fun found => placed_mono (bound.placed found) _, ?_, ?_, separate _ rfl,
          bound.receipts, bound.overwritten⟩
        · intro other member
          rcases List.mem_cons.mp member with isTop | isBelow
          · rw [isTop]
            exact isNext
          · exact bound.sequence other isBelow
        · intro other member packetID isPacket
          rcases List.mem_cons.mp member with isTop | isBelow
          · rw [isTop] at isPacket
            cases isPacket
          · exact bound.feeInfo other isBelow packetID isPacket

variable {portId channelId : String}

theorem Channels.next_advance_self (channels : Channels)
    (isNext : channels.next portId channelId = some sequence)
    (noWrap : sequence + 1 < 2 ^ 64) :
    (channels.advance portId channelId).next portId channelId = some (sequence + 1) := by
  rw [Channels.advance]
  dsimp only
  rw [if_pos ⟨rfl, rfl⟩, isNext, Option.map_some, Nat.mod_eq_of_lt noWrap]

theorem Channels.next_advance_of_ne (channels : Channels)
    {port channel : String}
    (different : ¬ (port = portId ∧ channel = channelId)) :
    (channels.advance portId channelId).next port channel = channels.next port channel := by
  rw [Channels.advance]
  dsimp only
  rw [if_neg different]

theorem Bound.send {frame : Frame} (bound : Bound world (frame :: frames))
    (noWrap : frame.sequence + 1 < 2 ^ 64) :
    Bound { world with
      channels := world.channels.advance frame.msg.sourcePort frame.msg.sourceChannel
      receipts := ⟨⟨frame.sequence, frame.msg.sourceChannel⟩, frame.feeInfo,
        ⟨frame.msg.sourceChannel, frame.msg.sourcePort, frame.sequence⟩⟩ ::
          world.receipts } frames := by
  have isNext := bound.sequence frame List.mem_cons_self
  obtain ⟨topApart, separate⟩ := List.pairwise_cons.mp bound.separate
  refine ⟨?_, ?_, ?_, separate, ?_, bound.overwritten⟩
  · intro key feeInfo found
    have placed := bound.placed found
    refine ⟨placed.isKey, placed.fits, ?_⟩
    obtain ⟨next, isOwn, order⟩ := placed.channel
    by_cases sent : feeInfo.packetId.portId = frame.msg.sourcePort ∧
        feeInfo.packetId.channelId = frame.msg.sourceChannel
    · -- on this channel every record is now of a packet that was sent
      rw [sent.1, sent.2] at isOwn ⊢
      have sameNext : next = frame.sequence := Option.some.inj (isOwn.symm.trans isNext)
      refine ⟨_, world.channels.next_advance_self isNext noWrap, .inl ?_⟩
      rcases order with below | ⟨owner, member, isOwner⟩
      · omega
      · rcases List.mem_cons.mp member with isTop | isBelow
        · rw [← isOwner, isTop]
          exact Nat.lt_succ_self _
        · exfalso
          apply topApart owner isBelow
          rw [← isOwner] at sent
          exact ⟨sent.1.symm, sent.2.symm⟩
    · refine ⟨next, (world.channels.next_advance_of_ne sent).trans isOwn,
        order.imp_right ?_⟩
      rintro ⟨owner, member, isOwner⟩
      rcases List.mem_cons.mp member with isTop | isBelow
      · rw [← isOwner, isTop] at sent
        exact absurd ⟨rfl, rfl⟩ sent
      · exact ⟨owner, isBelow, isOwner⟩
  · intro other member
    have different : ¬ (other.msg.sourcePort = frame.msg.sourcePort ∧
        other.msg.sourceChannel = frame.msg.sourceChannel) :=
      fun same => topApart other member ⟨same.1.symm, same.2.symm⟩
    exact (world.channels.next_advance_of_ne different).trans
      (bound.sequence other (List.mem_cons_of_mem frame member))
  · intro other member
    exact bound.feeInfo other (List.mem_cons_of_mem frame member)
  · intro receipt member
    rcases List.mem_cons.mp member with isNew | isOld
    · rw [isNew]
      exact ⟨rfl, rfl, bound.feeInfo frame List.mem_cons_self⟩
    · exact bound.receipts receipt isOld

end Steps

/-- A step that does not disturb the calls under way: no transfer begins on the channel
of one of them, and no send sequence wraps around. -/
def Undisturbed (state : State) : Step → Prop
  | .beginTransfer _ msg => Apart state.frames msg
  | .sendTransfer => ∀ frame ∈ state.frames.head?, frame.sequence + 1 < 2 ^ 64
  | _ => True

def Sound (state : State) : Prop := Nested.Keeps Bound state.world state.stack

section Runs

variable {state : State}

theorem Sound.finishLockFees (sound : Sound state) : Sound (finishLockFees state) := by
  have bound := Nested.Keeps.now sound
  unfold Transfer.finishLockFees
  split
  · exact sound
  · rename_i frame snapshot rest isStack
    rw [Nested.frames, isStack] at bound
    split
    · exact sound
    · split
      · rename_i total isDue fees paid
        obtain ⟨bank, _, isFees⟩ :=
          FeeRefunder.State.sendCoinsFromAccountToModule_eq_ok paid
        apply Nested.Keeps.advance sound
        rw [Nested.frames, isStack]
        refine (bound.paid none).congr ?_
        intro key feeInfo found
        rw [isFees] at found
        exact found
      · exact Nested.Keeps.revert sound

theorem Sound.sendTransfer (sound : Sound state)
    (noWrap : ∀ frame ∈ state.frames.head?, frame.sequence + 1 < 2 ^ 64) :
    Sound (sendTransfer state) := by
  have bound := Nested.Keeps.now sound
  unfold Transfer.sendTransfer
  split
  · exact sound
  · rename_i frame snapshot rest isStack
    rw [Nested.frames, isStack] at bound noWrap
    split
    · exact sound
    · split
      · exact Nested.Keeps.revert sound
      · rename_i sequence isNext
        have same : sequence = frame.sequence :=
          Option.some.inj (isNext.symm.trans (bound.sequence frame List.mem_cons_self))
        apply Nested.Keeps.leave sound
        rw [Nested.frames, isStack, same]
        exact bound.send (noWrap frame rfl)

theorem feeInfos_of_distribute {final : FeeRefunder.State}
    {result : FeeRefunder.State.PacketResult} {receiver : String} {packetID : PacketID}
    (distributed : FeeRefunder.State.distribute result fees receiver packetID = .ok final)
    {key : Bytes} {feeInfo : FeeInfo} (found : final.feeInfos.get? key = some feeInfo) :
    fees.feeInfos.get? key = some feeInfo := by
  unfold FeeRefunder.State.distribute at distributed
  split at distributed
  · cases distributed
    exact found
  · obtain ⟨paid, isPaid, distributed⟩ := of_bind distributed
    obtain ⟨returned, isReturned, distributed⟩ := of_bind distributed
    cases distributed
    rw [FeeRefunder.State.removeFeeInfo, SortedStore.get?_delete] at found
    split at found
    · cases found
    · rw [FeeRefunder.State.distributeFee_eq_ok isReturned,
        FeeRefunder.State.distributeFee_eq_ok isPaid] at found
      exact found

theorem Sound.step (sound : Sound state) {action : Step}
    (undisturbed : Undisturbed state action) : Sound (step state action) := by
  have bound := Nested.Keeps.now sound
  cases action with
  | beginTransfer isContract msg =>
      unfold Transfer.step
      dsimp only
      split
      · exact sound
      · rename_i frame world begun
        exact Nested.Keeps.enter sound (bound.begin undisturbed begun)
  | lockFees => exact sound.finishLockFees
  | sendTransfer => exact sound.sendTransfer undisturbed
  | fail => exact Nested.Keeps.revert sound
  | distribute result receiver packetID =>
      unfold Transfer.step
      dsimp only
      split
      · exact sound
      · rename_i fees distributed
        exact Nested.Keeps.update sound (bound.congr (feeInfos_of_distribute distributed))
  | setParams params => exact Nested.Keeps.update sound (bound.congr id)
  | setBank bank => exact Nested.Keeps.update sound (bound.congr id)

theorem sound_initial (params : FeeRefunder.Params) (bank : Dex.Bank) (channels : Channels) :
    Sound (initial params bank channels) where
  placed found := nomatch found
  sequence _ member := nomatch member
  feeInfo _ member := nomatch member
  separate := List.Pairwise.nil
  receipts _ member := nomatch member
  overwritten := rfl

end Runs

/-- In every run in which no transfer begins on the channel of a transfer under way, every
call returns the sequence of the packet it sent, its fee info is that packet's, and no
fee info is overwritten. -/
theorem packetFees_bound (params : FeeRefunder.Params) (bank : Dex.Bank)
    (channels : Channels) (steps : List Step)
    (undisturbed : Machine.Allowed step Undisturbed (initial params bank channels) steps) :
    let final := (Machine.run step (initial params bank channels) steps).world
    (∀ receipt ∈ final.receipts, receipt.response.sequenceId = receipt.sent.sequence ∧
      receipt.response.channel = receipt.sent.channelId ∧
      ∀ packetID ∈ receipt.feeInfo, packetID = receipt.sent) ∧
    final.overwritten = [] := by
  intro final
  have sound : Sound (Machine.run step (initial params bank channels) steps) :=
    @Machine.Allowed.invariant _ _ step Undisturbed Sound
      (fun _ _ kept allowed => kept.step allowed) _ _ (sound_initial params bank channels)
      undisturbed
  have bound := Nested.Keeps.now sound
  refine ⟨?_, bound.overwritten⟩
  intro receipt member
  have right := bound.receipts receipt member
  exact ⟨right.returned, right.channel, right.feeInfo⟩

section Examples

open FeeRefunder (unitFee unitParams)

def oneChannel : Channels where
  next portId channelId :=
    if portId = "transfer" ∧ channelId = "channel-0" then some 5 else none
  identifiers := by
    intro portId channelId sequence found
    split at found
    · rename_i same
      rw [same.1, same.2]
      exact ⟨by decide, by decide⟩
    · cases found
  fits := by
    intro portId channelId sequence found
    split at found
    · cases found
      decide
    · cases found

def richBank : Dex.Bank where
  balance _ denom := if denom = "untrn" then 10 else 0
  supply _ := 100
  blockedAddr address := address = Dex.moduleName
  moduleBlocked := Dex.moduleName_blocked

def transferOf (sender : String) : MsgTransfer :=
  ⟨"transfer", "channel-0", sender, unitFee, true⟩

/-- While the fee of `first` moves, a hook lets `second` transfer on the same channel. -/
def nestedTransfers : List Step :=
  [.beginTransfer true (transferOf "first"),
   .beginTransfer true (transferOf "second"), .lockFees, .sendTransfer,
   .lockFees, .sendTransfer]

theorem packetFees_not_bound_nested :
    (Machine.run step (initial unitParams richBank oneChannel) nestedTransfers).world.receipts =
        [⟨⟨5, "channel-0"⟩, some ⟨"channel-0", "transfer", 5⟩, ⟨"channel-0", "transfer", 6⟩⟩,
         ⟨⟨5, "channel-0"⟩, some ⟨"channel-0", "transfer", 5⟩, ⟨"channel-0", "transfer", 5⟩⟩] ∧
      (Machine.run step (initial unitParams richBank oneChannel)
        nestedTransfers).world.overwritten = [⟨"channel-0", "transfer", 5⟩] := by
  decide +kernel

theorem packetFees_bound_single :
    let steps := [Step.beginTransfer true (transferOf "first"), .lockFees, .sendTransfer]
    Machine.Allowed step Undisturbed (initial unitParams richBank oneChannel) steps ∧
      (Machine.run step (initial unitParams richBank oneChannel) steps).world.overwritten =
        [] := by
  intro steps
  have undisturbed :
      Machine.Allowed step Undisturbed (initial unitParams richBank oneChannel) steps := by
    refine ⟨?_, trivial, ?_, trivial⟩
    · intro frame member
      cases member
    · exact (by decide +kernel : ∀ frame ∈ (step (step (initial unitParams richBank oneChannel)
        (.beginTransfer true (transferOf "first"))) .lockFees).frames.head?,
          frame.sequence + 1 < 2 ^ 64)
  exact ⟨undisturbed, (packetFees_bound unitParams richBank oneChannel steps undisturbed).2⟩

end Examples

end Neutron.Transfer
