import Neutron.Library.Machine
import Neutron.FeeRefunder.Keeper

namespace Neutron.FeeRefunder

open Library
open Neutron.Dex (Coin Coins Bank ValidDenom)

section Coins

variable {coins : CoinList}

theorem listed_entries_nonneg (nonneg : ∀ coin ∈ coins, 0 ≤ coin.amount)
    (denom : String) : 0 ≤ Tally.listed denom coins.entries := by
  induction coins with
  | nil => exact le_refl _
  | cons coin rest ih =>
      have restNonneg := ih fun other member => nonneg other (by simp [member])
      have headNonneg := nonneg coin (by simp)
      rw [CoinList.entries, List.map_cons, Tally.listed_cons]
      rw [CoinList.entries] at restNonneg
      split
      · omega
      · omega

theorem CoinList.IsValid.listed_nonneg (valid : coins.IsValid)
    (denom : String) : 0 ≤ Tally.listed denom coins.entries :=
  listed_entries_nonneg (fun coin member => (valid.1 coin member).2.le) denom

theorem CoinList.IsZero.listed_eq_zero (zero : coins.IsZero)
    (denom : String) : Tally.listed denom coins.entries = 0 := by
  induction coins with
  | nil => rfl
  | cons coin rest ih =>
      have restZero := ih fun other member => zero other (by simp [member])
      have headZero := zero coin (by simp)
      rw [CoinList.entries, List.map_cons, Tally.listed_cons, headZero]
      rw [CoinList.entries] at restZero
      rw [restZero, ite_self, add_zero]

theorem CoinList.IsValid.tally (valid : coins.IsValid) :
    Dex.Coins.IsValid (Tally.ofList coins.entries) := by
  intro entry member
  have found := ((Tally.ofList coins.entries).mem_entries_iff entry.1 entry.2).mp member
  have amount : entry.2 = Tally.listed entry.1 coins.entries := by
    rw [← Tally.amountOf_ofList, Tally.amountOf_of_get? found]
  have nonzero : entry.2 ≠ 0 := Tally.ofList_get?_ne_zero found
  have nonneg := valid.listed_nonneg entry.1
  constructor
  · by_contra invalid
    apply nonzero
    rw [amount]
    apply Tally.listed_eq_zero
    intro other otherMember same
    obtain ⟨coin, coinMember, isCoin⟩ := List.mem_map.mp otherMember
    apply invalid
    rw [← same, ← isCoin]
    exact (valid.1 coin coinMember).1
  · omega

theorem exists_sendCoins {bank : Bank} {sender : String} {coins : Coins}
    (valid : coins.IsValid)
    (covered : ∀ denom, Tally.amountOf coins denom ≤ bank.balance sender denom)
    (recipient : String) : ∃ final, bank.sendCoins sender recipient coins = .ok final := by
  have funded : ∀ entry ∈ coins.entries, entry.2 ≤ (bank.balance sender entry.1 : Int) := by
    intro entry member
    have found := (coins.mem_entries_iff entry.1 entry.2).mp member
    have enough := covered entry.1
    rw [Tally.amountOf_of_get? found] at enough
    exact enough
  unfold Bank.sendCoins
  rw [if_neg (not_not.mpr valid), if_pos funded]
  exact ⟨_, rfl⟩

end Coins

namespace Fee

/-- The amount of a denom in `Total`. -/
def amount (fee : Fee) (denom : String) : Int :=
  Tally.listed denom (fee.recvFee.entries ++ fee.ackFee.entries ++ fee.timeoutFee.entries)

structure Accepted (fee : Fee) : Prop where
  ackFee : fee.ackFee.IsValid
  timeoutFee : fee.timeoutFee.IsValid
  recvFee : fee.recvFee.IsZero

theorem total_eq_ok {fee : Fee} {coins : Coins} (ok : fee.total = .ok coins)
    (denom : String) : Tally.amountOf coins denom = fee.amount denom := by
  unfold total at ok
  split at ok
  · cases ok
    exact Tally.amountOf_ofList _ _
  · cases ok

theorem validate_eq_ok {fee : Fee} {result : Unit} (ok : fee.validate = .ok result) :
    fee.Accepted := by
  unfold validate at ok
  split at ok
  · cases ok
  · rename_i valid
    split at ok
    · cases ok
    · rename_i zero
      exact ⟨(not_not.mp valid).1, (not_not.mp valid).2, not_not.mp zero⟩

variable {fee : Fee} (accepted : fee.Accepted)
include accepted

theorem Accepted.amount_eq (result : State.PacketResult) (denom : String) :
    fee.amount denom = Tally.listed denom (result.earned fee).entries +
      Tally.listed denom (result.returned fee).entries := by
  have noRecv := accepted.recvFee.listed_eq_zero denom
  cases result with
  | acknowledged =>
      simp [amount, noRecv, State.PacketResult.earned, State.PacketResult.returned]
  | timedOut =>
      simp [amount, noRecv, State.PacketResult.earned, State.PacketResult.returned]
      omega

theorem Accepted.earned (result : State.PacketResult) : (result.earned fee).IsValid := by
  cases result with
  | acknowledged => exact accepted.ackFee
  | timedOut => exact accepted.timeoutFee

theorem Accepted.returned (result : State.PacketResult) : (result.returned fee).IsValid := by
  cases result with
  | acknowledged => exact accepted.timeoutFee
  | timedOut => exact accepted.ackFee

theorem Accepted.amount_nonneg (denom : String) : 0 ≤ fee.amount denom := by
  have earned := (accepted.earned .acknowledged).listed_nonneg denom
  have returned := (accepted.returned .acknowledged).listed_nonneg denom
  rw [accepted.amount_eq .acknowledged]
  omega

end Fee

namespace State

/-- The sum of `Total` over all stored fee infos. -/
def locked (state : State) (denom : String) : Int :=
  state.feeInfos.total fun _ feeInfo => feeInfo.fee.amount denom

structure Solvent (state : State) : Prop where
  accepted : ∀ {key feeInfo}, state.feeInfos.get? key = some feeInfo → feeInfo.fee.Accepted
  covered : ∀ denom, state.locked denom ≤ state.bank.balance moduleName denom

theorem initial_solvent (params : Params) (bank : Bank) : (initial params bank).Solvent where
  accepted found := nomatch found
  covered denom := by
    rw [locked, initial, SortedStore.total_empty]
    exact Int.natCast_nonneg _

variable {state final : State}

theorem Solvent.share_nonneg (solvent : state.Solvent) (key : Bytes) (denom : String) :
    0 ≤ Entries.share (fun (_ : Bytes) (feeInfo : FeeInfo) => feeInfo.fee.amount denom) key
      (state.feeInfos.get? key) := by
  cases found : state.feeInfos.get? key with
  | none => exact le_refl _
  | some feeInfo => exact (solvent.accepted found).amount_nonneg denom

theorem checkFees_eq_ok {fee : Fee} {result : Unit}
    (ok : state.checkFees fee = .ok result) : fee.Accepted := by
  obtain ⟨validated, isValid, _⟩ := of_bind ok
  exact Fee.validate_eq_ok isValid

variable {channelFound : Bool} {payer : String}

theorem recordFees_eq_ok {packetID : PacketID}
    {fee : Fee} {recorded : State × Coins}
    (ok : state.recordFees channelFound payer packetID fee = .ok recorded) :
    channelFound ∧ fee.Accepted ∧ recorded.1 = state.storeFeeInfo ⟨payer, packetID, fee⟩ ∧
      ∀ denom, Tally.amountOf recorded.2 denom = fee.amount denom := by
  obtain ⟨checked, isChecked, ok⟩ := of_bind ok
  split at ok
  · cases ok
  · rename_i found
    obtain ⟨total, isTotal, ok⟩ := of_bind ok
    cases ok
    exact ⟨by simpa using found, checkFees_eq_ok isChecked, rfl, Fee.total_eq_ok isTotal⟩

theorem sendCoinsFromAccountToModule_eq_ok {coins : Coins}
    (ok : state.sendCoinsFromAccountToModule payer coins = .ok final) :
    ∃ bank, state.bank.sendCoins payer moduleName coins = .ok bank ∧
      final = { state with bank := bank } := by
  unfold sendCoinsFromAccountToModule at ok
  split at ok
  · rename_i bank sent
    cases ok
    exact ⟨bank, sent, rfl⟩
  · cases ok

theorem lockFees_eq_ok {packetID : PacketID}
    {fee : Fee} (ok : state.lockFees channelFound payer packetID fee = .ok final) :
    (state.params.feeEnabled = false ∧ final = state) ∨
      (state.params.feeEnabled = true ∧ fee.Accepted ∧ ∃ coins bank,
        state.bank.sendCoins payer moduleName coins = .ok bank ∧
        (∀ denom, Tally.amountOf coins denom = fee.amount denom) ∧
        final = { state.storeFeeInfo ⟨payer, packetID, fee⟩ with bank := bank }) := by
  unfold lockFees at ok
  split at ok
  · rename_i disabled
    cases ok
    exact .inl ⟨by simpa using disabled, rfl⟩
  · rename_i enabled
    obtain ⟨⟨stored, coins⟩, recorded, ok⟩ := of_bind ok
    obtain ⟨_, accepted, isStored, amounts⟩ := recordFees_eq_ok recorded
    obtain ⟨bank, sent, isFinal⟩ := sendCoinsFromAccountToModule_eq_ok ok
    dsimp only at isStored amounts sent isFinal
    subst isStored
    exact .inr ⟨by simpa using enabled, accepted, coins, bank, sent, amounts, isFinal⟩

theorem locked_storeFeeInfo (solvent : state.Solvent) (feeInfo : FeeInfo) (denom : String) :
    (state.storeFeeInfo feeInfo).locked denom ≤
      state.locked denom + feeInfo.fee.amount denom := by
  rw [locked, storeFeeInfo, SortedStore.total_set]
  have overwritten := solvent.share_nonneg (getFeePacketKey feeInfo.packetId) denom
  unfold locked
  omega

theorem locked_delete_nonneg (solvent : state.Solvent) (key : Bytes) (denom : String) :
    0 ≤ (state.feeInfos.delete key).total fun _ feeInfo => feeInfo.fee.amount denom := by
  apply SortedStore.total_nonneg
  intro other feeInfo found
  exact (solvent.accepted (SortedStore.of_get?_delete found)).amount_nonneg denom

theorem Solvent.lockFees (solvent : state.Solvent)
    (external : payer ≠ moduleName) {packetID : PacketID} {fee : Fee}
    (ok : state.lockFees channelFound payer packetID fee = .ok final) : final.Solvent := by
  rcases lockFees_eq_ok ok with ⟨_, isFinal⟩ |
    ⟨_, accepted, coins, bank, sent, amounts, isFinal⟩
  · exact isFinal ▸ solvent
  · subst isFinal
    constructor
    · intro key feeInfo found
      rw [storeFeeInfo] at found
      rcases SortedStore.of_get?_set found with ⟨_, rfl⟩ | ⟨_, found⟩
      · exact accepted
      · exact solvent.accepted found
    · intro denom
      have before := solvent.covered denom
      have grown := locked_storeFeeInfo solvent ⟨payer, packetID, fee⟩ denom
      have moved := Bank.sendCoins_balance sent moduleName denom
      rw [if_neg external.symm, if_pos rfl, amounts denom] at moved
      change (state.storeFeeInfo _).locked denom ≤ (bank.balance moduleName denom : Int)
      dsimp only at grown
      omega

variable {fee : CoinList}

theorem distributeFee_of_sendCoins {receiver : String} {bank : Bank}
    (sent : state.bank.sendCoins moduleName receiver (Tally.ofList fee.entries) = .ok bank) :
    state.distributeFee receiver fee = .ok { state with bank := bank } := by
  rw [distributeFee, sent]

theorem distributeFee_eq_ok {receiver : String}
    (ok : state.distributeFee receiver fee = .ok final) :
    final.feeInfos = state.feeInfos := by
  unfold distributeFee at ok
  split at ok
  · cases ok
    rfl
  · cases ok

/-- A stored fee info can be paid out, and is split between relayer and payer. -/
structure PaidOut (result : PacketResult) (state : State) (receiver : String)
    (packetID : PacketID) (feeInfo : FeeInfo) (final : State) : Prop where
  removed : final.feeInfos = state.feeInfos.delete (getFeePacketKey packetID)
  params : final.params = state.params
  balance : ∀ address denom, (final.bank.balance address denom : Int) =
    state.bank.balance address denom -
      (if address = moduleName then feeInfo.fee.amount denom else 0) +
      (if address = receiver then
        Tally.listed denom (result.earned feeInfo.fee).entries else 0) +
      (if address = feeInfo.payer then
        Tally.listed denom (result.returned feeInfo.fee).entries else 0)

theorem Solvent.paidOut (solvent : state.Solvent) (result : PacketResult)
    (receiver : String) {packetID : PacketID} {feeInfo : FeeInfo}
    (found : state.getFeeInfo packetID = some feeInfo) :
    ∃ final, distribute result state receiver packetID = .ok final ∧
      PaidOut result state receiver packetID feeInfo final := by
  have accepted := solvent.accepted found
  -- the rest of the locked fees is not negative
  have others (denom : String) :
      feeInfo.fee.amount denom ≤ state.bank.balance moduleName denom := by
    have covered := solvent.covered denom
    have shares := locked_delete_nonneg solvent (getFeePacketKey packetID) denom
    have own : Entries.share
        (fun (_ : Bytes) (info : FeeInfo) => info.fee.amount denom)
        (getFeePacketKey packetID) (state.feeInfos.get? (getFeePacketKey packetID)) =
          feeInfo.fee.amount denom := by
      rw [show state.feeInfos.get? (getFeePacketKey packetID) = some feeInfo from found]
      rfl
    rw [SortedStore.total_delete, own] at shares
    unfold locked at covered
    omega
  have earnedCovered (denom : String) :
      Tally.amountOf (Tally.ofList (result.earned feeInfo.fee).entries) denom ≤
        state.bank.balance moduleName denom := by
    have enough := others denom
    have rest := (accepted.returned result).listed_nonneg denom
    rw [accepted.amount_eq result] at enough
    rw [Tally.amountOf_ofList]
    omega
  obtain ⟨paidBank, paid⟩ :=
    exists_sendCoins (accepted.earned result).tally earnedCovered receiver
  have afterPaid := Bank.sendCoins_balance paid
  have returnedCovered (denom : String) :
      Tally.amountOf (Tally.ofList (result.returned feeInfo.fee).entries) denom ≤
        paidBank.balance moduleName denom := by
    have enough := others denom
    have earned := (accepted.earned result).listed_nonneg denom
    have left := afterPaid moduleName denom
    rw [accepted.amount_eq result] at enough
    rw [if_pos rfl, Tally.amountOf_ofList] at left
    rw [Tally.amountOf_ofList]
    split at left
    · omega
    · omega
  obtain ⟨finalBank, returned⟩ :=
    exists_sendCoins (accepted.returned result).tally returnedCovered feeInfo.payer
  have afterReturned := Bank.sendCoins_balance returned
  refine ⟨({ state with bank := finalBank } : State).removeFeeInfo packetID, ?_, rfl, rfl, ?_⟩
  · rw [distribute, found]
    dsimp only
    rw [distributeFee_of_sendCoins paid]
    change (do
      let returned ← State.distributeFee { state with bank := paidBank } feeInfo.payer
        (result.returned feeInfo.fee)
      Except.ok (returned.removeFeeInfo packetID)) = _
    rw [distributeFee_of_sendCoins returned]
    rfl
  · intro address denom
    have first := afterPaid address denom
    have second := afterReturned address denom
    rw [Tally.amountOf_ofList] at first second
    rw [accepted.amount_eq result]
    change (finalBank.balance address denom : Int) = _
    split_ifs at first second ⊢ <;> omega

theorem PaidOut.solvent (solvent : state.Solvent) {result : PacketResult}
    {receiver : String} {packetID : PacketID} {feeInfo : FeeInfo}
    (found : state.getFeeInfo packetID = some feeInfo)
    (paidOut : PaidOut result state receiver packetID feeInfo final) : final.Solvent := by
  have accepted := solvent.accepted found
  constructor
  · intro key other isOther
    rw [paidOut.removed] at isOther
    exact solvent.accepted (SortedStore.of_get?_delete isOther)
  · intro denom
    have covered := solvent.covered denom
    have earned := (accepted.earned result).listed_nonneg denom
    have returned := (accepted.returned result).listed_nonneg denom
    have moved := paidOut.balance moduleName denom
    rw [if_pos rfl] at moved
    rw [locked, paidOut.removed, SortedStore.total_delete,
      show state.feeInfos.get? (getFeePacketKey packetID) = some feeInfo from found]
    unfold locked at covered
    change state.feeInfos.total _ - feeInfo.fee.amount denom ≤ _
    split_ifs at moved <;> omega

theorem Solvent.distribute (solvent : state.Solvent) (result : PacketResult)
    (receiver : String) (packetID : PacketID) :
    ∃ final, distribute result state receiver packetID = .ok final ∧ final.Solvent ∧
      final.feeInfos = state.feeInfos.delete (getFeePacketKey packetID) := by
  cases found : state.getFeeInfo packetID with
  | none =>
      refine ⟨state, by rw [State.distribute, found], solvent, ?_⟩
      apply SortedStore.ext_get?
      intro key
      rw [SortedStore.get?_delete]
      split
      · rename_i same
        rw [same]
        exact found
      · rfl
  | some feeInfo =>
      obtain ⟨final, distributed, paidOut⟩ := solvent.paidOut result receiver found
      exact ⟨final, distributed, paidOut.solvent solvent found, paidOut.removed⟩

def stored (state : State) (feeInfo : FeeInfo) : Int :=
  state.feeInfos.total fun _ other => if other = feeInfo then 1 else 0

theorem share_stored_nonneg (state : State) (feeInfo : FeeInfo) (key : Bytes) :
    0 ≤ Entries.share (fun (_ : Bytes) (other : FeeInfo) =>
      if other = feeInfo then (1 : Int) else 0) key (state.feeInfos.get? key) := by
  cases state.feeInfos.get? key with
  | none => exact le_refl _
  | some other =>
      change 0 ≤ if other = feeInfo then (1 : Int) else 0
      split <;> decide

end State

namespace Call

def PaidByAccount : Call → Prop
  | .lockFees _ payer _ _ => payer ≠ moduleName
  | _ => True

def locks (state : State) : Call → List FeeInfo
  | .lockFees channelFound payer packetID fee =>
      if state.params.feeEnabled ∧ (state.lockFees channelFound payer packetID fee).isOk then
        [⟨payer, packetID, fee⟩]
      else
        []
  | _ => []

def payouts (state : State) : Call → List FeeInfo
  | .distributeAcknowledgementFee receiver packetID =>
      if (state.distributeAcknowledgementFee receiver packetID).isOk then
        (state.getFeeInfo packetID).toList
      else
        []
  | .distributeTimeoutFee receiver packetID =>
      if (state.distributeTimeoutFee receiver packetID).isOk then
        (state.getFeeInfo packetID).toList
      else
        []
  | _ => []

end Call

section Step

variable {state : State}

theorem step_of_distribute {result : State.PacketResult} {receiver : String}
    {packetID : PacketID} {call : Call} (solvent : state.Solvent)
    (isCall : call.run state = State.distribute result state receiver packetID) :
    (step state call).Solvent ∧
      (step state call).feeInfos = state.feeInfos.delete (getFeePacketKey packetID) := by
  obtain ⟨final, distributed, finalSolvent, removed⟩ :=
    solvent.distribute result receiver packetID
  rw [step, isCall, distributed]
  exact ⟨finalSolvent, removed⟩

theorem State.Solvent.step (solvent : state.Solvent) {call : Call}
    (external : call.PaidByAccount) : (step state call).Solvent := by
  cases call with
  | lockFees channelFound payer packetID fee =>
      unfold FeeRefunder.step
      split
      · rename_i final ok
        exact solvent.lockFees external ok
      · exact solvent
  | setParams params => exact ⟨solvent.accepted, solvent.covered⟩
  | distributeAcknowledgementFee receiver packetID =>
      exact (step_of_distribute solvent rfl).1
  | distributeTimeoutFee receiver packetID => exact (step_of_distribute solvent rfl).1

theorem stored_delete (feeInfo : FeeInfo) (packetID : PacketID) {final : State}
    (removed : final.feeInfos = state.feeInfos.delete (getFeePacketKey packetID)) :
    ((state.getFeeInfo packetID).toList.count feeInfo : Int) + final.stored feeInfo =
      state.stored feeInfo := by
  rw [State.stored, removed, SortedStore.total_delete, State.stored, State.getFeeInfo]
  cases state.feeInfos.get? (getFeePacketKey packetID) with
  | none => simp [Entries.share]
  | some other => simp [Entries.share, List.count_singleton]

theorem payouts_step (solvent : state.Solvent) (call : Call) (feeInfo : FeeInfo) :
    ((call.payouts state).count feeInfo : Int) + (step state call).stored feeInfo ≤
      state.stored feeInfo + (call.locks state).count feeInfo := by
  cases call with
  | lockFees channelFound payer packetID fee =>
      cases ran : state.lockFees channelFound payer packetID fee with
      | error cause => simp [Call.payouts, Call.locks, step, Call.run, ran]
      | ok final =>
          rcases State.lockFees_eq_ok ran with ⟨disabled, isFinal⟩ |
            ⟨enabled, _, coins, bank, _, _, isFinal⟩
          · simp [Call.payouts, Call.locks, step, Call.run, ran, isFinal]
          · have overwritten := State.share_stored_nonneg state feeInfo
              (getFeePacketKey packetID)
            have isStored : final.stored feeInfo = state.stored feeInfo -
                Entries.share (fun (_ : Bytes) (other : FeeInfo) =>
                  if other = feeInfo then (1 : Int) else 0) (getFeePacketKey packetID)
                  (state.feeInfos.get? (getFeePacketKey packetID)) +
                if (⟨payer, packetID, fee⟩ : FeeInfo) = feeInfo then 1 else 0 := by
              rw [isFinal]
              exact SortedStore.total_set _ _ _ _
            simp only [Call.payouts, Call.locks, step, Call.run, ran, enabled, Except.isOk,
              Except.toBool, and_self, if_true, List.count_nil, List.count_singleton,
              beq_iff_eq]
            split at isStored
            · rename_i same
              rw [if_pos same]
              omega
            · rename_i different
              rw [if_neg different]
              omega
  | setParams params => simp [Call.payouts, Call.locks, step, Call.run, State.stored]
  | distributeAcknowledgementFee receiver packetID =>
      have removed := (@step_of_distribute state .acknowledged receiver packetID
        (.distributeAcknowledgementFee receiver packetID) solvent rfl).2
      have balance := stored_delete feeInfo packetID removed
      simp only [Call.payouts, Call.locks, List.count_nil]
      split
      · omega
      · rw [List.count_nil]
        omega
  | distributeTimeoutFee receiver packetID =>
      have removed := (@step_of_distribute state .timedOut receiver packetID
        (.distributeTimeoutFee receiver packetID) solvent rfl).2
      have balance := stored_delete feeInfo packetID removed
      simp only [Call.payouts, Call.locks, List.count_nil]
      split
      · omega
      · rw [List.count_nil]
        omega

theorem payouts_le (solvent : state.Solvent) {calls : List Call}
    (external : ∀ call ∈ calls, call.PaidByAccount) (feeInfo : FeeInfo) :
    ((Machine.collect step (fun state call => call.payouts state) state calls).count feeInfo
        : Int) ≤
      state.stored feeInfo +
        (Machine.collect step (fun state call => call.locks state) state calls).count
          feeInfo := by
  induction calls generalizing state with
  | nil =>
      have nonneg : 0 ≤ state.stored feeInfo := by
        apply SortedStore.total_nonneg
        intro key other _
        split <;> decide
      simpa [Machine.collect] using nonneg
  | cons call rest ih =>
      have first := payouts_step solvent call feeInfo
      have others := ih (solvent.step (external call (by simp)))
        (fun other member => external other (by simp [member]))
      simp only [Machine.collect, List.count_append]
      push_cast
      omega

end Step

/-- Whatever accounts lock and whatever is distributed, the locked fees are covered, every
distribution succeeds and splits the fees of its record, and no record is paid out more
often than it was stored. -/
theorem lockedFees_covered (params : Params) (bank : Bank) (calls : List Call)
    (external : ∀ call ∈ calls, call.PaidByAccount) :
    let state := Machine.run step (State.initial params bank) calls
    (∀ denom, state.locked denom ≤ state.bank.balance moduleName denom) ∧
    (∀ result receiver packetID feeInfo, state.getFeeInfo packetID = some feeInfo →
      ∃ final, State.distribute result state receiver packetID = .ok final ∧
        State.PaidOut result state receiver packetID feeInfo final ∧
        final.getFeeInfo packetID = none) ∧
    (∀ result receiver packetID, state.getFeeInfo packetID = none →
      State.distribute result state receiver packetID = .ok state) ∧
    ∀ feeInfo,
      (Machine.collect step (fun state call => call.payouts state)
        (State.initial params bank) calls).count feeInfo ≤
      (Machine.collect step (fun state call => call.locks state)
        (State.initial params bank) calls).count feeInfo := by
  intro state
  have start := State.initial_solvent params bank
  have allowed : Machine.Allowed step (fun _ call => call.PaidByAccount)
      (State.initial params bank) calls := Machine.allowed_of_forall external
  have solvent : state.Solvent :=
    allowed.invariant (fun _ _ kept permitted => kept.step permitted) start
  refine ⟨solvent.covered, ?_, ?_, ?_⟩
  · intro result receiver packetID feeInfo found
    obtain ⟨final, distributed, paidOut⟩ := solvent.paidOut result receiver found
    refine ⟨final, distributed, paidOut, ?_⟩
    rw [State.getFeeInfo, paidOut.removed, SortedStore.get?_delete_self]
  · intro result receiver packetID missing
    rw [State.distribute, missing]
  · intro feeInfo
    have bounded := payouts_le start external feeInfo
    have none : (State.initial params bank).stored feeInfo = 0 :=
      SortedStore.total_empty _
    omega

section Examples

def unitFee : Fee := ⟨[], [⟨"untrn", 1⟩], [⟨"untrn", 1⟩]⟩

def unitBank : Bank where
  balance address denom := if address = "contract" ∧ denom = "untrn" then 2 else 0
  supply _ := 2
  blockedAddr address := address = Dex.moduleName
  moduleBlocked := Dex.moduleName_blocked

def unitParams : Params := ⟨unitFee, true⟩

def selfPaidCalls : List Call :=
  [.lockFees true "contract" ⟨"channel-0", "transfer", 1⟩ unitFee,
   .lockFees true moduleName ⟨"channel-0", "transfer", 2⟩ unitFee]

theorem lockedFees_not_covered_selfPaid :
    ¬ ∀ denom, (Machine.run step (State.initial unitParams unitBank) selfPaidCalls).locked
        denom ≤
      ((Machine.run step (State.initial unitParams unitBank) selfPaidCalls).bank.balance
        moduleName denom : Int) := by
  intro covered
  have untrn := covered "untrn"
  revert untrn
  decide +kernel

theorem lockedFees_covered_unit :
    (∀ call ∈ selfPaidCalls.take 1, call.PaidByAccount) ∧
      (Machine.run step (State.initial unitParams unitBank) (selfPaidCalls.take 1)).locked
        "untrn" ≤
      ((Machine.run step (State.initial unitParams unitBank)
        (selfPaidCalls.take 1)).bank.balance moduleName "untrn" : Int) := by
  have external : ∀ call ∈ selfPaidCalls.take 1, call.PaidByAccount := by
    intro call member
    have isLock : call = .lockFees true "contract" ⟨"channel-0", "transfer", 1⟩ unitFee := by
      simpa [selfPaidCalls] using member
    rw [isLock]
    intro same
    exact absurd same (by decide)
  exact ⟨external, (lockedFees_covered unitParams unitBank _ external).1 "untrn"⟩

end Examples

end Neutron.FeeRefunder
