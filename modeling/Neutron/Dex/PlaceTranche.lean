import Neutron.Dex.Bookkeeping

namespace Neutron.Dex

open Library PrecDec

variable {inAmount outAmount : PrecDec}

namespace LimitOrderTranche

variable (tranche : LimitOrderTranche) (user : LimitOrderTrancheUser)

def tradedOut : PrecDec :=
  newPrecDecFromInt tranche.totalMakerDenom - tranche.decReservesMakerDenom

def unfilledOf : Outcome PrecDec := do
  let amountUnfilled ← tranche.amountUnfilled
  (amountUnfilled.mulInt user.sharesOwned).quoInt tranche.totalMakerDenom

/-- A cancellation leaves some of the fill to the other makers: the part of it that falls
on the user is below what was traded out, or is all of it and the user is paid all that
was traded in.  The others have none to carry when no shares or no reserves are left, or
when the cancellation is refused for it pays more than was traded in. -/
def LeavesFill : Prop :=
  ∀ unfilled ∈ (tranche.unfilledOf user).toOption,
    ∀ withdrawable ∈ (tranche.calcWithdrawAmount user).toOption,
      let filled := newPrecDecFromInt user.sharesOwned - unfilled
      let paid := user.decSharesWithdrawn.mul tranche.makerPrice + withdrawable.2
      tranche.decTotalTakerDenom < paid ∨
        user.sharesOwned = tranche.totalMakerDenom ∨
        tranche.decReservesMakerDenom ≤ unfilled ∨
        filled < tranche.tradedOut ∨
        (filled = tranche.tradedOut ∧ tranche.decTotalTakerDenom = paid)

instance : Decidable (tranche.LeavesFill user) :=
  inferInstanceAs (Decidable (∀ unfilled ∈ _, ∀ withdrawable ∈ _, _))

def FillRecorded : Prop :=
  tranche.totalMakerDenom = 0 ∨ 0 < tranche.tradedOut.i ∨
    (tranche.tradedOut.i = 0 ∧ tranche.decTotalTakerDenom.i = 0)

variable {tranche user}

theorem tradedOut_i : tranche.tradedOut.i =
    tranche.totalMakerDenom * precisionReuse - tranche.decReservesMakerDenom.i := rfl

theorem tradedOut_of_isPlaceTranche (place : tranche.IsPlaceTranche) :
    tranche.tradedOut.i = 0 := by
  rw [tradedOut, sub_i, place, sub_self]

theorem FillRecorded.totalTaker_zero (recorded : tranche.FillRecorded)
    (active : 0 < tranche.decReservesMakerDenom.i) (place : tranche.IsPlaceTranche) :
    tranche.decTotalTakerDenom = zeroPrecDec := by
  have untraded := tradedOut_of_isPlaceTranche place
  rcases recorded with empty | traded | ⟨_, nothing⟩
  · rw [tradedOut_i, empty] at untraded
    omega
  · omega
  · exact PrecDec.ext nothing

theorem FillRecorded.swapped (recorded : tranche.FillRecorded)
    (outNonneg : 0 ≤ outAmount.i) (inZero : outAmount.i = 0 → inAmount.i = 0) :
    (tranche.traded inAmount outAmount).FillRecorded := by
  have out : (tranche.traded inAmount outAmount).tradedOut.i =
      tranche.tradedOut.i + outAmount.i := by
    simp only [tradedOut_i, traded, sub_i]
    omega
  rcases recorded with empty | traded | ⟨untraded, nothing⟩
  · exact .inl empty
  · exact .inr (.inl (by omega))
  · rcases Int.lt_or_eq_of_le outNonneg with some | none
    · exact .inr (.inl (by omega))
    · refine .inr (.inr ⟨by omega, ?_⟩)
      simp only [LimitOrderTranche.traded, add_i, nothing, inZero none.symm, add_zero]

theorem FillRecorded.placed_new (key : LimitOrderTrancheKey) (goodTil : Option Time)
    (amount : Int) : ((new key goodTil).placed amount).FillRecorded := by
  refine .inr (.inr ⟨?_, rfl⟩)
  rw [tradedOut_i]
  simp only [LimitOrderTranche.placed, new, add_i, newPrecDecFromInt_i, zeroPrecDec_i,
    zero_add, sub_self]

theorem FillRecorded.placed (recorded : tranche.FillRecorded)
    (active : 0 < tranche.decReservesMakerDenom.i) (place : tranche.IsPlaceTranche)
    (amount : Int) : (tranche.placed amount).FillRecorded := by
  have untraded := tradedOut_of_isPlaceTranche place
  refine .inr (.inr ⟨?_, congrArg PrecDec.i (recorded.totalTaker_zero active place)⟩)
  rw [tradedOut_i] at untraded ⊢
  simp only [LimitOrderTranche.placed, add_i, newPrecDecFromInt_i, add_mul]
  omega

end LimitOrderTranche

variable {cancelled : LimitOrderTranche} {makerOut takerOut : PrecDec}

theorem cancelInTranche_amounts {tranche : LimitOrderTranche}
    {user : LimitOrderTrancheUser}
    (ok : cancelInTranche tranche user = .ok (makerOut, takerOut, cancelled)) :
    (∃ unfilled, tranche.unfilledOf user = .ok unfilled ∧
      makerOut = minPrecDec unfilled tranche.decReservesMakerDenom) ∧
    ∃ shares, tranche.calcWithdrawAmount user = .ok (shares, takerOut) := by
  obtain ⟨⟨returned, removed⟩, remove, ok⟩ := of_bind ok
  obtain ⟨⟨shares, paid, withdrawn⟩, withdraw, ok⟩ := of_bind ok
  obtain ⟨final, _, ok⟩ := of_bind ok
  have result := (Outcome.pure_eq_ok_iff _ _).mp ok
  simp only [Prod.mk.injEq] at result
  obtain ⟨rfl, rfl, _⟩ := result
  obtain ⟨_, isRemoved⟩ := LimitOrderTranche.removeTokenIn_eq_ok remove
  obtain ⟨calculated, _, _⟩ := LimitOrderTranche.withdraw_eq_ok withdraw
  refine ⟨?_, shares, ?_⟩
  · obtain ⟨amountUnfilled, isUnfilled, remove⟩ := of_bind remove
    obtain ⟨unfilled, part, remove⟩ := of_bind remove
    obtain ⟨set, setMaker, remove⟩ := of_bind remove
    split at remove
    · cases remove
    · have amounts := (Outcome.pure_eq_ok_iff _ _).mp remove
      refine ⟨unfilled, ?_, (congrArg Prod.fst amounts).symm⟩
      unfold LimitOrderTranche.unfilledOf
      rw [isUnfilled]
      exact part
  · -- the amounts do not depend on the maker's reserves
    rw [isRemoved] at calculated
    exact calculated

theorem LimitOrderTranche.LeavesFill.fillRecorded {tranche : LimitOrderTranche}
    {user : LimitOrderTrancheUser}
    (leaves : tranche.LeavesFill user)
    (ok : cancelInTranche tranche user = .ok (makerOut, takerOut, cancelled))
    (active : cancelled.HasTokenIn) : cancelled.FillRecorded := by
  have eqCancelled := (cancelInTranche_cancels ok).eq_cancelled
  have totalTaker := (cancelInTranche_cancels ok).totalTaker
  obtain ⟨⟨unfilled, isUnfilled, returned⟩, shares, calculated⟩ := cancelInTranche_amounts ok
  have returned := congrArg PrecDec.i returned
  rw [minPrecDec_i] at returned
  have reserves : cancelled.decReservesMakerDenom.i =
      tranche.decReservesMakerDenom.i - makerOut.i := by rw [eqCancelled]; rfl
  have total : cancelled.totalMakerDenom =
      tranche.totalMakerDenom - user.sharesOwned := by rw [eqCancelled]; rfl
  have left : 0 < cancelled.decReservesMakerDenom.i := active
  have out : cancelled.tradedOut.i =
      tranche.tradedOut.i - (user.sharesOwned * precisionReuse - makerOut.i) := by
    rw [tradedOut_i, tradedOut_i, reserves, total, sub_mul]
    omega
  rcases leaves unfilled (Outcome.toOption_eq_some_iff.mpr isUnfilled) (shares, takerOut)
    (Outcome.toOption_eq_some_iff.mpr calculated) with
    refused | all | none | below | ⟨whole, paid⟩
  · have refused := lt_def.mp refused
    rw [eqCancelled, LimitOrderTranche.cancelled, sub_i] at totalTaker
    dsimp only at refused
    omega
  · exact .inl (by rw [total, all, sub_self])
  · have none := le_def.mp none
    omega
  · have below := lt_def.mp below
    rw [sub_i, newPrecDecFromInt_i] at below
    exact .inr (.inl (by omega))
  · have whole := congrArg PrecDec.i whole
    rw [sub_i, newPrecDecFromInt_i] at whole
    refine .inr (.inr ⟨by omega, ?_⟩)
    rw [eqCancelled, LimitOrderTranche.cancelled]
    dsimp only
    rw [paid, sub_i, sub_self]

def OrderBook.FillsRecorded (book : OrderBook) : Prop :=
  ∀ key tranche, book.getLimitOrderTranche key = some tranche → tranche.FillRecorded

namespace OrderBook.FillsRecorded

variable {book : OrderBook} (recorded : book.FillsRecorded)

include recorded

theorem updatePool (pool : Pool) : (book.writeAll (updatePool pool)).FillsRecorded := by
  intro key tranche found
  rw [getLimitOrderTranche_updatePool] at found
  exact recorded key tranche found

theorem updateTranche {updated : LimitOrderTranche}
    (updatedRecorded : updated.HasTokenIn → updated.FillRecorded) :
    (book.writeAll (updateTranche updated)).FillsRecorded := by
  intro key tranche found
  rw [getLimitOrderTranche_updateTranche] at found
  split at found
  · split at found
    · rename_i active
      cases found
      exact updatedRecorded active
    · cases found
  · exact recorded key tranche found

theorem updateInactiveTranche (updated : LimitOrderTranche) :
    (book.writeAll (updateInactiveTranche updated)).FillsRecorded := by
  intro key tranche found
  unfold getLimitOrderTranche at found
  rw [tickLiquidity_updateInactiveTranche] at found
  exact recorded key tranche found

theorem archiveTranche (archived : LimitOrderTranche) :
    (book.writeAll (archiveTranche archived)).FillsRecorded := by
  intro key tranche found
  rw [getLimitOrderTranche_archiveTranche] at found
  split at found
  · cases found
  · exact recorded key tranche found

theorem visit {now : Time} {tradePairID : TradePairID} {next : OrderBook}
    (visit : Visit now tradePairID book inAmount outAmount next) : next.FillsRecorded := by
  cases visit with
  | pool _ _ _ _ _ _ _ => exact recorded.updatePool _
  | tranche stored _ _ _ outNonneg _ inZero =>
      exact recorded.updateTranche fun _ =>
        (recorded _ _ stored).swapped outNonneg inZero

end OrderBook.FillsRecorded

def Rules.leaveFill (now : Time) : Rules :=
  ⟨now, fun _ _ => True, LimitOrderTranche.LeavesFill, fun _ => True⟩

theorem Move.fillsRecorded {now : Time} {dex next : DexState} {flow : Flow}
    (move : Move (.leaveFill now) dex flow next) (wellFormed : dex.WellFormed)
    (recorded : dex.book.FillsRecorded) : next.book.FillsRecorded := by
  cases move with
  | visit visit => exact recorded.visit visit
  | registerPool _ _ _ | issueTrancheKey | dropRecord _ | countJITs _ | setParams _ =>
      exact recorded
  | deposit _ _ _ _ _ _ | withdraw _ _ _ _ _ _ => exact recorded.updatePool _
  | @place tranche _ _ _ amount opens _ _ _ =>
      rw [DexState.updateTrancheUser_book, DexState.recordExpirationOf_eq,
        DexState.updateBook]
      dsimp only
      rw [opens.book]
      refine recorded.updateTranche fun _ => ?_
      cases opens with
      | existing stored _ place =>
          have active := wellFormed.ordersKept.active_pos stored
          exact (recorded _ _ stored).placed active place amount
      | fresh _ _ => exact .placed_new _ _ amount
  | cancelActive _ _ cancel leaves =>
      rw [dropExpiration_eq, DexState.updateTrancheUser_eq]
      exact recorded.updateTranche fun active => leaves.fillRecorded cancel active
  | cancelInactive _ _ _ _ =>
      rw [dropExpiration_eq, DexState.updateTrancheUser_eq]
      exact recorded.updateInactiveTranche _
  | withdrawActive _ stored withdraw _ _ =>
      obtain ⟨_, _, rfl⟩ := LimitOrderTranche.withdraw_eq_ok withdraw
      rw [DexState.updateTrancheUser_book]
      have before : LimitOrderTranche.FillRecorded _ := recorded _ _ stored
      exact recorded.updateTranche fun _ => before
  | withdrawInactive _ _ _ _ _ =>
      rw [DexState.updateTrancheUser_book]
      exact recorded.updateInactiveTranche _
  | archive _ => exact recorded.archiveTranche _

def Action.LeavesFill (world : World) : Action → Prop
  | .message (.cancelLimitOrder msg) =>
      ∀ user ∈ world.dex.getLimitOrderTrancheUser msg.creator.address msg.trancheKey,
        ∀ tranche ∈ world.dex.book.getLimitOrderTranche user.limitOrderTrancheKey,
          tranche.LeavesFill user
  | _ => True

instance (world : World) (action : Action) : Decidable (action.LeavesFill world) :=
  match action with
  | .message (.cancelLimitOrder msg) =>
      inferInstanceAs (Decidable
        (∀ user ∈ world.dex.getLimitOrderTrancheUser msg.creator.address msg.trancheKey,
          ∀ tranche ∈ world.dex.book.getLimitOrderTranche user.limitOrderTrancheKey,
            tranche.LeavesFill user))
  | .message (.deposit _) | .message (.withdrawal _) | .message (.withdrawalWithShares _)
  | .message (.placeLimitOrder _) | .message (.withdrawFilledLimitOrder _)
  | .message (.multiHopSwap _) | .message (.updateParams _) | .purge _ _ _
  | .nextBlock _ => .isTrue trivial

/-- The tranches that new orders are merged into were not traded through, as long as every
cancellation leaves some of the fill to the other makers. -/
theorem getGTCPlaceTranche_untraded {params : Params} {bank : Bank} {blockTime : Time}
    {authority : String} {actions : List Action}
    (leaves : Machine.Allowed step (fun world action => action.LeavesFill world)
      (World.initial params bank blockTime authority) actions)
    {tradePairID : TradePairID} {tickIndex : Int} {tranche : LimitOrderTranche}
    (found : getGTCPlaceTranche
      (Machine.run step (World.initial params bank blockTime authority) actions).dex.book
      tradePairID tickIndex = some tranche) :
    tranche.decTotalTakerDenom = zeroPrecDec ∧
      tranche.decReservesMakerDenom = newPrecDecFromInt tranche.totalMakerDenom := by
  have reachable : World.Reachable
      (Machine.run step (World.initial params bank blockTime authority) actions) :=
    ⟨params, bank, blockTime, authority, actions, rfl⟩
  have recorded := @dex_invariant_of_allowed .leaveFill (fun dex => dex.book.FillsRecorded)
    (fun world action => action.LeavesFill world)
    (fun wellFormed recorded move => move.fillsRecorded wellFormed recorded)
    (fun _ recorded => recorded) (fun _ _ _ stored => nomatch stored) ?_ _ _ _ _ _ leaves
  · obtain ⟨stored, _, _, place⟩ := getGTCPlaceTranche_eq_some found
    have active := reachable.sound.wellFormed.ordersKept.active_pos stored
    exact ⟨(recorded _ _ stored).totalTaker_zero active place, place⟩
  · intro world msg prepared isAllowed
    refine ⟨rfl, fun _ _ _ => trivial, ?_, fun _ _ => trivial⟩
    rintro cancel user tranche rfl holder stored
    exact isAllowed user holder tranche stored

section Examples

def bob : Signer := ⟨"bob", by decide⟩

def plenty : Bank where
  balance address _ := if address = moduleName then 0 else 10 ^ 30
  supply _ := 10 ^ 31
  blockedAddr address := address = moduleName
  moduleBlocked := moduleName_blocked

def orderOf (signer : Signer) (tokenIn tokenOut : String) (amount : Int)
    (orderType : LimitOrderType) : Action :=
  .message (.placeLimitOrder
    ⟨signer, signer.address, tokenIn, tokenOut, 0, amount, orderType, none, none, none, none⟩)

def boughtAndCancelled (amount : Int) : List Action :=
  [orderOf alice "untrn" "uatom" amount .goodTilCancelled,
    orderOf bob "untrn" "uatom" 1 .goodTilCancelled,
    orderOf bob "uatom" "untrn" 1 .immediateOrCancel,
    .message (.cancelLimitOrder ⟨alice, "tk-0"⟩)]

/-- With `10 ^ 28` tokens of the first maker, the part of the fill that falls on the second
is below the last decimal.  What is left looks untouched. -/
theorem getGTCPlaceTranche_traded :
    let world := Machine.run step (World.initial defaultParams plenty 5 "gov")
      (boughtAndCancelled (10 ^ 28))
    ∃ tranche ∈ getGTCPlaceTranche world.dex.book ⟨"uatom", "untrn", by decide⟩ 0,
      ¬ (tranche.decTotalTakerDenom = zeroPrecDec ∧
        tranche.decReservesMakerDenom = newPrecDecFromInt tranche.totalMakerDenom) := by
  decide +kernel

def joinedAfterwards : List Action :=
  boughtAndCancelled 10 ++ [orderOf bob "untrn" "uatom" 1 .goodTilCancelled]

theorem getGTCPlaceTranche_untraded_joinedAfterwards :
    Machine.Allowed step (fun world action => action.LeavesFill world)
        (World.initial defaultParams plenty 5 "gov") joinedAfterwards ∧
      ∃ tranche, getGTCPlaceTranche
          (Machine.run step (World.initial defaultParams plenty 5 "gov")
            joinedAfterwards).dex.book ⟨"uatom", "untrn", by decide⟩ 0 = some tranche ∧
        tranche.decTotalTakerDenom = zeroPrecDec ∧
        tranche.decReservesMakerDenom = newPrecDecFromInt tranche.totalMakerDenom := by
  have leaves : Machine.Allowed step (fun world action => action.LeavesFill world)
      (World.initial defaultParams plenty 5 "gov") joinedAfterwards := by
    decide +kernel
  have present : (getGTCPlaceTranche
      (Machine.run step (World.initial defaultParams plenty 5 "gov")
        joinedAfterwards).dex.book ⟨"uatom", "untrn", by decide⟩ 0).isSome := by
    decide +kernel
  obtain ⟨tranche, found⟩ := Option.isSome_iff_exists.mp present
  exact ⟨leaves, tranche, found, getGTCPlaceTranche_untraded leaves found⟩

end Examples

end Neutron.Dex
