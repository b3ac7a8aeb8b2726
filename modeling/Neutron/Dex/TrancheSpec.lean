import Neutron.Dex.Reserves
import Neutron.Dex.LimitOrder

namespace Neutron.Dex

open Library PrecDec

namespace LimitOrderTranche

variable {tranche : LimitOrderTranche} {user : LimitOrderTrancheUser}

theorem ratioFilled_le {ratio : PrecDec} (ok : tranche.ratioFilled = .ok ratio) :
    ratio.i ≤ precisionReuse := by
  obtain ⟨amountFilled, _, ok⟩ := of_bind ok
  obtain ⟨exactRatio, _, ok⟩ := of_bind ok
  rw [Outcome.pure_eq_ok_iff] at ok
  rw [← ok, minPrecDec_i, onePrecDec_i]
  exact min_le_right _ _

theorem calcWithdrawAmount_eq_ok {shares takerOut : PrecDec}
    (ok : tranche.calcWithdrawAmount user = .ok (shares, takerOut)) :
    (shares = zeroPrecDec ∧ takerOut = zeroPrecDec) ∨
      ∃ ratio, tranche.ratioFilled = .ok ratio ∧
        shares = ratio.mulInt user.sharesOwned - user.decSharesWithdrawn ∧
        0 < shares.i ∧
        takerOut = minPrecDec (shares.mul tranche.makerPrice)
          tranche.decReservesTakerDenom := by
  obtain ⟨ratio, ratioFilled, ok⟩ := of_bind ok
  dsimp only at ok
  split at ok
  · have amounts := (Outcome.pure_eq_ok_iff _ _).mp ok
    exact .inl ⟨(congrArg Prod.fst amounts).symm, (congrArg Prod.snd amounts).symm⟩
  · rename_i positive
    cases ok
    exact .inr ⟨ratio, ratioFilled, rfl, not_not.mp positive, rfl⟩

theorem withdraw_eq_ok {shares takerOut : PrecDec} {withdrawn : LimitOrderTranche}
    (ok : tranche.withdraw user = .ok (shares, takerOut, withdrawn)) :
    tranche.calcWithdrawAmount user = .ok (shares, takerOut) ∧
      0 ≤ (tranche.decReservesTakerDenom - takerOut).i ∧
      withdrawn = { tranche with
        decReservesTakerDenom := tranche.decReservesTakerDenom - takerOut } := by
  obtain ⟨⟨sharesOut, tokensOut⟩, amounts, ok⟩ := of_bind ok
  obtain ⟨set, setTaker, ok⟩ := of_bind ok
  obtain ⟨nonneg, rfl⟩ := unlessNegative_eq_ok_iff.mp setTaker
  split at ok
  · cases ok
  · cases ok
    exact ⟨amounts, nonneg, rfl⟩

theorem Sound.of_withdraw (sound : tranche.Sound) {shares takerOut : PrecDec}
    {withdrawn : LimitOrderTranche}
    (ok : tranche.withdraw user = .ok (shares, takerOut, withdrawn)) :
    withdrawn.Sound ∧ withdrawn.key = tranche.key := by
  obtain ⟨_, taker, rfl⟩ := withdraw_eq_ok ok
  exact ⟨⟨sound.maker, taker, sound.totalTaker, sound.price, sound.inRange⟩, rfl⟩

theorem removeTokenIn_eq_ok {makerOut : PrecDec} {removed : LimitOrderTranche}
    (ok : tranche.removeTokenIn user = .ok (makerOut, removed)) :
    0 ≤ (tranche.decReservesMakerDenom - makerOut).i ∧
      removed = { tranche with
        decReservesMakerDenom := tranche.decReservesMakerDenom - makerOut } := by
  obtain ⟨unfilled, _, ok⟩ := of_bind ok
  obtain ⟨userAmount, _, ok⟩ := of_bind ok
  obtain ⟨set, setMaker, ok⟩ := of_bind ok
  obtain ⟨nonneg, rfl⟩ := unlessNegative_eq_ok_iff.mp setMaker
  split at ok
  · cases ok
  · cases ok
    exact ⟨nonneg, rfl⟩

def paidOut (tranche : LimitOrderTranche) (makerOut takerOut : PrecDec) :
    LimitOrderTranche :=
  { tranche with
    decReservesMakerDenom := tranche.decReservesMakerDenom - makerOut
    decReservesTakerDenom := tranche.decReservesTakerDenom - takerOut }

theorem owed_paidOut (tranche : LimitOrderTranche) (makerOut takerOut : PrecDec) :
    (tranche.paidOut makerOut takerOut).owed - tranche.owed =
      -(Flow.coin tranche.key.tradePairID.makerDenom makerOut +
        Flow.coin tranche.key.tradePairID.takerDenom takerOut) := by
  simp only [owed, paidOut, Flow.coin_sub]
  abel

theorem Sound.paidOut (sound : tranche.Sound) {makerOut takerOut : PrecDec}
    (maker : 0 ≤ (tranche.decReservesMakerDenom - makerOut).i)
    (taker : 0 ≤ (tranche.decReservesTakerDenom - takerOut).i) :
    (tranche.paidOut makerOut takerOut).Sound :=
  ⟨maker, taker, sound.totalTaker, sound.price, sound.inRange⟩

end LimitOrderTranche

def LimitOrderTranche.cancelled (tranche : LimitOrderTranche)
    (user : LimitOrderTrancheUser) (makerOut takerOut : PrecDec) :
    LimitOrderTranche :=
  { tranche.paidOut makerOut takerOut with
    totalMakerDenom := tranche.totalMakerDenom - user.sharesOwned
    decTotalTakerDenom := tranche.decTotalTakerDenom -
      (user.decSharesWithdrawn.mul tranche.makerPrice + takerOut) }

structure Cancels (tranche : LimitOrderTranche) (user : LimitOrderTrancheUser)
    (makerOut takerOut : PrecDec) (cancelled : LimitOrderTranche) : Prop where
  maker : 0 ≤ (tranche.decReservesMakerDenom - makerOut).i
  taker : 0 ≤ (tranche.decReservesTakerDenom - takerOut).i
  totalTaker : 0 ≤ cancelled.decTotalTakerDenom.i
  eq_cancelled : cancelled = tranche.cancelled user makerOut takerOut

theorem cancelInTranche_cancels {tranche cancelled : LimitOrderTranche}
    {user : LimitOrderTrancheUser} {makerOut takerOut : PrecDec}
    (ok : cancelInTranche tranche user = .ok (makerOut, takerOut, cancelled)) :
    Cancels tranche user makerOut takerOut cancelled := by
  obtain ⟨⟨returned, removed⟩, remove, ok⟩ := of_bind ok
  obtain ⟨⟨shares, paid, withdrawn⟩, withdraw, ok⟩ := of_bind ok
  obtain ⟨final, setTotal, ok⟩ := of_bind ok
  cases ok
  obtain ⟨maker, rfl⟩ := LimitOrderTranche.removeTokenIn_eq_ok remove
  obtain ⟨_, taker, rfl⟩ := LimitOrderTranche.withdraw_eq_ok withdraw
  obtain ⟨totalTaker, rfl⟩ := unlessNegative_eq_ok_iff.mp setTotal
  exact ⟨maker, taker, totalTaker, rfl⟩

namespace Cancels

variable {tranche cancelled : LimitOrderTranche} {user : LimitOrderTrancheUser}
  {makerOut takerOut : PrecDec} (cancels : Cancels tranche user makerOut takerOut cancelled)

include cancels

theorem key : cancelled.key = tranche.key := by
  rw [cancels.eq_cancelled]
  rfl

theorem expirationTime : cancelled.expirationTime = tranche.expirationTime := by
  rw [cancels.eq_cancelled]
  rfl

theorem sound (before : tranche.Sound) : cancelled.Sound where
  maker := by rw [cancels.eq_cancelled]; exact cancels.maker
  taker := by rw [cancels.eq_cancelled]; exact cancels.taker
  totalTaker := cancels.totalTaker
  price := by rw [cancels.eq_cancelled]; exact before.price
  inRange := by rw [cancels.eq_cancelled]; exact before.inRange

theorem owed : cancelled.owed - tranche.owed =
    -(Flow.coin tranche.key.tradePairID.makerDenom makerOut +
      Flow.coin tranche.key.tradePairID.takerDenom takerOut) := by
  rw [cancels.eq_cancelled]
  exact tranche.owed_paidOut makerOut takerOut

end Cancels

end Neutron.Dex
