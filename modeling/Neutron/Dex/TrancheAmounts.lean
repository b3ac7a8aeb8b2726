import Neutron.Library.Prorata.Operations
import Neutron.Dex.Decimal
import Neutron.Dex.SwapSpec
import Neutron.Dex.TrancheLife
import Neutron.Dex.TrancheSpec

namespace Neutron.Dex

open Library PrecDec

def takerWorth (makerPrice : PrecDec) : ℚ := precisionReuse / makerPrice.i

section Rounding

variable {left right result : PrecDec}

theorem takerWorth_pos (positive : 0 < right.i) : 0 < takerWorth right :=
  div_pos precisionReuse_cast_pos (by exact_mod_cast positive)

theorem quo_le_worth (computed : left.quo right = .ok result) (nonneg : 0 ≤ left.i)
    (positive : 0 < right.i) : (result.i : ℚ) ≤ left.i * takerWorth right + 1 / 2 := by
  have bound : ((right.i * (precisionReuse * result.i) : ℤ) : ℚ) ≤
      (left.i * (precisionReuse * precisionReuse : Nat) + right.i * fivePrecision : ℤ) := by
    exact_mod_cast mul_quo_le computed nonneg positive
  have rightPos : (0 : ℚ) < right.i := by exact_mod_cast positive
  have unitPos := precisionReuse_cast_pos
  push_cast at bound
  rw [fivePrecision_cast] at bound
  unfold takerWorth
  rw [← mul_le_mul_iff_right₀ (mul_pos rightPos unitPos)]
  calc (right.i : ℚ) * precisionReuse * result.i
      = right.i * (precisionReuse * result.i) := by ring
    _ ≤ left.i * (precisionReuse * precisionReuse) + right.i * (precisionReuse / 2) := bound
    _ = _ := by field_simp

theorem worth_le_quo (computed : left.quo right = .ok result) (nonneg : 0 ≤ left.i)
    (positive : 0 < right.i) : left.i * takerWorth right ≤ (result.i : ℚ) + 1 := by
  have bound : ((left.i * (precisionReuse * precisionReuse : Nat) : ℤ) : ℚ) ≤
      (right.i * (precisionReuse * result.i + fivePrecision) + right.i : ℤ) := by
    exact_mod_cast le_of_lt (lt_mul_quo computed nonneg positive)
  have rightPos : (0 : ℚ) < right.i := by exact_mod_cast positive
  have unitPos := precisionReuse_cast_pos
  have unitGe : (2 : ℚ) ≤ precisionReuse := by
    have two : 2 ≤ precisionReuse := by decide
    exact_mod_cast two
  push_cast at bound
  rw [fivePrecision_cast] at bound
  unfold takerWorth
  rw [← mul_le_mul_iff_right₀ (mul_pos rightPos unitPos)]
  calc (right.i : ℚ) * precisionReuse * (left.i * (precisionReuse / right.i))
      = left.i * (precisionReuse * precisionReuse) := by field_simp
    _ ≤ right.i * (precisionReuse * result.i + precisionReuse / 2) + right.i := bound
    _ ≤ right.i * precisionReuse * (result.i + 1) := by nlinarith

theorem mul_worth_le (leftNonneg : 0 ≤ left.i) (positive : 0 < right.i) :
    ((left.mul right).i : ℚ) * takerWorth right ≤ left.i + takerWorth right / 2 := by
  have nonneg : 0 ≤ left.i * right.i := Int.mul_nonneg leftNonneg positive.le
  have bound : ((precisionReuse * (left.mul right).i : ℤ) : ℚ) ≤
      (left.i * right.i + fivePrecision : ℤ) := by
    exact_mod_cast Rounding.unit_mul_halfEven_le precisionReuse_eq nonneg
  have rightPos : (0 : ℚ) < right.i := by exact_mod_cast positive
  push_cast at bound
  rw [fivePrecision_cast] at bound
  unfold takerWorth
  rw [← mul_le_mul_iff_right₀ rightPos]
  calc (right.i : ℚ) * ((left.mul right).i * (precisionReuse / right.i))
      = precisionReuse * (left.mul right).i := by field_simp
    _ ≤ left.i * right.i + precisionReuse / 2 := bound
    _ = _ := by field_simp

theorem le_mul_worth (leftNonneg : 0 ≤ left.i) (positive : 0 < right.i) :
    (left.i : ℚ) ≤ (left.mul right).i * takerWorth right + takerWorth right / 2 := by
  have bound : ((left.i * right.i : ℤ) : ℚ) ≤
      (precisionReuse * (left.mul right).i + fivePrecision : ℤ) := by
    exact_mod_cast le_mul leftNonneg positive.le
  have rightPos : (0 : ℚ) < right.i := by exact_mod_cast positive
  push_cast at bound
  rw [fivePrecision_cast] at bound
  unfold takerWorth
  rw [← mul_le_mul_iff_right₀ rightPos]
  calc (right.i : ℚ) * left.i = left.i * right.i := by ring
    _ ≤ precisionReuse * (left.mul right).i + precisionReuse / 2 := bound
    _ = _ := by field_simp

theorem tdiv_bounds {amount count : ℤ} (nonneg : 0 ≤ amount) (positive : 0 < count) :
    (amount.tdiv count * count : ℚ) ≤ amount ∧
      (amount : ℚ) ≤ (amount.tdiv count + 1) * count := by
  rw [Int.tdiv_eq_ediv_of_nonneg nonneg]
  constructor
  · exact_mod_cast Int.ediv_mul_le amount positive.ne'
  · have bound := Int.lt_ediv_add_one_mul_self amount positive
    exact_mod_cast bound.le

end Rounding

def Maker.account (makerPrice : PrecDec) (maker : Maker) : Prorata.Account ℚ where
  share := maker.user.sharesOwned
  drawn := maker.user.decSharesWithdrawn.i
  paid := maker.takerPaid.i * takerWorth makerPrice

/-- A tranche as a pot; `settled` are the shares of makers who were paid in full by
withdrawals and have no record any more. -/
def LimitOrderTranche.pot (tranche : LimitOrderTranche) (makers : SortedStore String Maker)
    (settled : ℚ) : Prorata.Pot String ℚ where
  kept := tranche.decReservesMakerDenom.i
  gained := tranche.decReservesTakerDenom.i * takerWorth tranche.makerPrice
  filled := tranche.decTotalTakerDenom.i * takerWorth tranche.makerPrice
  total := tranche.totalMakerDenom
  settled := settled
  accounts := makers.mapValues fun _ maker => maker.account tranche.makerPrice

def slack (makerPrice : PrecDec) (total : Int) : ℚ := 1 + takerWorth makerPrice + total

namespace LimitOrderTranche

variable {tranche : LimitOrderTranche} {maker : Maker} {makers : SortedStore String Maker}
  {settled tolerance : ℚ}

theorem ratioFilled_eq_ok {ratio : PrecDec} (ok : tranche.ratioFilled = .ok ratio) :
    ∃ amountFilled, tranche.decTotalTakerDenom.quo tranche.makerPrice = .ok amountFilled ∧
      ratio.i = min (amountFilled.i.tdiv tranche.totalMakerDenom) precisionReuse := by
  obtain ⟨amountFilled, filled, ok⟩ := of_bind ok
  obtain ⟨exactRatio, divided, ok⟩ := of_bind ok
  rw [Outcome.pure_eq_ok_iff] at ok
  have isRatio := (quoInt_eq_ok_iff.mp divided).2
  refine ⟨amountFilled, filled, ?_⟩
  rw [← ok, minPrecDec_i, onePrecDec_i, isRatio]

variable {shares takerOut : PrecDec}

theorem calcWithdrawAmount_values {user : LimitOrderTrancheUser}
    (taker : 0 ≤ tranche.decReservesTakerDenom.i)
    (ok : tranche.calcWithdrawAmount user = .ok (shares, takerOut)) :
    ∃ ratio, tranche.ratioFilled = .ok ratio ∧
      shares.i = max (ratio.i * user.sharesOwned - user.decSharesWithdrawn.i) 0 ∧
      takerOut.i = min (shares.mul tranche.makerPrice).i tranche.decReservesTakerDenom.i := by
  obtain ⟨ratio, ratioFilled, ok⟩ := of_bind ok
  refine ⟨ratio, ratioFilled, ?_⟩
  dsimp only at ok
  split at ok
  · rename_i nothing
    obtain ⟨rfl, rfl⟩ := Prod.mk.inj ((Outcome.pure_eq_ok_iff _ _).mp ok)
    have zero : (zeroPrecDec.mul tranche.makerPrice).i = 0 := by
      unfold PrecDec.mul
      rw [zeroPrecDec_i, zero_mul]
      rfl
    rw [zero, zeroPrecDec_i]
    exact ⟨(max_eq_right (not_lt.mp nothing)).symm, (min_eq_left taker).symm⟩
  · rename_i positive
    obtain ⟨rfl, rfl⟩ := Prod.mk.inj ((Outcome.pure_eq_ok_iff _ _).mp ok)
    rw [minPrecDec_i]
    exact ⟨(max_eq_left (not_not.mp positive).le).symm, rfl⟩

def Removes (tranche : LimitOrderTranche) (user : LimitOrderTrancheUser)
    (makerOut : PrecDec) : Prop :=
  ∃ amountFilled, tranche.decTotalTakerDenom.quo tranche.makerPrice = .ok amountFilled ∧
    makerOut.i = min ((max 0 (tranche.totalMakerDenom * precisionReuse - amountFilled.i) *
      user.sharesOwned).tdiv tranche.totalMakerDenom) tranche.decReservesMakerDenom.i

variable {makerOut : PrecDec}

theorem removeTokenIn_removes {user : LimitOrderTrancheUser}
    {removed : LimitOrderTranche}
    (ok : tranche.removeTokenIn user = .ok (makerOut, removed)) :
    tranche.Removes user makerOut := by
  obtain ⟨unfilled, isUnfilled, ok⟩ := of_bind ok
  obtain ⟨userAmount, divided, ok⟩ := of_bind ok
  obtain ⟨set, _, ok⟩ := of_bind ok
  obtain ⟨amountFilled, filled, isAmount⟩ := of_bind isUnfilled
  rw [Outcome.pure_eq_ok_iff] at isAmount
  have isUser := (quoInt_eq_ok_iff.mp divided).2
  refine ⟨amountFilled, filled, ?_⟩
  split at ok
  · cases ok
  · have result := (Outcome.pure_eq_ok_iff _ _).mp ok
    rw [← (Prod.mk.inj result).1, minPrecDec_i, isUser, ← isAmount, mulInt_i, maxPrecDec_i]
    rfl

section Shares

variable (sound : tranche.Sound) (positive : 0 < maker.user.sharesOwned)
  (within : maker.user.sharesOwned ≤ tranche.totalMakerDenom)
  (slackLe : slack tranche.makerPrice tranche.totalMakerDenom ≤ tolerance)

include positive within in
theorem total_cast_pos : (0 : ℚ) < tranche.totalMakerDenom := by
  exact_mod_cast lt_of_lt_of_le positive within

include positive within slackLe in
theorem slack_ge : 2 + takerWorth tranche.makerPrice ≤ tolerance := by
  have one : (1 : ℚ) ≤ tranche.totalMakerDenom := by
    exact_mod_cast Int.add_one_le_iff.mpr (lt_of_lt_of_le positive within)
  unfold slack at slackLe
  linarith

theorem rate_pot_mul (nonzero : (tranche.totalMakerDenom : ℚ) ≠ 0) :
    (tranche.pot makers settled).rate * tranche.totalMakerDenom =
      tranche.decTotalTakerDenom.i * takerWorth tranche.makerPrice :=
  div_mul_cancel₀ _ nonzero

include sound positive within slackLe

theorem ratioFilled_near {ratio : PrecDec} (ok : tranche.ratioFilled = .ok ratio) :
    (ratio.i * maker.user.sharesOwned : ℚ) ≤
        (tranche.pot makers settled).rate * maker.user.sharesOwned + tolerance / 2 ∧
      min (precisionReuse * maker.user.sharesOwned : ℚ)
          ((tranche.pot makers settled).rate * maker.user.sharesOwned) - tolerance ≤
        ratio.i * maker.user.sharesOwned := by
  obtain ⟨amountFilled, filled, isRatio⟩ := ratioFilled_eq_ok ok
  have totalPos := @total_cast_pos tranche maker positive within
  have rate := @rate_pot_mul tranche makers settled totalPos.ne'
  have upper := quo_le_worth filled sound.totalTaker sound.price_pos
  have lower := worth_le_quo filled sound.totalTaker sound.price_pos
  have filledNonneg := quo_nonneg filled sound.totalTaker sound.price_pos.le
  obtain ⟨below, above⟩ := tdiv_bounds filledNonneg (lt_of_lt_of_le positive within)
  have worth := takerWorth_pos sound.price_pos
  have sharePos : (0 : ℚ) < maker.user.sharesOwned := by exact_mod_cast positive
  have shareLe : (maker.user.sharesOwned : ℚ) ≤ tranche.totalMakerDenom := by
    exact_mod_cast within
  have ratioLe : (ratio.i : ℚ) ≤ amountFilled.i.tdiv tranche.totalMakerDenom := by
    rw [isRatio]
    exact_mod_cast min_le_left _ _
  generalize (tranche.pot makers settled).rate = potRate at *
  generalize amountFilled.i.tdiv tranche.totalMakerDenom = exact at *
  unfold slack at slackLe
  constructor
  · have part : ((exact : ℚ) - potRate) * maker.user.sharesOwned ≤ 1 / 2 :=
      mul_part_le sharePos.le shareLe (by norm_num) (by linarith)
    have capped := mul_le_mul_of_nonneg_right ratioLe sharePos.le
    linarith
  · rcases min_choice exact precisionReuse with isMin | isMin
    · have part : (potRate - exact - 1) * maker.user.sharesOwned ≤ 1 :=
        mul_part_le sharePos.le shareLe (by norm_num) (by linarith)
      have least := min_le_right (precisionReuse * maker.user.sharesOwned : ℚ)
        (potRate * maker.user.sharesOwned)
      rw [isRatio, isMin]
      linarith
    · have least := min_le_left (precisionReuse * maker.user.sharesOwned : ℚ)
        (potRate * maker.user.sharesOwned)
      rw [isRatio, isMin, Int.cast_natCast]
      linarith

theorem calcWithdrawAmount_draws
    (drawnLe : maker.user.decSharesWithdrawn.i ≤ precisionReuse * maker.user.sharesOwned)
    (ok : tranche.calcWithdrawAmount maker.user = .ok (shares, takerOut)) :
    (tranche.pot makers settled).Draws precisionReuse tolerance
      (maker.account tranche.makerPrice)
      (maker.user.decSharesWithdrawn.i + shares.i)
      (takerOut.i * takerWorth tranche.makerPrice) := by
  obtain ⟨ratio, ratioFilled, isShares, isTaker⟩ := calcWithdrawAmount_values sound.taker ok
  obtain ⟨ratioLe, ratioGe⟩ := @ratioFilled_near tranche maker makers settled tolerance
    sound positive within slackLe ratio ratioFilled
  have worth := takerWorth_pos sound.price_pos
  have most := slack_ge positive within slackLe
  have sharePos : (0 : ℚ) < maker.user.sharesOwned := by exact_mod_cast positive
  have capped := mul_le_mul_of_nonneg_right (ratioFilled_le ratioFilled) positive.le
  have sharesNonneg : 0 ≤ shares.i := by omega
  have paidUpper := mul_worth_le sharesNonneg sound.price_pos
  have paidLower := le_mul_worth sharesNonneg sound.price_pos
  have paidNonneg := PrecDec.mul_nonneg sharesNonneg sound.price_pos.le
  have total : (maker.user.decSharesWithdrawn.i : ℚ) + shares.i =
      max (maker.user.decSharesWithdrawn.i : ℚ) (ratio.i * maker.user.sharesOwned) := by
    have drawn : maker.user.decSharesWithdrawn.i + shares.i =
        max maker.user.decSharesWithdrawn.i (ratio.i * maker.user.sharesOwned) := by omega
    exact_mod_cast drawn
  have taken : takerOut.i ≤ (shares.mul tranche.makerPrice).i := by omega
  refine {
    drawn_ge := le_add_of_nonneg_right (by exact_mod_cast sharesNonneg)
    drawn_le_unit := ?_
    drawn_le := ?_
    drawn_near := ?_
    value_nonneg := ?_
    value_le_gained := ?_
    value_le := ?_
    value_near := ?_ }
  · change _ ≤ (precisionReuse : ℚ) * maker.user.sharesOwned
    rw [total]
    exact max_le (by exact_mod_cast drawnLe) (by exact_mod_cast capped)
  · rw [total]
    exact max_le_max le_rfl ratioLe
  · rw [total]
    exact le_trans ratioGe (le_max_right _ _)
  · have out : 0 ≤ takerOut.i := by
      have reserves := sound.taker
      omega
    exact mul_nonneg (by exact_mod_cast out) worth.le
  · have out : takerOut.i ≤ tranche.decReservesTakerDenom.i := by omega
    exact mul_le_mul_of_nonneg_right (by exact_mod_cast out) worth.le
  · have out := mul_le_mul_of_nonneg_right
      (show (takerOut.i : ℚ) ≤ (shares.mul tranche.makerPrice).i by exact_mod_cast taken)
      worth.le
    change _ ≤ _ - (maker.user.decSharesWithdrawn.i : ℚ) + _
    linarith
  · rcases min_choice (shares.mul tranche.makerPrice).i tranche.decReservesTakerDenom.i
      with isMin | isMin
    · refine le_trans (min_le_left _ _) ?_
      rw [isTaker, isMin]
      change _ - (maker.user.decSharesWithdrawn.i : ℚ) - _ ≤ _
      linarith
    · refine le_trans (min_le_right _ _) ?_
      rw [isTaker, isMin]
      exact le_rfl

theorem Removes.returns (removes : tranche.Removes maker.user makerOut) :
    (tranche.pot makers settled).Returns precisionReuse tolerance
      (maker.account tranche.makerPrice) makerOut.i := by
  obtain ⟨amountFilled, filled, isOut⟩ := removes
  have totalPos := @total_cast_pos tranche maker positive within
  have rate := @rate_pot_mul tranche makers settled totalPos.ne'
  have upper := quo_le_worth filled sound.totalTaker sound.price_pos
  have lower := worth_le_quo filled sound.totalTaker sound.price_pos
  have worth := takerWorth_pos sound.price_pos
  have most := slack_ge positive within slackLe
  have sharePos : (0 : ℚ) < maker.user.sharesOwned := by exact_mod_cast positive
  have shareLe : (maker.user.sharesOwned : ℚ) ≤ tranche.totalMakerDenom := by
    exact_mod_cast within
  have unfilledNonneg :
      0 ≤ max 0 (tranche.totalMakerDenom * precisionReuse - amountFilled.i) := le_max_left _ _
  have productNonneg := Int.mul_nonneg unfilledNonneg positive.le
  have userNonneg := Int.tdiv_nonneg productNonneg (le_of_lt (lt_of_lt_of_le positive within))
  obtain ⟨below, above⟩ := tdiv_bounds productNonneg (lt_of_lt_of_le positive within)
  have reserves := sound.maker
  -- the part of the pot that is not filled
  have isRest : max ((precisionReuse : ℚ) - (tranche.pot makers settled).rate) 0 *
      tranche.totalMakerDenom = max (tranche.totalMakerDenom * precisionReuse -
        tranche.decTotalTakerDenom.i * takerWorth tranche.makerPrice) 0 := by
    rw [max_mul_of_nonneg _ _ totalPos.le, zero_mul, ← rate]
    ring_nf
  push_cast at below above
  generalize isMax : max ((precisionReuse : ℚ) - (tranche.pot makers settled).rate) 0 = rest
    at *
  generalize (max 0 (tranche.totalMakerDenom * precisionReuse - amountFilled.i) *
    maker.user.sharesOwned).tdiv tranche.totalMakerDenom = userAmount at *
  have unfilledLe : max 0 ((tranche.totalMakerDenom : ℚ) * precisionReuse - amountFilled.i) ≤
      rest * tranche.totalMakerDenom + 1 := by
    rw [isRest]
    refine max_le ?_ ?_
    · linarith [le_max_right ((tranche.totalMakerDenom : ℚ) * precisionReuse -
        tranche.decTotalTakerDenom.i * takerWorth tranche.makerPrice) 0]
    · linarith [le_max_left ((tranche.totalMakerDenom : ℚ) * precisionReuse -
        tranche.decTotalTakerDenom.i * takerWorth tranche.makerPrice) 0]
  have unfilledGe : rest * tranche.totalMakerDenom ≤
      max 0 ((tranche.totalMakerDenom : ℚ) * precisionReuse - amountFilled.i) + 1 / 2 := by
    rw [isRest]
    refine max_le ?_ ?_
    · linarith [le_max_right 0 ((tranche.totalMakerDenom : ℚ) * precisionReuse -
        amountFilled.i)]
    · linarith [le_max_left 0 ((tranche.totalMakerDenom : ℚ) * precisionReuse -
        amountFilled.i)]
  generalize max 0 ((tranche.totalMakerDenom : ℚ) * precisionReuse - amountFilled.i) =
    unfilled at *
  have userLe : (userAmount : ℚ) ≤ maker.user.sharesOwned * rest + 1 := by
    have product := mul_le_mul_of_nonneg_right unfilledLe sharePos.le
    refine le_of_mul_le_mul_right ?_ totalPos
    linarith
  have userGe : maker.user.sharesOwned * rest - 3 / 2 ≤ (userAmount : ℚ) := by
    have product := mul_le_mul_of_nonneg_right unfilledGe sharePos.le
    refine le_of_mul_le_mul_right ?_ totalPos
    linarith
  have outLe : makerOut.i ≤ userAmount := by omega
  have outLeCast : (makerOut.i : ℚ) ≤ userAmount := by exact_mod_cast outLe
  refine ⟨?_, ?_, ?_, ?_⟩
  · have out : 0 ≤ makerOut.i := by omega
    exact_mod_cast out
  · have out : makerOut.i ≤ tranche.decReservesMakerDenom.i := by omega
    exact Int.cast_le.mpr out
  · rw [isMax]
    change (makerOut.i : ℚ) ≤ maker.user.sharesOwned * rest + _
    linarith
  · rcases min_choice userAmount tranche.decReservesMakerDenom.i with isMin | isMin
    · refine le_trans (min_le_left _ _) ?_
      rw [isOut, isMin, isMax]
      change (maker.user.sharesOwned : ℚ) * rest - _ ≤ _
      linarith
    · refine le_trans (min_le_right _ _) ?_
      rw [isOut, isMin]
      exact le_rfl

end Shares

theorem swap_near {maxIn inAmount outAmount : PrecDec} {maxOut : Option PrecDec}
    {swapped : LimitOrderTranche} (sound : tranche.Sound) (inNonneg : 0 ≤ maxIn.i)
    (outNonneg : ∀ limit ∈ maxOut, 0 ≤ limit.i)
    (ok : tranche.swap maxIn maxOut = .ok (inAmount, outAmount, swapped)) :
    (outAmount.i : ℚ) ≤ inAmount.i * takerWorth tranche.makerPrice +
      (1 + takerWorth tranche.makerPrice) / 2 := by
  have worth := takerWorth_pos sound.price_pos
  obtain ⟨trade, _⟩ := swap_eq_traded sound inNonneg outNonneg ok
  obtain ⟨affordable, division, amounts⟩ := of_bind (swap_eq_ok_iff.mp ok).1
  obtain ⟨isPaid, isBought⟩ := Prod.mk.inj ((Outcome.pure_eq_ok_iff _ _).mp amounts)
  have boughtLe : outAmount.i ≤ affordable.i := by
    rw [← isBought]
    refine minPrecDecArr_le maxOut.toList ?_
    dsimp only
    split
    · exact le_rfl
    · exact not_lt.mp (by assumption)
  rw [isBought] at isPaid
  have isPaidValue : inAmount.i = min (tranche.makerPrice.mul outAmount).i maxIn.i := by
    rw [← isPaid, minPrecDec_i]
  rcases min_choice (tranche.makerPrice.mul outAmount).i maxIn.i with isMin | isMin
  · have cost := le_mul_worth trade.out_nonneg sound.price_pos
    have swapped : outAmount.mul tranche.makerPrice = tranche.makerPrice.mul outAmount := by
      unfold PrecDec.mul
      rw [mul_comm]
    rw [swapped, ← isMin, ← isPaidValue] at cost
    linarith
  · have afford := quo_le_worth division inNonneg sound.price_pos
    have boughtCast : (outAmount.i : ℚ) ≤ affordable.i := by exact_mod_cast boughtLe
    rw [isPaidValue, isMin]
    linarith

end LimitOrderTranche

end Neutron.Dex
