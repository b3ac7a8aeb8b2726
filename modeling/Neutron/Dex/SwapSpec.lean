import Neutron.Dex.BookInvariant
import Neutron.Dex.Swap

namespace Neutron.Dex

open Library PrecDec

theorem minPrecDecArr_cons (first value : PrecDec) (rest : List PrecDec) :
    minPrecDecArr first (value :: rest) =
      minPrecDecArr (if value < first then value else first) rest := rfl

variable {first : PrecDec}

theorem minPrecDecArr_le {bound : PrecDec} (rest : List PrecDec)
    (below : first.i ≤ bound.i) : (minPrecDecArr first rest).i ≤ bound.i := by
  induction rest generalizing first with
  | nil => exact below
  | cons value rest ih =>
      rw [minPrecDecArr_cons]
      apply ih
      split
      · rename_i smaller
        exact le_trans (le_of_lt smaller) below
      · exact below

theorem minPrecDecArr_le_of_mem {value : PrecDec} {rest : List PrecDec}
    (member : value ∈ rest) : (minPrecDecArr first rest).i ≤ value.i := by
  induction rest generalizing first with
  | nil => exact absurd member List.not_mem_nil
  | cons head rest ih =>
      rw [minPrecDecArr_cons]
      rcases List.mem_cons.mp member with rfl | later
      · apply minPrecDecArr_le
        split
        · exact le_refl _
        · rename_i notSmaller
          exact not_lt_iff.mp notSmaller
      · exact ih later

theorem minPrecDecArr_mem (first : PrecDec) (rest : List PrecDec) :
    minPrecDecArr first rest ∈ first :: rest := by
  induction rest generalizing first with
  | nil => exact List.mem_singleton.mpr rfl
  | cons value rest ih =>
      rw [minPrecDecArr_cons, List.mem_cons, List.mem_cons]
      rcases List.mem_cons.mp (ih (if value < first then value else first)) with
        isFirst | inRest
      · rw [isFirst]
        split
        · exact .inr (.inl rfl)
        · exact .inl rfl
      · exact .inr (.inr inRest)

theorem quo_rest_lt_one {amountIn price bought spent affordable : PrecDec}
    (positive : 0 < price.i) (nonneg : 0 ≤ amountIn.i)
    (division : amountIn.quo price = .ok bought)
    (cost : spent = minPrecDec (price.mul bought) amountIn)
    (rest : (amountIn - spent).quo price = .ok affordable) :
    affordable < onePrecDec := by
  have boughtNonneg := quo_nonneg division nonneg (le_of_lt positive)
  have spentValue : spent.i = min (price.mul bought).i amountIn.i := by
    rw [cost, minPrecDec_i]
  have restNonneg : 0 ≤ (amountIn - spent).i := by
    rw [sub_i, spentValue]
    omega
  have boughtBound := lt_mul_quo division nonneg positive
  have restBound := mul_quo_le rest restNonneg positive
  have costBound : price.i * bought.i ≤
      precisionReuse * (price.mul bought).i + fivePrecision :=
    le_mul (le_of_lt positive) boughtNonneg
  rw [lt_def, onePrecDec_i]
  by_contra large
  have scaled : price.i * (precisionReuse * precisionReuse) ≤
      price.i * (precisionReuse * affordable.i) :=
    mul_le_mul_of_nonneg_left
      (mul_le_mul_of_nonneg_left (not_lt.mp large) (Int.natCast_nonneg _))
      (le_of_lt positive)
  have unitValue : (precisionReuse : Int) = 10 ^ 27 := by decide
  have halfValue : (fivePrecision : Int) = 5 * 10 ^ 26 := by decide
  have squareValue : ((precisionReuse * precisionReuse : Nat) : Int) = 10 ^ 54 := by
    decide
  rw [squareValue, unitValue, halfValue, mul_add, mul_left_comm] at boughtBound
  rw [sub_i, squareValue, unitValue, halfValue] at restBound
  rw [unitValue] at scaled
  rw [unitValue, halfValue] at costBound
  omega

/-- The amounts traded with one offer.  An offer is only left with reserves if
the taker cannot afford one more unit or has reached its own limit. -/
structure Trade (reserves price maxIn : PrecDec) (maxOut : Option PrecDec)
    (inAmount outAmount : PrecDec) : Prop where
  in_nonneg : 0 ≤ inAmount.i
  in_le : inAmount.i ≤ maxIn.i
  out_nonneg : 0 ≤ outAmount.i
  out_le : outAmount.i ≤ reserves.i
  in_zero : outAmount.i = 0 → inAmount.i = 0
  exhausts : ∀ affordable, (maxIn - inAmount).quo price = .ok affordable →
    ¬ affordable < onePrecDec → (∀ limit ∈ maxOut, limit.i ≠ outAmount.i) →
      outAmount = reserves

variable {reserves maxIn : PrecDec} {maxOut : Option PrecDec}

theorem calcSwapAmounts_trade {price inAmount outAmount : PrecDec}
    (reservesNonneg : 0 ≤ reserves.i)
    (pricePositive : 0 < price.i) (inNonneg : 0 ≤ maxIn.i)
    (outNonneg : ∀ limit ∈ maxOut, 0 ≤ limit.i)
    (computed : calcSwapAmounts reserves price maxIn maxOut =
      .ok (inAmount, outAmount)) :
    Trade reserves price maxIn maxOut inAmount outAmount := by
  obtain ⟨affordableOut, division, rest⟩ := of_bind computed
  have amounts := (Outcome.pure_eq_ok_iff _ _).mp rest
  have outValue : outAmount =
      minPrecDecArr reserves (affordableOut :: maxOut.toList) :=
    (congrArg Prod.snd amounts).symm
  have inValue : inAmount = minPrecDec (price.mul outAmount) maxIn := by
    rw [outValue]
    exact (congrArg Prod.fst amounts).symm
  have member := minPrecDecArr_mem reserves (affordableOut :: maxOut.toList)
  rw [← outValue, List.mem_cons, List.mem_cons, Option.mem_toList] at member
  have affordableNonneg := quo_nonneg division inNonneg (le_of_lt pricePositive)
  have outPositive : 0 ≤ outAmount.i := by
    rcases member with isReserves | isAffordable | isLimit
    · rw [isReserves]
      exact reservesNonneg
    · rw [isAffordable]
      exact affordableNonneg
    · exact outNonneg outAmount isLimit
  have costNonneg := PrecDec.mul_nonneg (le_of_lt pricePositive) outPositive
  have inAmountValue : inAmount.i = min (price.mul outAmount).i maxIn.i := by
    rw [inValue, minPrecDec_i]
  exact {
    in_nonneg := by omega
    in_le := by omega
    out_nonneg := outPositive
    out_le := by
      rw [outValue]
      exact minPrecDecArr_le _ (le_refl _)
    in_zero := by
      intro nothing
      have free : (price.mul outAmount).i = 0 := by
        rw [show outAmount = zeroPrecDec from PrecDec.ext nothing, mul_zeroPrecDec,
          zeroPrecDec_i]
      omega
    exhausts := by
      intro affordable restDivision enough notLimit
      rcases member with isReserves | isAffordable | isLimit
      · exact isReserves
      · rw [isAffordable] at inValue
        exact absurd (quo_rest_lt_one pricePositive inNonneg division inValue
          restDivision) enough
      · exact absurd rfl (notLimit outAmount isLimit) }

theorem trade_zero {price : PrecDec}
    (reservesNonneg : 0 ≤ reserves.i) (inNonneg : 0 ≤ maxIn.i)
    (nothing : maxIn.IsZero ∨ reserves.IsZero) :
    Trade reserves price maxIn maxOut zeroPrecDec zeroPrecDec where
  in_nonneg := le_refl 0
  in_le := inNonneg
  out_nonneg := le_refl 0
  out_le := reservesNonneg
  in_zero _ := rfl
  exhausts := by
    intro affordable division enough _
    rcases nothing with noIn | noReserves
    · have value := (quo_eq_ok_iff.mp division).2
      have zero : (maxIn - zeroPrecDec).i = 0 := by
        rw [sub_i, zeroPrecDec_i, sub_zero]
        exact noIn
      rw [zero, zero_mul, Int.zero_tdiv] at value
      exact absurd (show affordable.i < precisionReuse by rw [value]; decide) enough
    · exact PrecDec.ext noReserves.symm

namespace Pool

variable (pool : Pool) (tradePairID : TradePairID)

def makerSide : PoolReserves :=
  if tradePairID.IsMakerDenomToken0 then pool.lowerTick0 else pool.upperTick1

def takerSide : PoolReserves :=
  if tradePairID.IsMakerDenomToken0 then pool.upperTick1 else pool.lowerTick0

def traded (inAmount outAmount : PrecDec) : Pool :=
  let maker := { pool.makerSide tradePairID with
    decReservesMakerDenom :=
      (pool.makerSide tradePairID).decReservesMakerDenom - outAmount }
  let taker := { pool.takerSide tradePairID with
    decReservesMakerDenom :=
      (pool.takerSide tradePairID).decReservesMakerDenom + inAmount }
  if tradePairID.IsMakerDenomToken0 then
    { pool with lowerTick0 := maker, upperTick1 := taker }
  else
    { pool with lowerTick0 := taker, upperTick1 := maker }

theorem traded_zero : pool.traded tradePairID zeroPrecDec zeroPrecDec = pool := by
  have zero : zeroPrecDec = 0 := rfl
  unfold traded makerSide takerSide
  rw [zero]
  split <;> simp

variable {pool tradePairID} {inAmount outAmount : PrecDec} {swapped : Pool}

/-- A swap that buys nothing only if there is nothing to pay or to buy. -/
theorem swap_eq_ok_iff :
    pool.swap tradePairID maxIn maxOut = .ok (inAmount, outAmount, swapped) ↔
      if maxIn.IsZero ∨ (pool.makerSide tradePairID).decReservesMakerDenom.IsZero then
        (zeroPrecDec, zeroPrecDec, pool) = (inAmount, outAmount, swapped)
      else
        calcSwapAmounts (pool.makerSide tradePairID).decReservesMakerDenom
            (pool.makerSide tradePairID).makerPrice maxIn maxOut = .ok (inAmount, outAmount) ∧
          0 ≤ ((pool.takerSide tradePairID).decReservesMakerDenom + inAmount).i ∧
          0 ≤ ((pool.makerSide tradePairID).decReservesMakerDenom - outAmount).i ∧
          swapped = pool.traded tradePairID inAmount outAmount := by
  change ite (maxIn.IsZero ∨ (pool.makerSide tradePairID).decReservesMakerDenom.IsZero)
    _ _ = _ ↔ _
  split
  · exact Outcome.pure_eq_ok_iff _ _
  · constructor
    · intro ok
      obtain ⟨⟨paid, bought⟩, amounts, ok⟩ := of_bind ok
      obtain ⟨taker, takerSet, ok⟩ := of_bind ok
      obtain ⟨maker, makerSet, ok⟩ := of_bind ok
      obtain ⟨takerNonneg, rfl⟩ := unlessNegative_eq_ok_iff.mp takerSet
      obtain ⟨makerNonneg, rfl⟩ := unlessNegative_eq_ok_iff.mp makerSet
      cases ok
      exact ⟨amounts, takerNonneg, makerNonneg, rfl⟩
    · rintro ⟨amounts, takerNonneg, makerNonneg, rfl⟩
      refine (Outcome.bind_eq_ok_iff _ _ _).mpr ⟨_, amounts, ?_⟩
      refine (Outcome.bind_eq_ok_iff _ _ _).mpr
        ⟨_, unlessNegative_eq_ok_iff.mpr ⟨takerNonneg, rfl⟩, ?_⟩
      exact (Outcome.bind_eq_ok_iff _ _ _).mpr
        ⟨_, unlessNegative_eq_ok_iff.mpr ⟨makerNonneg, rfl⟩, rfl⟩

theorem swap_eq_traded
    (reservesNonneg : 0 ≤ (pool.makerSide tradePairID).decReservesMakerDenom.i)
    (pricePositive : 0 < (pool.makerSide tradePairID).makerPrice.i)
    (inNonneg : 0 ≤ maxIn.i) (outNonneg : ∀ limit ∈ maxOut, 0 ≤ limit.i)
    (ok : pool.swap tradePairID maxIn maxOut = .ok (inAmount, outAmount, swapped)) :
    Trade (pool.makerSide tradePairID).decReservesMakerDenom
        (pool.makerSide tradePairID).makerPrice maxIn maxOut inAmount outAmount ∧
      swapped = pool.traded tradePairID inAmount outAmount := by
  rw [swap_eq_ok_iff] at ok
  split at ok
  · rename_i nothing
    cases ok
    exact ⟨trade_zero reservesNonneg inNonneg nothing, (traded_zero _ _).symm⟩
  · obtain ⟨amounts, _, _, isTraded⟩ := ok
    exact ⟨calcSwapAmounts_trade reservesNonneg pricePositive inNonneg outNonneg amounts,
      isTraded⟩

end Pool

namespace LimitOrderTranche

variable {tranche : LimitOrderTranche}

def traded (tranche : LimitOrderTranche) (inAmount outAmount : PrecDec) :
    LimitOrderTranche :=
  { tranche with
    decReservesMakerDenom := tranche.decReservesMakerDenom - outAmount
    decReservesTakerDenom := tranche.decReservesTakerDenom + inAmount
    decTotalTakerDenom := tranche.decTotalTakerDenom + inAmount }

variable {inAmount outAmount : PrecDec} {swapped : LimitOrderTranche}

theorem swap_eq_ok_iff :
    tranche.swap maxIn maxOut = .ok (inAmount, outAmount, swapped) ↔
      calcSwapAmounts tranche.decReservesMakerDenom tranche.makerPrice maxIn maxOut =
          .ok (inAmount, outAmount) ∧
        0 ≤ (tranche.decReservesTakerDenom + inAmount).i ∧
        0 ≤ (tranche.decReservesMakerDenom - outAmount).i ∧
        0 ≤ (tranche.decTotalTakerDenom + inAmount).i ∧
        swapped = tranche.traded inAmount outAmount := by
  constructor
  · intro ok
    obtain ⟨⟨paid, bought⟩, amounts, ok⟩ := of_bind ok
    obtain ⟨filled, filledSet, ok⟩ := of_bind ok
    obtain ⟨drained, drainedSet, ok⟩ := of_bind ok
    obtain ⟨counted, countedSet, ok⟩ := of_bind ok
    obtain ⟨takerNonneg, rfl⟩ := unlessNegative_eq_ok_iff.mp filledSet
    obtain ⟨makerNonneg, rfl⟩ := unlessNegative_eq_ok_iff.mp drainedSet
    obtain ⟨totalNonneg, rfl⟩ := unlessNegative_eq_ok_iff.mp countedSet
    cases ok
    exact ⟨amounts, takerNonneg, makerNonneg, totalNonneg, rfl⟩
  · rintro ⟨amounts, takerNonneg, makerNonneg, totalNonneg, rfl⟩
    refine (Outcome.bind_eq_ok_iff _ _ _).mpr ⟨_, amounts, ?_⟩
    refine (Outcome.bind_eq_ok_iff _ _ _).mpr
      ⟨_, unlessNegative_eq_ok_iff.mpr ⟨takerNonneg, rfl⟩, ?_⟩
    refine (Outcome.bind_eq_ok_iff _ _ _).mpr
      ⟨_, unlessNegative_eq_ok_iff.mpr ⟨makerNonneg, rfl⟩, ?_⟩
    exact (Outcome.bind_eq_ok_iff _ _ _).mpr
      ⟨_, unlessNegative_eq_ok_iff.mpr ⟨totalNonneg, rfl⟩, rfl⟩

theorem swap_eq_traded (sound : tranche.Sound)
    (inNonneg : 0 ≤ maxIn.i) (outNonneg : ∀ limit ∈ maxOut, 0 ≤ limit.i)
    (ok : tranche.swap maxIn maxOut = .ok (inAmount, outAmount, swapped)) :
    Trade tranche.decReservesMakerDenom tranche.makerPrice maxIn maxOut
        inAmount outAmount ∧
      swapped = tranche.traded inAmount outAmount := by
  obtain ⟨amounts, _, _, _, isTraded⟩ := swap_eq_ok_iff.mp ok
  exact ⟨calcSwapAmounts_trade sound.maker sound.price_pos inNonneg outNonneg amounts,
    isTraded⟩

end LimitOrderTranche

end Neutron.Dex
