import Mathlib.Tactic.LinearCombination
import Neutron.Dex.PoolMessages
import Neutron.Dex.SwapFairness

namespace Neutron.Dex

open Library PrecDec

/-- Two amounts as an amount of `token0`, in exact arithmetic. -/
def worthAsToken0 (price1To0 amount0 amount1 : PrecDec) : ℚ :=
  amount0.value + amount1.value / price1To0.value

section Amounts

variable {price amount0 amount1 : PrecDec}

theorem worthAsToken0_nonneg (positive : 0 < price.i) (nonneg0 : 0 ≤ amount0.i)
    (nonneg1 : 0 ≤ amount1.i) : 0 ≤ worthAsToken0 price amount0 amount1 :=
  add_nonneg (value_nonneg_iff.mpr nonneg0)
    (div_nonneg (value_nonneg_iff.mpr nonneg1) (value_pos_iff.mpr positive).le)

/-- `CalcAmountAsToken0` is off by the rounding of one quotient. -/
structure ValuedAsToken0 (price amount0 amount1 value : PrecDec) : Prop where
  nonneg : 0 ≤ value.i
  le_worth : value.value ≤ worthAsToken0 price amount0 amount1 + smallest / 2
  worth_le : worthAsToken0 price amount0 amount1 ≤ value.value + smallest

theorem calcAmountAsToken0_valued {value : PrecDec} (positive : 0 < price.i)
    (nonneg0 : 0 ≤ amount0.i) (nonneg1 : 0 ≤ amount1.i)
    (ok : calcAmountAsToken0 amount0 amount1 price = .ok value) :
    ValuedAsToken0 price amount0 amount1 value := by
  obtain ⟨converted, division, ok⟩ := of_bind ok
  cases ok
  have convertedNonneg := quo_nonneg division nonneg1 positive.le
  have upper := quo_value_le division nonneg1 positive
  have lower := lt_quo_value division nonneg1 positive
  have square : smallest ^ 2 ≤ smallest / 2 := by norm_num [smallest]
  refine ⟨?_, ?_, ?_⟩
  · rw [add_i]
    omega
  · rw [value_add, worthAsToken0]
    linarith
  · rw [value_add, worthAsToken0]
    linarith

theorem ceil_nonneg {amount : PrecDec} (nonneg : 0 ≤ amount.i) : 0 ≤ amount.ceil.i := by
  have quotient : 0 ≤ amount.i.tdiv precisionReuse :=
    Int.tdiv_nonneg nonneg (Int.natCast_nonneg _)
  have unitNonneg := Int.natCast_nonneg precisionReuse
  unfold ceil
  dsimp only
  split
  · exact Int.mul_nonneg quotient unitNonneg
  · exact Int.mul_nonneg (by omega) unitNonneg

theorem calcAutoswapAmount_nonneg {reserves0 reserves1 residual0 residual1 : PrecDec}
    (positive : 0 < price.i)
    (ok : calcAutoswapAmount reserves0 reserves1 amount0 amount1 price =
      .ok (residual0, residual1)) : 0 ≤ residual0.i ∧ 0 ≤ residual1.i := by
  unfold calcAutoswapAmount at ok
  split at ok
  · cases ok
    exact ⟨le_refl _, le_refl _⟩
  · obtain ⟨reserves1As0, _, ok⟩ := of_bind ok
    obtain ⟨swapAmount, _, ok⟩ := of_bind ok
    split at ok
    · cases ok
      exact ⟨le_refl _, le_refl _⟩
    · split at ok
      · rename_i swapsToken1
        cases ok
        exact ⟨le_refl _, ceil_nonneg swapsToken1.le⟩
      · rename_i notPositive
        obtain ⟨swapped0, division, ok⟩ := of_bind ok
        cases ok
        have negated : 0 ≤ (-swapAmount).i := by
          rw [neg_i]
          exact Int.neg_nonneg_of_nonpos (not_lt.mp notPositive)
        exact ⟨quo_nonneg division negated positive.le, le_refl _⟩

end Amounts

namespace Pool

variable {pool : Pool} {maxAmount0 maxAmount1 : PrecDec} {autoswap : Bool}

def centerPrice (pool : Pool) : PrecDec := tickPrice (-1 * pool.centerTickIndexToken1)

def worth (pool : Pool) : ℚ :=
  worthAsToken0 pool.centerPrice pool.lowerTick0.decReservesMakerDenom
    pool.upperTick1.decReservesMakerDenom

theorem Proper.centerInside (proper : pool.Proper) :
    ¬ IsTickOutOfRange (-1 * pool.centerTickIndexToken1) := by
  have bounds := validateTickFee_eq_ok_iff.mp proper.valid
  unfold IsTickOutOfRange
  omega

theorem Proper.mustCalcPrice1To0Center_eq (proper : pool.Proper) :
    pool.mustCalcPrice1To0Center = .ok pool.centerPrice :=
  mustCalcPrice_eq_ok_iff.mpr ⟨proper.centerInside, rfl⟩

theorem Proper.centerPrice_pos (proper : pool.Proper) : 0 < pool.centerPrice.i :=
  tickPrice_pos proper.centerInside

theorem Proper.worth_nonneg (proper : pool.Proper) : 0 ≤ pool.worth :=
  worthAsToken0_nonneg proper.centerPrice_pos proper.lowerNonneg proper.upperNonneg

theorem calcAutoswapFee_nonneg {value fee : PrecDec} (nonneg : 0 ≤ value.i)
    (ok : pool.calcAutoswapFee value = .ok fee) : 0 ≤ fee.i := by
  obtain ⟨feeAsPrice, priced, ok⟩ := of_bind ok
  cases ok
  obtain ⟨_, rfl⟩ := mustCalcPrice_eq_ok_iff.mp priced
  apply PrecDec.mul_nonneg _ nonneg
  have atMostOne : (tickPrice (-(pool.fee : Int))).i ≤ precisionReuse :=
    tickPrice_mono (show -(pool.fee : Int) ≤ 0 by omega)
  rw [sub_i, onePrecDec_i]
  omega

theorem calcDepositAmounts_worth {inAmount0 inAmount1 value fee : PrecDec}
    (proper : pool.Proper) (nonneg0 : 0 ≤ maxAmount0.i) (nonneg1 : 0 ≤ maxAmount1.i)
    (ok : pool.calcDepositAmounts maxAmount0 maxAmount1 autoswap =
      .ok (inAmount0, inAmount1, value, fee)) :
    0 ≤ fee.i ∧ value.value + fee.value ≤
      worthAsToken0 pool.centerPrice inAmount0 inAmount1 + smallest / 2 := by
  obtain ⟨in0, in1, _⟩ := calcDepositAmounts_eq_ok proper.lowerNonneg proper.upperNonneg
    nonneg0 nonneg1 ok
  have positive := proper.centerPrice_pos
  obtain ⟨price, priced, ok⟩ := of_bind ok
  rw [proper.mustCalcPrice1To0Center_eq] at priced
  cases priced
  dsimp only at ok
  split at ok
  · obtain ⟨⟨residual0, residual1⟩, residual, ok⟩ := of_bind ok
    obtain ⟨residualValue, valued, ok⟩ := of_bind ok
    obtain ⟨autoswapFee, charged, ok⟩ := of_bind ok
    obtain ⟨fullValue, full, ok⟩ := of_bind ok
    cases ok
    obtain ⟨residual0Nonneg, residual1Nonneg⟩ := calcAutoswapAmount_nonneg positive residual
    have residualValued := calcAmountAsToken0_valued positive residual0Nonneg
      residual1Nonneg valued
    refine ⟨calcAutoswapFee_nonneg residualValued.nonneg charged, ?_⟩
    rw [value_sub, sub_add_cancel]
    exact (calcAmountAsToken0_valued positive nonneg0 nonneg1 full).le_worth
  · obtain ⟨⟨matched0, matched1⟩, _, ok⟩ := of_bind ok
    obtain ⟨depositValue, valued, ok⟩ := of_bind ok
    cases ok
    refine ⟨le_refl _, ?_⟩
    rw [value_zeroPrecDec, add_zero]
    exact (calcAmountAsToken0_valued positive in0.1 in1.1 valued).le_worth

theorem nonneg_of_truncateInt_pos {amount : PrecDec} (positive : 1 ≤ amount.truncateInt) :
    0 ≤ amount.i := by
  by_contra negative
  have truncated := truncateInt_nonpos (not_le.mp negative).le
  omega

theorem calcSharesMinted_mul_worth_le {value fee : PrecDec} {existingShares : Int}
    {minted : Coin} (proper : pool.Proper) (existing : 0 ≤ existingShares)
    (feeNonneg : 0 ≤ fee.i)
    (ok : pool.calcSharesMinted value existingShares fee = .ok minted)
    (atLeastOne : 1 ≤ minted.amount) :
    minted.amount * pool.worth ≤
      value.value * existingShares + smallest / 2 * (pool.worth + smallest / 2) +
        minted.amount * smallest := by
  obtain ⟨price, priced, ok⟩ := of_bind ok
  rw [proper.mustCalcPrice1To0Center_eq] at priced
  cases priced
  obtain ⟨poolValue, valued, ok⟩ := of_bind ok
  obtain ⟨amount, counted, ok⟩ := of_bind ok
  cases ok
  have worthBounds := calcAmountAsToken0_valued proper.centerPrice_pos proper.lowerNonneg
    proper.upperNonneg valued
  have leWorth : poolValue.value ≤ pool.worth + smallest / 2 := worthBounds.le_worth
  have worthLe : pool.worth ≤ poolValue.value + smallest := worthBounds.worth_le
  have worthNonneg := proper.worth_nonneg
  dsimp only at atLeastOne ⊢
  have amountPos : (1 : ℚ) ≤ amount := by exact_mod_cast atLeastOne
  have existingCast : (0 : ℚ) ≤ existingShares := by exact_mod_cast existing
  have feeValue := value_nonneg_iff.mpr feeNonneg
  have smallPos := smallest_pos
  have worthShare : amount * pool.worth ≤ amount * (poolValue.value + smallest) :=
    mul_le_mul_of_nonneg_left worthLe (by linarith)
  unfold calcSharesMintedAmount at counted
  split at counted
  · rename_i valuable
    obtain ⟨shares, division, counted⟩ := of_bind counted
    cases counted
    have totalPositive : 0 < (poolValue + fee).i := by
      rw [add_i]
      exact Int.add_pos_of_pos_of_nonneg valuable feeNonneg
    have sharesNonneg := nonneg_of_truncateInt_pos atLeastOne
    have scaledNonneg : 0 ≤ (value.mulInt existingShares).i := by
      by_contra negative
      have nonpos := quo_nonpos division (not_le.mp negative).le totalPositive.le
      have truncated := truncateInt_nonpos nonpos
      omega
    have rounded := quo_value_le division scaledNonneg totalPositive
    have truncated := truncateInt_le_value sharesNonneg
    have totalValue := value_pos_iff.mpr totalPositive
    have bound : shares.truncateInt * (poolValue + fee).value ≤
        value.value * existingShares + smallest / 2 * (poolValue + fee).value := by
      have scaled := mul_le_mul_of_nonneg_right (le_trans truncated rounded) totalValue.le
      rw [add_mul, div_mul_cancel₀ _ totalValue.ne', value_mulInt] at scaled
      exact scaled
    rw [value_add] at bound
    -- The fee weighs more on the shares than on their rounding.
    have feeCovered : smallest / 2 * fee.value ≤ shares.truncateInt * fee.value := by
      apply mul_le_mul_of_nonneg_right _ feeValue
      have tiny : smallest / 2 ≤ 1 := by norm_num [smallest]
      linarith
    have valueBound : smallest / 2 * poolValue.value ≤
        smallest / 2 * (pool.worth + smallest / 2) :=
      mul_le_mul_of_nonneg_left leWorth (by linarith)
    linarith
  · rename_i worthless
    cases counted
    have valueNonneg := value_nonneg_iff.mpr (nonneg_of_truncateInt_pos atLeastOne)
    have poolValueNonpos : poolValue.value ≤ 0 := by
      rw [← value_zeroPrecDec, value_le_value_iff]
      exact not_lt_iff.mp worthless
    have product := mul_nonneg valueNonneg existingCast
    have slack : 0 ≤ smallest / 2 * (pool.worth + smallest / 2) :=
      mul_nonneg (by linarith) (by linarith)
    have nothing : (value.truncateInt : ℚ) * poolValue.value ≤ 0 :=
      mul_nonpos_of_nonneg_of_nonpos (by linarith) poolValueNonpos
    linarith

theorem redeemSide_value_le {reserves outAmount : PrecDec} {shares totalShares : Int}
    (nonneg : 0 ≤ reserves.i) (sharesNonneg : 0 ≤ shares) (totalPositive : 0 < totalShares)
    (ok : redeemSide reserves shares totalShares = .ok outAmount) :
    outAmount.value ≤ reserves.value * shares / totalShares := by
  obtain ⟨value, quotient, ok⟩ := of_bind ok
  cases ok
  have truncated := quoInt_value_le quotient
    (show 0 ≤ (reserves.mulInt shares).i from Int.mul_nonneg nonneg sharesNonneg) totalPositive
  rw [value_mulInt] at truncated
  refine le_trans ?_ truncated
  rw [value_le_value_iff, minPrecDec_i]
  exact min_le_left _ _

theorem withdraw_worth_le {shares totalShares : Int} {price : PrecDec}
    (pricePositive : 0 < price.i) (lowerNonneg : 0 ≤ pool.lowerTick0.decReservesMakerDenom.i)
    (upperNonneg : 0 ≤ pool.upperTick1.decReservesMakerDenom.i) (sharesNonneg : 0 ≤ shares)
    (totalPositive : 0 < totalShares) :
    ∃ outAmount0 outAmount1 withdrawn,
      pool.withdraw shares totalShares = .ok (outAmount0, outAmount1, withdrawn) ∧
      outAmount0.value ≤ pool.lowerTick0.decReservesMakerDenom.value ∧
      outAmount1.value ≤ pool.upperTick1.decReservesMakerDenom.value ∧
      worthAsToken0 price outAmount0 outAmount1 ≤
        worthAsToken0 price pool.lowerTick0.decReservesMakerDenom
          pool.upperTick1.decReservesMakerDenom * shares / totalShares := by
  obtain ⟨outAmount0, redeem0⟩ : ∃ outAmount, redeemSide
      pool.lowerTick0.decReservesMakerDenom shares totalShares = .ok outAmount :=
    ⟨_, (Outcome.bind_eq_ok_iff _ _ _).mpr ⟨_, if_neg (ne_of_gt totalPositive), rfl⟩⟩
  obtain ⟨outAmount1, redeem1⟩ : ∃ outAmount, redeemSide
      pool.upperTick1.decReservesMakerDenom shares totalShares = .ok outAmount :=
    ⟨_, (Outcome.bind_eq_ok_iff _ _ _).mpr ⟨_, if_neg (ne_of_gt totalPositive), rfl⟩⟩
  obtain ⟨_, within0, _⟩ := redeemSide_eq_ok lowerNonneg sharesNonneg totalPositive.le redeem0
  obtain ⟨_, within1, _⟩ := redeemSide_eq_ok upperNonneg sharesNonneg totalPositive.le redeem1
  have redeemed : pool.redeemValue shares totalShares = .ok (outAmount0, outAmount1) :=
    (Outcome.bind_eq_ok_iff _ _ _).mpr
      ⟨_, redeem1, (Outcome.bind_eq_ok_iff _ _ _).mpr ⟨_, redeem0, rfl⟩⟩
  refine ⟨outAmount0, outAmount1, pool.withReserves
    (pool.lowerTick0.decReservesMakerDenom - outAmount0)
    (pool.upperTick1.decReservesMakerDenom - outAmount1), ?_,
    value_le_value_iff.mpr within0, value_le_value_iff.mpr within1, ?_⟩
  · refine (Outcome.bind_eq_ok_iff _ _ _).mpr ⟨_, redeemed, ?_⟩
    refine (Outcome.bind_eq_ok_iff _ _ _).mpr
      ⟨_, unlessNegative_eq_ok_iff.mpr ⟨Int.sub_nonneg_of_le within0, rfl⟩, ?_⟩
    exact (Outcome.bind_eq_ok_iff _ _ _).mpr
      ⟨_, unlessNegative_eq_ok_iff.mpr ⟨Int.sub_nonneg_of_le within1, rfl⟩, rfl⟩
  · have part0 := redeemSide_value_le lowerNonneg sharesNonneg totalPositive redeem0
    have part1 := redeemSide_value_le upperNonneg sharesNonneg totalPositive redeem1
    have converted := div_le_div_of_nonneg_right part1 (value_pos_iff.mpr pricePositive).le
    unfold worthAsToken0
    calc outAmount0.value + outAmount1.value / price.value
        ≤ _ := add_le_add part0 converted
      _ = _ := by ring

/-- The rounding that a depositor can gain: for an empty pool a few units, and otherwise
in proportion to the worth of a share. -/
def depositSlack (worth : ℚ) (existingShares : Int) : ℚ :=
  if existingShares = 0 then 10 * (1 / 10 ^ 27)
  else 10 * (1 / 10 ^ 27) * (1 + worth / existingShares)

theorem minted_part_le {worth deposit minted : ℚ} {existingShares : Int} (worthNonneg : 0 ≤ worth)
    (existing : 0 ≤ existingShares) (backed : existingShares = 0 → worth = 0)
    (atLeastOne : 1 ≤ minted)
    (fair : minted * worth ≤ (deposit + smallest / 2) * existingShares +
      smallest / 2 * (worth + smallest / 2) + minted * smallest) :
    (worth + deposit) * minted / (existingShares + minted) ≤
      deposit + depositSlack worth existingShares := by
  have existingCast : (0 : ℚ) ≤ existingShares := by exact_mod_cast existing
  rw [div_le_iff₀ (by linarith)]
  unfold depositSlack
  split
  · rename_i none
    rw [backed none, none]
    have slack : 0 ≤ 10 * (1 / 10 ^ 27) * minted := by positivity
    push_cast
    linarith
  · rename_i some
    have existingOne : (1 : ℚ) ≤ existingShares := by
      exact_mod_cast (show 1 ≤ existingShares by omega)
    have perShare : worth / existingShares * existingShares = worth :=
      div_mul_cancel₀ _ (by linarith)
    have perMinted : 0 ≤ worth / existingShares * minted :=
      mul_nonneg (div_nonneg worthNonneg existingCast) (by linarith)
    change _ ≤ (deposit + 10 * smallest * (1 + worth / existingShares)) * _
    have expanded : (deposit + 10 * smallest * (1 + worth / existingShares)) *
        (existingShares + minted) = deposit * existingShares + deposit * minted +
          10 * smallest * (existingShares + minted + worth +
            worth / existingShares * minted) := by
      linear_combination 10 * smallest * perShare
    rw [expanded]
    have tiny : smallest ≤ 1 := by norm_num [smallest]
    have error : smallest / 2 * existingShares + smallest / 2 * (worth + smallest / 2) +
        minted * smallest ≤ 10 * smallest * (existingShares + minted + worth +
          worth / existingShares * minted) := by
      have small := smallest_pos
      have budget : (existingShares : ℚ) / 2 + (worth + smallest / 2) / 2 + minted ≤
          10 * (existingShares + minted + worth + worth / existingShares * minted) := by
        linarith
      have scaled := mul_le_mul_of_nonneg_left budget small.le
      linarith
    linarith

/-- Whoever deposits and redeems the new shares at once gets back no more than was
deposited, up to the slack. -/
theorem deposit_not_dilutive (proper : pool.Proper) {existingShares : Int}
    (existing : 0 ≤ existingShares)
    (backed : existingShares = 0 → pool.lowerTick0.decReservesMakerDenom = zeroPrecDec ∧
      pool.upperTick1.decReservesMakerDenom = zeroPrecDec)
    (nonneg0 : 0 ≤ maxAmount0.i) (nonneg1 : 0 ≤ maxAmount1.i) {result : DepositResult}
    (accepted : pool.deposit maxAmount0 maxAmount1 existingShares autoswap = .ok result)
    (atLeastOne : 1 ≤ result.outShares.amount) :
    ∃ outAmount0 outAmount1 final,
      result.pool.withdraw result.outShares.amount
          (existingShares + result.outShares.amount) = .ok (outAmount0, outAmount1, final) ∧
      outAmount0.value ≤ result.pool.lowerTick0.decReservesMakerDenom.value ∧
      outAmount1.value ≤ result.pool.upperTick1.decReservesMakerDenom.value ∧
      worthAsToken0 pool.centerPrice outAmount0 outAmount1 ≤
        worthAsToken0 pool.centerPrice result.inAmount0 result.inAmount1 +
          depositSlack pool.worth existingShares := by
  have deposits := deposit_deposits proper.lowerNonneg proper.upperNonneg nonneg0 nonneg1
    accepted
  obtain ⟨⟨inAmount0, inAmount1, value, fee⟩, amounts, rest⟩ := of_bind accepted
  obtain ⟨outShares, mint, rest⟩ := of_bind rest
  obtain ⟨lower, setLower, rest⟩ := of_bind rest
  obtain ⟨upper, setUpper, rest⟩ := of_bind rest
  obtain ⟨lowerAfter, rfl⟩ := unlessNegative_eq_ok_iff.mp setLower
  obtain ⟨upperAfter, rfl⟩ := unlessNegative_eq_ok_iff.mp setUpper
  cases rest
  dsimp only at atLeastOne ⊢
  obtain ⟨feeNonneg, counted⟩ := calcDepositAmounts_worth proper nonneg0 nonneg1 amounts
  have fair := calcSharesMinted_mul_worth_le proper existing feeNonneg mint atLeastOne
  obtain ⟨outAmount0, outAmount1, final, withdrawn, within0, within1, worthLe⟩ :=
    @withdraw_worth_le { pool with
      lowerTick0 := { pool.lowerTick0 with
        decReservesMakerDenom := pool.lowerTick0.decReservesMakerDenom + inAmount0 }
      upperTick1 := { pool.upperTick1 with
        decReservesMakerDenom := pool.upperTick1.decReservesMakerDenom + inAmount1 } }
      outShares.amount (existingShares + outShares.amount) pool.centerPrice
      proper.centerPrice_pos lowerAfter upperAfter (by omega) (by omega)
  refine ⟨outAmount0, outAmount1, final, withdrawn, within0, within1, le_trans worthLe ?_⟩
  have joined : worthAsToken0 pool.centerPrice
      (pool.lowerTick0.decReservesMakerDenom + inAmount0)
      (pool.upperTick1.decReservesMakerDenom + inAmount1) =
      pool.worth + worthAsToken0 pool.centerPrice inAmount0 inAmount1 := by
    unfold worth worthAsToken0
    rw [value_add, value_add]
    ring
  have worthless : existingShares = 0 → pool.worth = 0 := by
    intro none
    obtain ⟨noLower, noUpper⟩ := backed none
    unfold worth worthAsToken0
    rw [noLower, noUpper, value_zeroPrecDec]
    simp
  have existingCast : (0 : ℚ) ≤ existingShares := by exact_mod_cast existing
  have feeValue := value_nonneg_iff.mpr feeNonneg
  have valueLe : value.value * existingShares ≤
      (worthAsToken0 pool.centerPrice inAmount0 inAmount1 + smallest / 2) * existingShares :=
    mul_le_mul_of_nonneg_right (by linarith) existingCast
  dsimp only
  rw [joined, Int.cast_add]
  exact minted_part_le proper.worth_nonneg existing worthless (by exact_mod_cast atLeastOne)
    (by linarith)

end Pool

theorem deposit_not_dilutive_deepPool :
    ∃ result, deepPool.deposit (newPrecDecFromInt 3) (newPrecDecFromInt 4) (10 ^ 9) true =
        .ok result ∧ 1 ≤ result.outShares.amount ∧
      ∃ outAmount0 outAmount1 final,
        result.pool.withdraw result.outShares.amount (10 ^ 9 + result.outShares.amount) =
            .ok (outAmount0, outAmount1, final) ∧
        outAmount0.value ≤ result.pool.lowerTick0.decReservesMakerDenom.value ∧
        outAmount1.value ≤ result.pool.upperTick1.decReservesMakerDenom.value ∧
        worthAsToken0 deepPool.centerPrice outAmount0 outAmount1 ≤
          worthAsToken0 deepPool.centerPrice result.inAmount0 result.inAmount1 +
            Pool.depositSlack deepPool.worth (10 ^ 9) := by
  obtain ⟨result, accepted, minted⟩ := Outcome.eq_ok_of_map_toOption
    (show (deepPool.deposit (newPrecDecFromInt 3) (newPrecDecFromInt 4) (10 ^ 9)
      true).toOption.map (fun result => result.outShares.amount) = some 3 by decide +kernel)
  have atLeastOne : 1 ≤ result.outShares.amount := by
    rw [minted]
    decide
  exact ⟨result, accepted, atLeastOne, Pool.deposit_not_dilutive deepPool_proper (by decide)
    (fun none => absurd none (by decide)) (by decide) (by decide) accepted atLeastOne⟩

end Neutron.Dex
