import Neutron.Dex.TickPrices

namespace Neutron.Dex

open Library PrecDec

theorem mem_skippedMidpoints_pred {index fuel left right : Nat} :
    index + 1 ∈ skippedMidpoints index fuel left right ↔
      index + 1 ∈ skippedMidpoints (index + 1) fuel left right := by
  induction fuel generalizing left right with
  | zero => exact Iff.rfl
  | succ fuel ih =>
      unfold skippedMidpoints
      dsimp only
      split
      · exact Iff.rfl
      · generalize (left + right) / 2 = mid
        rcases Nat.lt_trichotomy mid (index + 1) with before | isMid | after
        · rw [if_pos (show mid ≤ index by omega), if_pos (show mid ≤ index + 1 by omega)]
          simp only [List.mem_cons, ih]
        · rw [isMid, if_neg (show ¬ index + 1 ≤ index by omega), if_pos (le_refl _)]
          exact iff_of_true List.mem_cons_self List.mem_cons_self
        · rw [if_neg (show ¬ mid ≤ index by omega), if_neg (show ¬ mid ≤ index + 1 by omega)]
          simp only [List.mem_cons, ih]

/-- `index` is one of the midpoints the search steps past if it does not match the price:
those it reaches while there are more than two candidates. -/
def Probed (index : Nat) : Prop := Skipped index index

instance (index : Nat) : Decidable (Probed index) :=
  inferInstanceAs (Decidable (Skipped index index))

theorem probed_succ_iff {index : Nat} : Skipped index (index + 1) ↔ Probed (index + 1) :=
  mem_skippedMidpoints_pred

theorem not_probed_maxTickExp : ¬ Probed maxTickExp := fun probed =>
  absurd (mem_skippedMidpoints probed).2 (lt_irrefl _)

namespace PriceTable

variable {table : PriceTable} {price : PrecDec}

theorem binarySearchLoop_last (above : table.entry maxTickExp < price) (fuel : Nat)
    {left : Nat} (enough : maxTickExp - left < fuel) (inside : left ≤ maxTickExp) :
    table.binarySearchLoop price fuel left maxTickExp = maxTickExp := by
  have below : ∀ {index : Nat}, index ≤ maxTickExp → (table.entry index).i < price.i :=
    fun indexInside => lt_of_le_of_lt
      (table.increasing.monotoneOn indexInside (le_refl maxTickExp) indexInside) above
  induction fuel generalizing left with
  | zero => omega
  | succ fuel ih =>
      have nearest : ∀ {index : Nat}, index ≤ maxTickExp →
          table.nearestPriceIndex price index maxTickExp = maxTickExp := by
        intro index indexInside
        have ordered : (table.entry index).i ≤ (table.entry maxTickExp).i :=
          table.increasing.monotoneOn indexInside (le_refl maxTickExp) indexInside
        have indexBelow := below indexInside
        have lastBelow := below (le_refl maxTickExp)
        refine if_neg ?_
        change ¬ |(table.entry index).i - price.i| < |(table.entry maxTickExp).i - price.i|
        rw [abs_of_neg (by omega), abs_of_neg (by omega)]
        omega
      unfold binarySearchLoop
      dsimp only
      by_cases apart : left < maxTickExp
      · have midBelow := below (show (left + maxTickExp) / 2 ≤ maxTickExp by omega)
        rw [if_pos apart, if_neg fun hit => absurd midBelow (by rw [hit]; exact lt_irrefl _)]
        by_cases adjacent : maxTickExp - left = 1
        · rw [if_pos adjacent]
          exact nearest inside
        · rw [if_neg adjacent, if_pos (lt_def.mpr midBelow)]
          exact ih (by omega) (by omega)
      · rw [if_neg apart]
        exact nearest inside

end PriceTable

section Reciprocals

variable {index : Nat} {inverse : PrecDec}

/-- The price of the negative tick, times the entry give or take half a unit, encloses
one: then the reciprocal of the price is the entry.  A tie goes to an even entry. -/
def ReciprocalKept (index : Nat) : Prop :=
  let entry := (precomputedPrices index).i
  let price := (tickPrice (-index)).i
  price * (precisionReuse * entry + entry % 2 - fivePrecision) ≤ (precisionReuse : Int) ^ 3 ∧
    (precisionReuse : Int) ^ 3 <
      price * (precisionReuse * entry + fivePrecision - entry % 2 + 1)

instance (index : Nat) : Decidable (ReciprocalKept index) :=
  inferInstanceAs (Decidable (_ ∧ _))

theorem reciprocalKept_iff (inside : index ≤ maxTickExp)
    (inverted : onePrecDec.quo (tickPrice (-index)) = .ok inverse) :
    inverse = precomputedPrices index ↔ ReciprocalKept index := by
  have pricePos := tickPrice_pos (neg_inside inside)
  have entryPos := precomputedPrices_pos index
  have cube : onePrecDec.i * ((precisionReuse * precisionReuse : Nat) : Int) =
      (precisionReuse : Int) ^ 3 := by
    rw [onePrecDec_i]
    push_cast
    ring
  have value := (quo_eq_ok_iff.mp inverted).2
  rw [cube, Int.tdiv_eq_ediv_of_nonneg (by positivity)] at value
  have same : inverse = precomputedPrices index ↔
      chopPrecisionAndRound ((precisionReuse : Int) ^ 3 / (tickPrice (-index)).i) =
        (precomputedPrices index).i := by
    rw [← value]
    exact ⟨congrArg PrecDec.i, PrecDec.ext⟩
  unfold ReciprocalKept chopPrecisionAndRound at *
  rw [same, Rounding.halfEven_eq_iff precisionReuse_eq fivePrecision_pos
    (Int.ediv_nonneg (by positivity) pricePos.le) entryPos.le]
  dsimp only
  generalize (tickPrice (-index)).i = price at *
  generalize (precomputedPrices index).i = entry at *
  generalize (precisionReuse : Int) ^ 3 = cubed
  have lower : precisionReuse * entry + entry % 2 ≤ cubed / price + fivePrecision ↔
      price * (precisionReuse * entry + entry % 2 - fivePrecision) ≤ cubed := by
    rw [← sub_le_iff_le_add, Int.le_ediv_iff_mul_le pricePos, mul_comm price]
  have upper : cubed / price + entry % 2 ≤ precisionReuse * entry + fivePrecision ↔
      cubed < price * (precisionReuse * entry + fivePrecision - entry % 2 + 1) := by
    rw [← le_sub_iff_add_le, ← Int.lt_add_one_iff, Int.ediv_lt_iff_lt_mul pricePos,
      mul_comm price]
  rw [lower, upper]

theorem reciprocal_mul_le (positive : 0 < index) (inside : index ≤ maxTickExp) :
    (tickPrice (-index)).value * (precomputedPrices index).value ≤ 1 + 49971 / 10 ^ 9 := by
  have entryPos : 0 < (precomputedPrices index).value :=
    value_pos_iff.mpr (precomputedPrices_pos _)
  by_cases early : index ≤ 529615
  · have rounded := quo_value_le (quo_precomputedPrices positive) (by decide)
      (precomputedPrices_pos _)
    rw [value_onePrecDec] at rounded
    have entryLe := (value_le_value_iff.mpr (precomputedPrices_mono early)).trans
      precomputedPrices_lastTicks_le
    have scaled := mul_le_mul_of_nonneg_right rounded entryPos.le
    rw [add_mul, div_mul_cancel₀ _ entryPos.ne'] at scaled
    have rounding : smallest / 2 * (precomputedPrices index).value ≤
        smallest / 2 * (9994 * 10 ^ 19) :=
      mul_le_mul_of_nonneg_left entryLe (div_pos smallest_pos two_pos).le
    have small : smallest / 2 * (9994 * 10 ^ 19) ≤ 49971 / 10 ^ 9 := by norm_num [smallest]
    linarith
  · have last : 529615 ≤ index := by omega
    have upper := (lastPrices_value last inside).1
    have price : (tickPrice (-index)).value = (539621 - index) * smallest := by
      rw [value_eq, tickPrice_last last inside]
      push_cast
      ring
    rw [price]
    linarith

theorem le_reciprocal_mul (positive : 0 < index) (inside : index < maxTickExp) :
    1 ≤ (tickPrice (-index)).value * (precomputedPrices index).value *
      (1 + 49995 / 10 ^ 9) := by
  have entryPos : 0 < (precomputedPrices index).value :=
    value_pos_iff.mpr (precomputedPrices_pos _)
  by_cases early : index ≤ 529615
  · have rounded := lt_quo_value (quo_precomputedPrices positive) (by decide)
      (precomputedPrices_pos _)
    rw [value_onePrecDec, div_lt_iff₀ entryPos] at rounded
    have entryLe := (value_le_value_iff.mpr (precomputedPrices_mono early)).trans
      precomputedPrices_lastTicks_le
    have rounding : (smallest / 2 + smallest ^ 2) * (precomputedPrices index).value ≤
        (smallest / 2 + smallest ^ 2) * (9994 * 10 ^ 19) :=
      mul_le_mul_of_nonneg_left entryLe
        (add_nonneg (div_pos smallest_pos two_pos).le (sq_nonneg _))
    have small : (smallest / 2 + smallest ^ 2) * (9994 * 10 ^ 19) ≤ 49971 / 10 ^ 9 := by
      norm_num [smallest]
    linarith
  · have last : 529615 ≤ index := by omega
    have lower := (lastPrices_value last inside.le).2
    have price : (tickPrice (-index)).value = (539621 - index) * smallest := by
      rw [value_eq, tickPrice_last last inside.le]
      push_cast
      ring
    have room : (9907 : ℚ) ≤ 539621 - index := by
      have before : index + 1 ≤ 529715 := inside
      have cast : (index : ℚ) + 1 ≤ 529715 := by exact_mod_cast before
      linarith
    rw [price]
    have unitEntry : 0 < smallest * (precomputedPrices index).value :=
      mul_pos smallest_pos entryPos
    have scaled := mul_le_mul_of_nonneg_right room unitEntry.le
    linarith

section Inverse

variable (positive : 0 < index)
  (inverted : onePrecDec.quo (tickPrice (-index)) = .ok inverse)
include positive inverted

theorem inverse_le (inside : index < maxTickExp) :
    inverse.value ≤ (precomputedPrices index).value * (1 + 49996 / 10 ^ 9) := by
  have pricePos := tickPrice_pos (neg_inside inside.le)
  have rounded := quo_value_le inverted (by decide) pricePos
  have entryOne := one_le_precomputedPrices_value index
  have reciprocal : 1 / (tickPrice (-index)).value ≤
      (precomputedPrices index).value * (1 + 49995 / 10 ^ 9) := by
    rw [div_le_iff₀ (value_pos_iff.mpr pricePos)]
    linarith [le_reciprocal_mul positive inside]
  have half : smallest / 2 ≤ 1 / 10 ^ 9 := by norm_num [smallest]
  rw [value_onePrecDec] at rounded
  linarith

theorem le_inverse (inside : index ≤ maxTickExp) :
    (precomputedPrices index).value * (1 - 49980 / 10 ^ 9) ≤ inverse.value := by
  have pricePos := tickPrice_pos (neg_inside inside)
  have rounded := lt_quo_value inverted (by decide) pricePos
  have entryOne := one_le_precomputedPrices_value index
  have product := reciprocal_mul_le positive inside
  have reciprocal : (precomputedPrices index).value * (1 - 49971 / 10 ^ 9) ≤
      1 / (tickPrice (-index)).value := by
    rw [le_div_iff₀ (value_pos_iff.mpr pricePos)]
    have scaled := mul_le_mul_of_nonneg_right product
      (show (0 : ℚ) ≤ 1 - 49971 / 10 ^ 9 by norm_num)
    linarith
  have small : smallest / 2 + smallest ^ 2 ≤ 9 / 10 ^ 9 := by norm_num [smallest]
  rw [value_onePrecDec] at rounded
  linarith

theorem one_le_inverse (inside : index ≤ maxTickExp) : onePrecDec ≤ inverse := by
  have entryLe : basePrice.value ≤ (precomputedPrices index).value := by
    rw [value_le_value_iff]
    exact precomputedPrices_mono (show 1 ≤ index from positive)
  have lower := le_inverse positive inverted inside
  rw [basePrice_value] at entryLe
  rw [le_def, ← value_le_value_iff, value_onePrecDec]
  linarith

theorem nearestPriceIndex_inverse_above (inside : index < maxTickExp)
    (above : (precomputedPrices index).i < inverse.i) :
    precomputedPriceTable.nearestPriceIndex inverse index (index + 1) = index := by
  have upper := inverse_le positive inverted inside
  have grows := precomputedPrices_succ_value index
  have entryOne := one_le_precomputedPrices_value index
  have half : smallest / 2 ≤ 1 / 10 ^ 9 := by norm_num [smallest]
  have nearer : inverse.value - (precomputedPrices index).value <
      (precomputedPrices (index + 1)).value - inverse.value := by linarith
  have nearerInt : inverse.i - (precomputedPrices index).i <
      (precomputedPrices (index + 1)).i - inverse.i := by
    rw [← value_sub, ← value_sub, value_lt_value_iff] at nearer
    exact nearer
  refine if_pos ?_
  change |(precomputedPrices index).i - inverse.i| <
    |(precomputedPrices (index + 1)).i - inverse.i|
  rw [abs_of_neg (by omega), abs_of_pos (by omega)]
  omega

end Inverse

theorem nearestPriceIndex_inverse_below (inside : index + 1 ≤ maxTickExp)
    (inverted : onePrecDec.quo (tickPrice (-(index + 1 : Nat))) = .ok inverse)
    (below : inverse.i < (precomputedPrices (index + 1)).i) :
    (precomputedPrices index).i < inverse.i ∧
      precomputedPriceTable.nearestPriceIndex inverse index (index + 1) = index + 1 := by
  have lower := le_inverse (Nat.succ_pos index) inverted inside
  have grows := precomputedPrices_succ_value index
  have entryOne := one_le_precomputedPrices_value (index + 1)
  have half : smallest / 2 ≤ 1 / 10 ^ 9 := by norm_num [smallest]
  have nearer : (precomputedPrices (index + 1)).value - inverse.value <
      inverse.value - (precomputedPrices index).value := by linarith
  have nearerInt : (precomputedPrices (index + 1)).i - inverse.i <
      inverse.i - (precomputedPrices index).i := by
    rw [← value_sub, ← value_sub, value_lt_value_iff] at nearer
    exact nearer
  refine ⟨by omega, if_neg ?_⟩
  change ¬ |(precomputedPrices index).i - inverse.i| <
    |(precomputedPrices (index + 1)).i - inverse.i|
  rw [abs_of_neg (by omega), abs_of_pos (by omega)]
  omega

theorem binarySearchPriceToTick_inverse (positive : 0 < index) (inside : index ≤ maxTickExp)
    (inverted : onePrecDec.quo (tickPrice (-index)) = .ok inverse) :
    ∃ found, binarySearchPriceToTick inverse = .ok found ∧
      (found = index ↔ ¬ Probed index ∨ inverse = precomputedPrices index) := by
  have atLeastOne := one_le_inverse positive inverted inside
  rw [binarySearchPriceToTick_eq_priceTable]
  rcases lt_trichotomy inverse.i (precomputedPrices index).i with below | same | above
  · obtain ⟨index, rfl⟩ := Nat.exists_eq_succ_of_ne_zero positive.ne'
    obtain ⟨gapBelow, nearest⟩ := nearestPriceIndex_inverse_below inside inverted below
    have between : precomputedPriceTable.Between inverse index := ⟨inside, gapBelow, below⟩
    have different : inverse ≠ precomputedPrices (index + 1) := fun same =>
      ne_of_lt below (congrArg PrecDec.i same)
    refine ⟨_, between.binarySearchPriceToTick_eq atLeastOne, ?_⟩
    rw [Nat.succ_eq_add_one, ← probed_succ_iff, nearest, or_iff_left different]
    split
    · rename_i skipped
      exact iff_of_true rfl skipped.not_next
    · split
      · rename_i skippedNext
        exact iff_of_false (Nat.succ_ne_self index).symm (not_not_intro skippedNext)
      · rename_i keptNext
        exact iff_of_true rfl keptNext
  · have isEntry : inverse = precomputedPrices index := PrecDec.ext same
    refine ⟨index, ?_, iff_of_true rfl (.inr isEntry)⟩
    rw [PriceTable.binarySearchPriceToTick, if_neg (not_lt_iff.mpr atLeastOne), isEntry]
    exact congrArg _ (PriceTable.binarySearchLoop_entry (maxTickExp + 1) (by omega)
      (Nat.zero_le _) inside (le_refl _))
  · have different : inverse ≠ precomputedPrices index := fun same =>
      ne_of_gt above (congrArg PrecDec.i same)
    rw [or_iff_left different]
    rcases Nat.lt_or_ge index maxTickExp with before | last
    · have nearest := nearestPriceIndex_inverse_above positive inverted before above
      have between : precomputedPriceTable.Between inverse index := by
        refine ⟨before, above, ?_⟩
        have upper := inverse_le positive inverted before
        have grows := precomputedPrices_succ_value index
        have entryOne := one_le_precomputedPrices_value index
        have half : smallest / 2 ≤ 1 / 10 ^ 9 := by norm_num [smallest]
        change inverse.i < (precomputedPrices (index + 1)).i
        rw [← value_lt_value_iff]
        linarith
      refine ⟨_, between.binarySearchPriceToTick_eq atLeastOne, ?_⟩
      rw [nearest]
      split
      · rename_i skipped
        exact iff_of_false (Nat.succ_ne_self index) (not_not_intro skipped)
      · rename_i kept
        refine iff_of_true ?_ kept
        split <;> rfl
    · have aboveEntry : precomputedPriceTable.entry index < inverse := above
      have isLast : index = maxTickExp := le_antisymm inside last
      rw [isLast] at aboveEntry ⊢
      refine ⟨maxTickExp, ?_, iff_of_true rfl not_probed_maxTickExp⟩
      rw [PriceTable.binarySearchPriceToTick, if_neg (not_lt_iff.mpr atLeastOne),
        PriceTable.binarySearchLoop_last aboveEntry (maxTickExp + 1) (by omega) (Nat.zero_le _)]
      rfl

end Reciprocals

theorem tickPrice_inRange {tick : Int} (inside : ¬ IsTickOutOfRange tick) :
    ¬ IsPriceOutOfRange (tickPrice tick) := by
  have magnitude := not_lt.mp inside
  have upper : (tickPrice tick).i ≤ maxPrice.i := by
    have bound : (tickPrice tick).i ≤ (tickPrice maxTickExp).i := tickPrice_mono (by omega)
    rwa [tickPrice_natCast, precomputedPrices_maxTickExp] at bound
  have lower : minPrice.i ≤ (tickPrice tick).i := by
    have bound : (tickPrice (-(maxTickExp : Nat))).i ≤ (tickPrice tick).i :=
      tickPrice_mono (by omega)
    rw [tickPrice_last (by decide) (le_refl _)] at bound
    exact bound
  rintro (above | below)
  · exact absurd above (not_lt.mpr upper)
  · exact absurd below (not_lt.mpr lower)

theorem calcTickIndexFromPrice_natCast {index : Nat} (inside : index ≤ maxTickExp) :
    calcTickIndexFromPrice (precomputedPrices index) = .ok (index : Int) := by
  have atLeastOne : ¬ precomputedPrices index < onePrecDec :=
    not_lt_iff.mpr (one_le_precomputedPrices index)
  have inRange : ¬ IsPriceOutOfRange (precomputedPrices index) := by
    rw [← tickPrice_natCast]
    apply tickPrice_inRange
    unfold IsTickOutOfRange
    omega
  have found : binarySearchPriceToTick (precomputedPrices index) = .ok index := by
    rw [binarySearchPriceToTick_eq_priceTable, PriceTable.binarySearchPriceToTick,
      if_neg atLeastOne]
    exact congrArg _ (PriceTable.binarySearchLoop_entry (maxTickExp + 1) (by omega)
      (Nat.zero_le _) inside (le_refl _))
  rw [calcTickIndexFromPrice, if_neg inRange, if_neg atLeastOne, found]
  rfl

theorem calcTickIndexFromPrice_neg {index : Nat} (positive : 0 < index)
    (inside : index ≤ maxTickExp) :
    ∃ found : Nat, calcTickIndexFromPrice (tickPrice (-index)) = .ok (-found : Int) ∧
      (found = index ↔ ¬ Probed index ∨ ReciprocalKept index) := by
  have tickInside := neg_inside inside
  have belowOne : tickPrice (-index) < onePrecDec :=
    tickPrice_lt tickInside (show -(index : Int) < 0 by omega)
  obtain ⟨inverse, inverted⟩ : ∃ inverse,
      onePrecDec.quo (tickPrice (-index)) = .ok inverse :=
    ⟨_, if_neg (ne_of_gt (tickPrice_pos tickInside))⟩
  obtain ⟨found, search, isIndex⟩ := binarySearchPriceToTick_inverse positive inside inverted
  rw [reciprocalKept_iff inside inverted] at isIndex
  refine ⟨found, ?_, isIndex⟩
  rw [calcTickIndexFromPrice, if_neg (tickPrice_inRange tickInside), if_pos belowOne, inverted,
    Outcome.ok_bind, search, Outcome.ok_bind]
  exact congrArg _ (mul_neg_one _)

/-- The tick of the price of a tick is the tick, except where the search steps past the
entry and the reciprocal has been rounded away from it. -/
theorem calcTickIndexFromPrice_calcPrice_iff {tick : Int} (inside : ¬ IsTickOutOfRange tick) :
    ∃ price, calcPrice tick = .ok price ∧
      (∃ found, calcTickIndexFromPrice price = .ok found) ∧
      (calcTickIndexFromPrice price = .ok tick ↔
        0 ≤ tick ∨ ¬ Probed tick.natAbs ∨ ReciprocalKept tick.natAbs) := by
  have magnitude := not_lt.mp inside
  refine ⟨tickPrice tick, calcPrice_eq_ok_iff.mpr ⟨inside, rfl⟩, ?_⟩
  rcases lt_or_ge tick 0 with negative | nonneg
  · obtain ⟨found, computed, isIndex⟩ := calcTickIndexFromPrice_neg
      (show 0 < tick.natAbs by omega) magnitude
    rw [show -(tick.natAbs : Int) = tick by omega] at computed
    refine ⟨⟨_, computed⟩, ?_⟩
    rw [computed, ← isIndex, Except.ok.injEq]
    omega
  · have computed := calcTickIndexFromPrice_natCast magnitude
    rw [← tickPrice_natCast, show (tick.natAbs : Int) = tick by omega] at computed
    exact ⟨⟨_, computed⟩, iff_of_true computed (.inl nonneg)⟩

theorem calcTickIndexFromPrice_calcPrice_iff_minusTen :
    ∃ price, calcPrice (-10) = .ok price ∧
      (∃ found, calcTickIndexFromPrice price = .ok found) ∧
      (calcTickIndexFromPrice price = .ok (-10) ↔
        0 ≤ (-10 : Int) ∨ ¬ Probed 10 ∨ ReciprocalKept 10) :=
  calcTickIndexFromPrice_calcPrice_iff (by decide)

/-- The price of tick -65 is inverted to one unit above the entry 65, which the search
steps past. -/
theorem calcTickIndexFromPrice_minusSixtyFive :
    ∃ price, calcPrice (-65) = .ok price ∧ ¬ IsTickOutOfRange (-65) ∧
      ∃ found, calcTickIndexFromPrice price = .ok found ∧ found ≠ -65 := by
  have inside : ¬ IsTickOutOfRange (-65) := by decide
  obtain ⟨found, computed, isIndex⟩ := calcTickIndexFromPrice_neg (show 0 < 65 by decide)
    (show 65 ≤ 529715 by decide)
  have missed : found ≠ 65 := by
    rw [ne_eq, isIndex]
    decide +kernel
  refine ⟨_, calcPrice_eq_ok_iff.mpr ⟨inside, rfl⟩, inside, _, computed, ?_⟩
  omega

end Neutron.Dex
