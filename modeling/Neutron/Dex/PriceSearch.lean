import Mathlib.Data.Int.ConditionallyCompleteOrder
import Neutron.Library.Nearest
import Neutron.Dex.Price

namespace Neutron.Dex

open Library PrecDec

structure PriceTable where
  entry : Nat → PrecDec
  entry_zero : entry 0 = onePrecDec
  increasing : StrictMonoOn (fun index => (entry index).i) (Set.Iic maxTickExp)

namespace PriceTable

variable (table : PriceTable)

def nearestPriceIndex (price : PrecDec) (left right : Nat) : Nat :=
  if (table.entry left - price).abs < (table.entry right - price).abs then
    left
  else
    right

def binarySearchLoop (price : PrecDec) : Nat → Nat → Nat → Nat
  | 0, left, right => table.nearestPriceIndex price left right
  | fuel + 1, left, right =>
      if left < right then
        let mid := (left + right) / 2
        if table.entry mid = price then
          mid
        else if right - left = 1 then
          table.nearestPriceIndex price left right
        else if table.entry mid < price then
          binarySearchLoop price fuel (mid + 1) right
        else
          binarySearchLoop price fuel left (mid - 1)
      else
        table.nearestPriceIndex price left right

def binarySearchPriceToTick (price : PrecDec) : Outcome Nat :=
  if price < onePrecDec then
    abort .priceBelowOne
  else
    pure (table.binarySearchLoop price (maxTickExp + 1) 0 maxTickExp)

def Nearest (price : PrecDec) (tick : Nat) : Prop :=
  tick ≤ maxTickExp ∧ ∀ other ≤ maxTickExp,
    (table.entry tick - price).abs ≤ (table.entry other - price).abs

theorem nearest_iff_isNearest {price : PrecDec} {tick : Nat} :
    table.Nearest price tick ↔
      IsNearest (fun index => (table.entry index).i) maxTickExp price.i tick :=
  Iff.rfl

end PriceTable

/-- The midpoints the search steps past while it looks for a price strictly between
the entries `gap` and `gap + 1`: they do not depend on the table. -/
def skippedMidpoints (gap : Nat) : Nat → Nat → Nat → List Nat
  | 0, _, _ => []
  | fuel + 1, left, right =>
      if right - left ≤ 1 then
        []
      else
        let mid := (left + right) / 2
        if mid ≤ gap then
          mid :: skippedMidpoints gap fuel (mid + 1) right
        else
          mid :: skippedMidpoints gap fuel left (mid - 1)

/-- `index` is a midpoint the search steps past on its way to `gap`. -/
def Skipped (gap index : Nat) : Prop :=
  index ∈ skippedMidpoints gap (maxTickExp + 1) 0 maxTickExp

instance (gap index : Nat) : Decidable (Skipped gap index) :=
  inferInstanceAs (Decidable (index ∈ _))

variable {fuel left right : Nat}

theorem mem_skippedMidpoints {gap index : Nat}
    (skipped : index ∈ skippedMidpoints gap fuel left right) :
    left < index ∧ index < right := by
  induction fuel generalizing left right with
  | zero => exact absurd skipped List.not_mem_nil
  | succ fuel ih =>
      unfold skippedMidpoints at skipped
      dsimp only at skipped
      split at skipped
      · exact absurd skipped List.not_mem_nil
      · split at skipped
        · rcases List.mem_cons.mp skipped with isMid | later
          · omega
          · have bounds := ih later
            omega
        · rcases List.mem_cons.mp skipped with isMid | later
          · omega
          · have bounds := ih later
            omega

theorem not_both_mem_skippedMidpoints {gap : Nat}
    (skipped : gap ∈ skippedMidpoints gap fuel left right) :
    gap + 1 ∉ skippedMidpoints gap fuel left right := by
  induction fuel generalizing left right with
  | zero => exact absurd skipped List.not_mem_nil
  | succ fuel ih =>
      unfold skippedMidpoints at skipped ⊢
      dsimp only at skipped ⊢
      split at skipped
      · exact absurd skipped List.not_mem_nil
      · rename_i wide
        rw [if_neg wide]
        split at skipped
        · rename_i before
          rw [if_pos before]
          intro next
          have nextLater := List.mem_of_ne_of_mem (by omega) next
          rcases List.mem_cons.mp skipped with isMid | later
          · have bounds := mem_skippedMidpoints nextLater
            omega
          · exact ih later nextLater
        · rename_i after
          rw [if_neg after]
          intro next
          have later := List.mem_of_ne_of_mem (by omega) skipped
          rcases List.mem_cons.mp next with isMid | nextLater
          · have bounds := mem_skippedMidpoints later
            omega
          · exact ih later nextLater

theorem Skipped.not_next {gap : Nat} (skipped : Skipped gap gap) :
    ¬ Skipped gap (gap + 1) :=
  not_both_mem_skippedMidpoints skipped

namespace PriceTable

variable {table : PriceTable} {price : PrecDec} {gap : Nat}

structure Between (table : PriceTable) (price : PrecDec) (gap : Nat) : Prop where
  inside : gap < maxTickExp
  below : table.entry gap < price
  above : price < table.entry (gap + 1)

namespace Between

variable (between : table.Between price gap)
include between

theorem entry_lt {index : Nat} (before : index ≤ gap) : table.entry index < price :=
  lt_of_le_of_lt
    (table.increasing.monotoneOn (le_trans before (le_of_lt between.inside))
      (le_of_lt between.inside) before)
    between.below

theorem lt_entry {index : Nat} (after : gap < index) (inside : index ≤ maxTickExp) :
    price < table.entry index :=
  lt_of_lt_of_le between.above
    (table.increasing.monotoneOn between.inside inside after)

theorem nearestPriceIndex_after (inside : gap + 2 ≤ maxTickExp) :
    table.nearestPriceIndex price (gap + 1) (gap + 2) = gap + 1 := by
  have grows : (table.entry (gap + 1)).i < (table.entry (gap + 2)).i :=
    table.increasing (le_trans (Nat.le_succ _) inside) inside (Nat.lt_succ_self _)
  have above : price.i < (table.entry (gap + 1)).i := between.above
  refine if_pos ?_
  change |(table.entry (gap + 1)).i - price.i| < |(table.entry (gap + 2)).i - price.i|
  rw [abs_of_pos (by omega), abs_of_pos (by omega)]
  omega

theorem nearestPriceIndex_before (next : left + 1 = gap) :
    table.nearestPriceIndex price left gap = gap := by
  have inside := between.inside
  have grows : (table.entry left).i < (table.entry gap).i :=
    table.increasing (show left ≤ maxTickExp by omega) (le_of_lt inside) (by omega)
  have below : (table.entry gap).i < price.i := between.below
  refine if_neg ?_
  change ¬ |(table.entry left).i - price.i| < |(table.entry gap).i - price.i|
  rw [abs_of_neg (by omega), abs_of_neg (by omega)]
  omega

theorem binarySearchLoop_eq (fuel : Nat) (enough : right - left < fuel)
    (ordered : left ≤ right) (leftLe : left ≤ gap + 1) (leRight : gap ≤ right)
    (inside : right ≤ maxTickExp) :
    table.binarySearchLoop price fuel left right =
      if left = gap + 1 ∨ gap ∈ skippedMidpoints gap fuel left right then
        gap + 1
      else if right = gap ∨ gap + 1 ∈ skippedMidpoints gap fuel left right then
        gap
      else
        table.nearestPriceIndex price gap (gap + 1) := by
  induction fuel generalizing left right with
  | zero => omega
  | succ fuel ih =>
      unfold binarySearchLoop skippedMidpoints
      dsimp only
      by_cases apart : left < right
      · have midNe : table.entry ((left + right) / 2) ≠ price := by
          intro hit
          rcases Nat.lt_or_ge gap ((left + right) / 2) with after | before
          · have above := between.lt_entry after (by omega)
            rw [hit, lt_def] at above
            omega
          · have below := between.entry_lt before
            rw [hit, lt_def] at below
            omega
        rw [if_pos apart, if_neg midNe]
        by_cases adjacent : right - left = 1
        · rw [if_pos adjacent, if_pos (le_of_eq adjacent)]
          simp only [List.not_mem_nil, or_false]
          obtain rfl : right = left + 1 := by omega
          by_cases after : left = gap + 1
          · rw [if_pos after, after]
            exact between.nearestPriceIndex_after (by omega)
          · rw [if_neg after]
            by_cases before : left + 1 = gap
            · rw [if_pos before, before]
              exact between.nearestPriceIndex_before before
            · rw [if_neg before]
              obtain rfl : left = gap := by omega
              rfl
        · rw [if_neg adjacent, if_neg (show ¬ right - left ≤ 1 by omega)]
          generalize midEq : (left + right) / 2 = mid at *
          by_cases before : mid ≤ gap
          · -- The midpoint lies below the price: the search moves past it.
            rw [if_pos (between.entry_lt before), if_pos before,
              ih (by omega) (by omega) (by omega) leRight inside]
            have same : mid + 1 = gap + 1 ↔ gap = mid := by omega
            have notStart : left ≠ gap + 1 := by omega
            have notNext : gap + 1 ≠ mid := by omega
            simp only [List.mem_cons, same, notStart, notNext, false_or]
          · have notBelow : ¬ table.entry mid < price := by
              have above := between.lt_entry (not_le.mp before) (by omega)
              rw [lt_def] at above ⊢
              omega
            rw [if_neg notBelow, if_neg before,
              ih (by omega) (by omega) leftLe (by omega) (by omega)]
            have same : mid - 1 = gap ↔ gap + 1 = mid := by omega
            have notEnd : right ≠ gap := by omega
            have notGap : gap ≠ mid := by omega
            simp only [List.mem_cons, same, notEnd, notGap, false_or]
      · obtain rfl : left = right := by omega
        rw [if_neg apart, if_pos (show left - left ≤ 1 by omega)]
        simp only [List.not_mem_nil, or_false]
        have found : table.nearestPriceIndex price left left = left := by
          unfold nearestPriceIndex
          split <;> rfl
        rw [found]
        by_cases after : left = gap + 1
        · rw [if_pos after, after]
        · rw [if_neg after, if_pos (by omega)]
          omega

theorem binarySearchPriceToTick_eq (atLeastOne : onePrecDec ≤ price) :
    table.binarySearchPriceToTick price = .ok
      (if Skipped gap gap then gap + 1
      else if Skipped gap (gap + 1) then gap
      else table.nearestPriceIndex price gap (gap + 1)) := by
  have inside := between.inside
  rw [binarySearchPriceToTick, if_neg (not_lt_iff.mpr atLeastOne),
    between.binarySearchLoop_eq (maxTickExp + 1) (by omega) (by omega) (by omega)
      (by omega) (le_refl _)]
  have notStart : 0 ≠ gap + 1 := by omega
  have notEnd : maxTickExp ≠ gap := by omega
  simp only [notStart, notEnd, false_or]
  rfl

theorem nearest_gap_iff :
    table.Nearest price gap ↔
      (table.entry gap - price).abs ≤ (table.entry (gap + 1) - price).abs := by
  rw [nearest_iff_isNearest, isNearest_iff_of_between table.increasing.monotoneOn
    between.inside (le_of_lt between.below) (le_of_lt between.above)
    (le_of_lt between.inside)]
  exact and_iff_right (le_refl _)

theorem nearest_next_iff :
    table.Nearest price (gap + 1) ↔
      (table.entry (gap + 1) - price).abs ≤ (table.entry gap - price).abs := by
  rw [nearest_iff_isNearest, isNearest_iff_of_between table.increasing.monotoneOn
    between.inside (le_of_lt between.below) (le_of_lt between.above)
    between.inside]
  exact and_iff_left (le_refl _)

theorem nearest_nearestPriceIndex :
    table.Nearest price (table.nearestPriceIndex price gap (gap + 1)) := by
  unfold nearestPriceIndex
  split
  · rename_i nearer
    exact between.nearest_gap_iff.mpr (le_of_lt (lt_def.mp nearer))
  · rename_i farther
    exact between.nearest_next_iff.mpr (not_lt_iff.mp farther)

theorem gap_unique {other : Nat} (otherBetween : table.Between price other) :
    other = gap := by
  rcases Nat.lt_trichotomy other gap with before | same | after
  · have below := between.entry_lt before
    exact absurd below (not_lt_iff.mpr (Int.le_of_lt otherBetween.above))
  · exact same
  · have below := otherBetween.entry_lt after
    exact absurd below (not_lt_iff.mpr (Int.le_of_lt between.above))

end Between

/-- The nearest entries of the price are not lost: where the search steps past a
neighbour of the price, the other neighbour is as near. -/
def NearestKept (table : PriceTable) (price : PrecDec) : Prop :=
  ∀ gap, table.Between price gap →
    (Skipped gap gap →
      (table.entry (gap + 1) - price).abs ≤ (table.entry gap - price).abs) ∧
    (Skipped gap (gap + 1) →
      (table.entry gap - price).abs ≤ (table.entry (gap + 1) - price).abs)

theorem Between.nearestKept_iff (between : table.Between price gap) :
    table.NearestKept price ↔
      (Skipped gap gap →
        (table.entry (gap + 1) - price).abs ≤ (table.entry gap - price).abs) ∧
      (Skipped gap (gap + 1) →
        (table.entry gap - price).abs ≤ (table.entry (gap + 1) - price).abs) := by
  constructor
  · intro kept
    exact kept gap between
  · intro kept other otherBetween
    rw [between.gap_unique otherBetween]
    exact kept

theorem binarySearchLoop_entry (fuel : Nat) {index : Nat}
    (enough : right - left < fuel) (leftLe : left ≤ index) (leRight : index ≤ right)
    (inside : right ≤ maxTickExp) :
    table.binarySearchLoop (table.entry index) fuel left right = index := by
  have entry_lt : ∀ {lower upper : Nat}, lower < upper → upper ≤ maxTickExp →
      (table.entry lower).i < (table.entry upper).i := fun ordered upperInside =>
    table.increasing (le_trans (le_of_lt ordered) upperInside) upperInside ordered
  induction fuel generalizing left right with
  | zero => omega
  | succ fuel ih =>
      unfold binarySearchLoop
      dsimp only
      by_cases apart : left < right
      · rw [if_pos apart]
        generalize midEq : (left + right) / 2 = mid
        rcases Nat.lt_trichotomy mid index with before | rfl | after
        · have below := entry_lt before (le_trans leRight inside)
          rw [if_neg (fun hit => by rw [hit] at below; omega)]
          by_cases adjacent : right - left = 1
          · -- The last two candidates: the entry is the right one.
            rw [if_pos adjacent]
            obtain rfl : index = right := by omega
            refine if_neg ?_
            change ¬ |(table.entry left).i - _| < |(table.entry index).i - _|
            rw [sub_self, abs_zero]
            exact not_lt.mpr (abs_nonneg _)
          · rw [if_neg adjacent, if_pos (lt_def.mpr below)]
            exact ih (by omega) (by omega) leRight inside
        · rw [if_pos rfl]
        · have above := entry_lt after (by omega)
          rw [if_neg (fun hit => by rw [hit] at above; omega),
            if_neg (show ¬ right - left = 1 by omega),
            if_neg (show ¬ table.entry mid < table.entry index by
              rw [lt_def]
              omega)]
          exact ih (by omega) leftLe (by omega) (by omega)
      · obtain rfl : left = right := by omega
        obtain rfl : index = left := by omega
        rw [if_neg apart]
        unfold nearestPriceIndex
        split <;> rfl

theorem nearest_entry {index : Nat} (inside : index ≤ maxTickExp) :
    table.Nearest (table.entry index) index := by
  refine ⟨inside, fun other _ => ?_⟩
  rw [sub_self]
  exact abs_nonneg (table.entry other - table.entry index).i

theorem entry_or_between (atLeastOne : onePrecDec ≤ price) {last : Nat}
    (inside : last ≤ maxTickExp) (atMost : price ≤ table.entry last) :
    (∃ index ≤ maxTickExp, table.entry index = price) ∨
      ∃ gap, table.Between price gap := by
  induction last with
  | zero =>
      rw [table.entry_zero] at atMost
      have isOne : onePrecDec = price := PrecDec.ext (le_antisymm atLeastOne atMost)
      exact .inl ⟨0, inside, table.entry_zero.trans isOne⟩
  | succ last ih =>
      by_cases earlier : price ≤ table.entry last
      · exact ih (by omega) earlier
      · have below : table.entry last < price := Int.not_le.mp earlier
        rcases lt_or_eq_of_le (le_def.mp atMost) with strictly | hit
        · exact .inr ⟨last, inside, below, strictly⟩
        · exact .inl ⟨last + 1, inside, PrecDec.ext hit.symm⟩

/-- The search returns a nearest entry exactly where it has not lost it. -/
theorem binarySearchPriceToTick_nearest_iff (atLeastOne : onePrecDec ≤ price)
    (atMost : price ≤ table.entry maxTickExp) :
    (∃ tick, table.binarySearchPriceToTick price = .ok tick ∧
        table.Nearest price tick) ↔
      table.NearestKept price := by
  rcases entry_or_between atLeastOne (le_refl _) atMost with
    ⟨index, inside, rfl⟩ | ⟨gap, between⟩
  · refine iff_of_true ⟨index, ?_, nearest_entry inside⟩ fun gap between => ?_
    · rw [binarySearchPriceToTick, if_neg (not_lt_iff.mpr atLeastOne),
        binarySearchLoop_entry (maxTickExp + 1) (by omega) (Nat.zero_le _) inside
          (le_refl _)]
      rfl
    · rcases Nat.lt_or_ge gap index with after | before
      · exact absurd (between.lt_entry after inside) (Int.lt_irrefl _)
      · exact absurd (between.entry_lt before) (Int.lt_irrefl _)
  · rw [between.binarySearchPriceToTick_eq atLeastOne, between.nearestKept_iff]
    simp only [Except.ok.injEq, exists_eq_left']
    split
    · rename_i skipped
      rw [between.nearest_next_iff, and_iff_left fun next => absurd next skipped.not_next]
      exact (imp_iff_right skipped).symm
    · rename_i kept
      split
      · rename_i skippedNext
        rw [between.nearest_gap_iff, and_iff_right fun skipped => absurd skipped kept]
        exact (imp_iff_right skippedNext).symm
      · rename_i keptNext
        exact iff_of_true between.nearest_nearestPriceIndex
          ⟨fun skipped => absurd skipped kept, fun skipped => absurd skipped keptNext⟩

end PriceTable

theorem precomputedPrices_lt_succ (index : Nat) :
    (precomputedPrices index).i + 10 ^ 22 < (precomputedPrices (index + 1)).i := by
  have large := one_le_precomputedPrices index
  have rounded : (precomputedPrices index).i * basePrice.i ≤
      precisionReuse * (precomputedPrices (index + 1)).i + fivePrecision :=
    le_mul (le_of_lt (precomputedPrices_pos index)) (by decide)
  have unitValue : (precisionReuse : Int) = 10 ^ 27 := by decide
  have halfValue : (fivePrecision : Int) = 5 * 10 ^ 26 := by decide
  have baseValue : basePrice.i = 10001 * 10 ^ 23 := rfl
  rw [unitValue, halfValue, baseValue] at rounded
  rw [unitValue] at large
  omega

theorem precomputedPrices_strictMono :
    StrictMono fun index => (precomputedPrices index).i :=
  strictMono_nat_of_lt_succ fun index => by
    have grows := precomputedPrices_lt_succ index
    omega

def precomputedPriceTable : PriceTable where
  entry := precomputedPrices
  entry_zero := rfl
  increasing := precomputedPrices_strictMono.strictMonoOn _

theorem binarySearchLoop_eq_priceTable (price : PrecDec) (fuel left right : Nat) :
    binarySearchLoop price fuel left right =
      precomputedPriceTable.binarySearchLoop price fuel left right := by
  induction fuel generalizing left right with
  | zero => rfl
  | succ fuel ih =>
      unfold binarySearchLoop PriceTable.binarySearchLoop
      dsimp only
      rw [ih, ih]
      rfl

theorem binarySearchPriceToTick_eq_priceTable (price : PrecDec) :
    binarySearchPriceToTick price =
      precomputedPriceTable.binarySearchPriceToTick price := by
  unfold binarySearchPriceToTick PriceTable.binarySearchPriceToTick
  rw [binarySearchLoop_eq_priceTable]

theorem binarySearchPriceToTick_nearest_iff_basePrice :
    (∃ tick, precomputedPriceTable.binarySearchPriceToTick basePrice = .ok tick ∧
        precomputedPriceTable.Nearest basePrice tick) ↔
      precomputedPriceTable.NearestKept basePrice := by
  have entry : precomputedPrices 1 = basePrice := by decide
  apply PriceTable.binarySearchPriceToTick_nearest_iff (by decide)
  rw [← entry]
  exact precomputedPrices_mono (by decide)

def priceAboveMiddle : PrecDec := ⟨(precomputedPrices 264857).i + 1⟩

theorem between_priceAboveMiddle :
    precomputedPriceTable.Between priceAboveMiddle 264857 where
  inside := by decide
  below := Int.lt_succ _
  above := by
    have grows := precomputedPrices_lt_succ 264857
    change (precomputedPrices 264857).i + 1 < (precomputedPrices (264857 + 1)).i
    omega

/-- The search steps past the entry one unit away and returns the next one. -/
theorem binarySearchPriceToTick_priceAboveMiddle :
    onePrecDec ≤ priceAboveMiddle ∧
      priceAboveMiddle ≤ precomputedPriceTable.entry maxTickExp ∧
      binarySearchPriceToTick priceAboveMiddle = .ok 264858 ∧
      ¬ precomputedPriceTable.Nearest priceAboveMiddle 264858 := by
  have between := between_priceAboveMiddle
  have atLeastOne : onePrecDec ≤ priceAboveMiddle := by
    have large := one_le_precomputedPrices 264857
    change (precisionReuse : Int) ≤ (precomputedPrices 264857).i + 1
    omega
  have below : priceAboveMiddle < precomputedPriceTable.entry maxTickExp :=
    between.lt_entry between.inside (le_refl _)
  refine ⟨atLeastOne, Int.le_of_lt below, ?_, ?_⟩
  · rw [binarySearchPriceToTick_eq_priceTable, between.binarySearchPriceToTick_eq atLeastOne,
      if_pos (show Skipped 264857 264857 by decide +kernel)]
  · rw [between.nearest_next_iff]
    have grows := precomputedPrices_lt_succ 264857
    have far : (precomputedPriceTable.entry (264857 + 1) - priceAboveMiddle).i =
        (precomputedPrices (264857 + 1)).i - ((precomputedPrices 264857).i + 1) := rfl
    have near : (precomputedPriceTable.entry 264857 - priceAboveMiddle).i =
        (precomputedPrices 264857).i - ((precomputedPrices 264857).i + 1) := rfl
    change ¬ |(precomputedPriceTable.entry (264857 + 1) - priceAboveMiddle).i| ≤
      |(precomputedPriceTable.entry 264857 - priceAboveMiddle).i|
    rw [far, near, abs_of_pos (by omega), abs_of_neg (by omega)]
    omega

end Neutron.Dex
