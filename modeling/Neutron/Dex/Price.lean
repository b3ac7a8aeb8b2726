import Mathlib.Tactic.LinearCombination
import Neutron.Dex.PrecDec

namespace Neutron.Dex

open Library PrecDec

/-! Ticks and prices (`x/dex/types/price.go`).  The source reads a generated
table; its entries are the running products of `1.0001` below. -/

def maxTickExp : Nat := 529715

def basePrice : PrecDec := ⟨10001 * 10 ^ 23⟩

def minPrice : PrecDec := ⟨9906⟩

def maxPrice : PrecDec := ⟨100943872917137109121294116592697013542139739189686⟩

def precomputedPrices : Nat → PrecDec
  | 0 => onePrecDec
  | index + 1 => (precomputedPrices index).mul basePrice

def IsTickOutOfRange (tickIndex : Int) : Prop := maxTickExp < tickIndex.natAbs

def IsPriceOutOfRange (price : PrecDec) : Prop :=
  maxPrice < price ∨ price < minPrice

instance (tickIndex : Int) : Decidable (IsTickOutOfRange tickIndex) :=
  inferInstanceAs (Decidable (_ < _))

instance (price : PrecDec) : Decidable (IsPriceOutOfRange price) :=
  inferInstanceAs (Decidable (_ ∨ _))

def calcPrice (relativeTickIndex : Int) : Outcome PrecDec :=
  if IsTickOutOfRange relativeTickIndex then
    fail .tickOutsideRange
  else if relativeTickIndex < 0 then
    onePrecDec.quo (precomputedPrices relativeTickIndex.natAbs)
  else
    pure (precomputedPrices relativeTickIndex.natAbs)

def mustCalcPrice (relativeTickIndex : Int) : Outcome PrecDec :=
  match calcPrice relativeTickIndex with
  | .ok price => pure price
  | .error _ => abort .tickOutsideRange

/-- The end of the search: the nearer of the two remaining entries. -/
def nearestPriceIndex (price : PrecDec) (left right : Nat) : Nat :=
  if (precomputedPrices left - price).abs < (precomputedPrices right - price).abs
  then left
  else right

/-- The search loop; every turn shrinks `right - left`, which bounds the fuel. -/
def binarySearchLoop (price : PrecDec) : Nat → Nat → Nat → Nat
  | 0, left, right => nearestPriceIndex price left right
  | fuel + 1, left, right =>
      if left < right then
        let mid := (left + right) / 2
        if precomputedPrices mid = price then
          mid
        else if right - left = 1 then
          nearestPriceIndex price left right
        else if precomputedPrices mid < price then
          binarySearchLoop price fuel (mid + 1) right
        else
          binarySearchLoop price fuel left (mid - 1)
      else
        nearestPriceIndex price left right

def binarySearchPriceToTick (price : PrecDec) : Outcome Nat :=
  if price < onePrecDec then
    abort .priceBelowOne
  else
    pure (binarySearchLoop price (maxTickExp + 1) 0 maxTickExp)

def calcTickIndexFromPrice (price : PrecDec) : Outcome Int :=
  if IsPriceOutOfRange price then
    fail .priceOutsideRange
  else if price < onePrecDec then do
    let invPrice ← onePrecDec.quo price
    let tick ← binarySearchPriceToTick invPrice
    pure ((tick : Int) * -1)
  else do
    let tick ← binarySearchPriceToTick price
    pure (tick : Int)

def validateTickFee (tick : Int) (fee : Nat) : Outcome Unit :=
  if maxTickExp ≤ fee then
    fail (.invalidFee [])
  else if maxTickExp - fee < tick.natAbs then
    fail .tickOutsideRange
  else
    pure ()

def tickPrice (tick : Int) : PrecDec :=
  if tick < 0 then
    ⟨chopPrecisionAndRound
      ((onePrecDec.i * (precisionReuse * precisionReuse : Nat)).tdiv
        (precomputedPrices tick.natAbs).i)⟩
  else
    precomputedPrices tick.natAbs

variable {price : PrecDec}

theorem le_mul_basePrice (nonneg : 0 ≤ price.i) :
    price.i ≤ (price.mul basePrice).i := by
  have exact : chopPrecisionAndRound (precisionReuse * price.i) = price.i :=
    Rounding.halfEven_unit_mul precisionReuse_eq fivePrecision_pos nonneg
  have grows : (precisionReuse : Int) * price.i ≤ price.i * basePrice.i := by
    have factor : (precisionReuse : Int) ≤ basePrice.i := by decide
    rw [mul_comm]
    exact mul_le_mul_of_nonneg_left factor nonneg
  calc price.i = chopPrecisionAndRound (precisionReuse * price.i) := exact.symm
    _ ≤ chopPrecisionAndRound (price.i * basePrice.i) :=
        chopPrecisionAndRound_mono
          (Int.mul_nonneg (Int.natCast_nonneg _) nonneg) grows

theorem one_le_precomputedPrices (index : Nat) :
    (precisionReuse : Int) ≤ (precomputedPrices index).i := by
  induction index with
  | zero => exact le_refl _
  | succ index ih =>
      exact le_trans ih
        (le_mul_basePrice (le_trans (Int.natCast_nonneg precisionReuse) ih))

theorem precomputedPrices_pos (index : Nat) : 0 < (precomputedPrices index).i :=
  lt_of_lt_of_le (by decide) (one_le_precomputedPrices index)

variable {lower upper : Nat}

theorem precomputedPrices_mono (ordered : lower ≤ upper) :
    (precomputedPrices lower).i ≤ (precomputedPrices upper).i := by
  induction ordered with
  | refl => exact le_refl _
  | step _ ih =>
      exact le_trans ih (le_mul_basePrice (le_of_lt (precomputedPrices_pos _)))

theorem calcPrice_eq (tick : Int) :
    calcPrice tick =
      if IsTickOutOfRange tick then fail .tickOutsideRange
      else pure (tickPrice tick) := by
  unfold calcPrice tickPrice
  split
  · rfl
  · split
    · rw [quo, if_neg (ne_of_gt (precomputedPrices_pos _))]
    · rfl

variable {tick : Int}

theorem calcPrice_eq_ok_iff :
    calcPrice tick = .ok price ↔
      ¬ IsTickOutOfRange tick ∧ tickPrice tick = price := by
  rw [calcPrice_eq]
  split
  · rename_i outside
    exact ⟨fun impossible => (nomatch impossible),
      fun both => absurd outside both.1⟩
  · rename_i inside
    rw [Outcome.pure_eq_ok_iff]
    exact ⟨fun equal => ⟨inside, equal⟩, And.right⟩

theorem mustCalcPrice_eq_ok_iff :
    mustCalcPrice tick = .ok price ↔
      ¬ IsTickOutOfRange tick ∧ tickPrice tick = price := by
  rw [← calcPrice_eq_ok_iff]
  unfold mustCalcPrice
  cases calcPrice tick with
  | error failure =>
      exact ⟨fun impossible => (nomatch impossible),
        fun impossible => (nomatch impossible)⟩
  | ok found => exact Iff.rfl

theorem tickPrice_of_neg (negative : tick < 0) :
    (tickPrice tick).i = chopPrecisionAndRound
      ((precisionReuse ^ 3 : Int) / (precomputedPrices tick.natAbs).i) := by
  have cube : onePrecDec.i * ((precisionReuse * precisionReuse : Nat) : Int) =
      (precisionReuse : Int) ^ 3 := by
    rw [onePrecDec_i]
    push_cast
    ring
  rw [tickPrice, if_pos negative, cube,
    Int.tdiv_eq_ediv_of_nonneg (by positivity)]

theorem ediv_precomputedPrices_mono (ordered : lower ≤ upper) :
    (precisionReuse ^ 3 : Int) / (precomputedPrices upper).i ≤
      (precisionReuse ^ 3 : Int) / (precomputedPrices lower).i := by
  have nonneg : 0 ≤ (precisionReuse ^ 3 : Int) / (precomputedPrices upper).i :=
    Int.ediv_nonneg (by positivity) (le_of_lt (precomputedPrices_pos _))
  apply Int.le_ediv_of_mul_le (precomputedPrices_pos _)
  calc (precisionReuse ^ 3 : Int) / (precomputedPrices upper).i *
        (precomputedPrices lower).i
      ≤ (precisionReuse ^ 3 : Int) / (precomputedPrices upper).i *
        (precomputedPrices upper).i :=
        mul_le_mul_of_nonneg_left (precomputedPrices_mono ordered) nonneg
    _ ≤ (precisionReuse ^ 3 : Int) :=
        Int.ediv_mul_le _ (ne_of_gt (precomputedPrices_pos _))

theorem ediv_precomputedPrices_nonneg (index : Nat) :
    0 ≤ (precisionReuse ^ 3 : Int) / (precomputedPrices index).i :=
  Int.ediv_nonneg (by positivity) (le_of_lt (precomputedPrices_pos _))

theorem tickPrice_le_one (negative : tick < 0) :
    (tickPrice tick).i ≤ precisionReuse := by
  have one : chopPrecisionAndRound (precisionReuse * precisionReuse) =
      precisionReuse :=
    Rounding.halfEven_unit_mul precisionReuse_eq fivePrecision_pos
      (Int.natCast_nonneg _)
  have square : (precisionReuse ^ 3 : Int) / (precomputedPrices 0).i =
      precisionReuse * precisionReuse := by decide
  calc (tickPrice tick).i
      = chopPrecisionAndRound ((precisionReuse ^ 3 : Int) /
          (precomputedPrices tick.natAbs).i) := tickPrice_of_neg negative
    _ ≤ chopPrecisionAndRound (precisionReuse * precisionReuse) := by
        rw [← square]
        exact chopPrecisionAndRound_mono (ediv_precomputedPrices_nonneg _)
          (ediv_precomputedPrices_mono (Nat.zero_le _))
    _ = precisionReuse := one

theorem tickPrice_mono {lower upper : Int} (ordered : lower ≤ upper) :
    (tickPrice lower).i ≤ (tickPrice upper).i := by
  by_cases upperNegative : upper < 0
  · rw [tickPrice_of_neg (lt_of_le_of_lt ordered upperNegative),
      tickPrice_of_neg upperNegative]
    apply chopPrecisionAndRound_mono (ediv_precomputedPrices_nonneg _)
    apply ediv_precomputedPrices_mono
    omega
  · have upperPrice : tickPrice upper = precomputedPrices upper.natAbs := by
      rw [tickPrice, if_neg upperNegative]
    rw [upperPrice]
    by_cases lowerNegative : lower < 0
    · exact le_trans (tickPrice_le_one lowerNegative)
        (one_le_precomputedPrices _)
    · rw [tickPrice, if_neg lowerNegative]
      apply precomputedPrices_mono
      omega

/-! ### The end of the table

`MaxPrice` is the price of the last tick to the last digit, and the prices of the last
ticks are a unit apart, so that the table has to be computed to its end. -/

/-- The entry after an entry: the division rounds half to even.  The operations are
spelled out because this is evaluated half a million times. -/
def nextEntry (entry : Nat) : Nat :=
  Nat.div (Nat.add (Nat.mul entry 10001)
    (Nat.add 4999 (Nat.mod (Nat.div (Nat.mul entry 10001) 10000) 2))) 10000

def nextFiveEntries (entry : Nat) : Nat :=
  nextEntry (nextEntry (nextEntry (nextEntry (nextEntry entry))))

def nextTwentyFiveEntries (entry : Nat) : Nat :=
  nextFiveEntries (nextFiveEntries (nextFiveEntries (nextFiveEntries (nextFiveEntries entry))))

/-- `turns` steps; the value is matched on in every turn, which makes evaluation reach a
numeral before it goes on. -/
def evaluate (step : Nat → Nat) : Nat → Nat → Nat
  | 0, value => value
  | _ + 1, 0 => 0
  | turns + 1, value + 1 => evaluate step turns (step (value + 1))

theorem nextEntry_cases (entry : Nat) : ∃ quotient remainder,
    entry * 10001 = 10000 * quotient + remainder ∧
      (nextEntry entry = quotient ∧
          (remainder < 5000 ∨ remainder = 5000 ∧ nextEntry entry % 2 = 0) ∨
        nextEntry entry = quotient + 1 ∧
          (5000 < remainder ∧ remainder < 10000 ∨
            remainder = 5000 ∧ nextEntry entry % 2 = 0)) := by
  have value : nextEntry entry =
      (entry * 10001 + (4999 + entry * 10001 / 10000 % 2)) / 10000 := rfl
  rw [value]
  generalize entry * 10001 = scaled
  have parts := Nat.div_add_mod scaled 10000
  have bound : scaled % 10000 < 10000 := Nat.mod_lt _ (by decide)
  refine ⟨_, _, parts.symm, ?_⟩
  generalize scaled / 10000 = quotient at *
  generalize scaled % 10000 = remainder at *
  subst parts
  rcases Nat.mod_two_eq_zero_or_one quotient with even | odd
  · rw [even]
    omega
  · rw [odd]
    omega

theorem nextEntry_eq {entry index : Nat} (isEntry : precomputedPrices index = ⟨entry⟩) :
    precomputedPrices (index + 1) = ⟨nextEntry entry⟩ := by
  have rounded : chopPrecisionAndRound (entry * basePrice.i) = nextEntry entry := by
    unfold chopPrecisionAndRound
    rw [Rounding.halfEven_eq_iff precisionReuse_eq fivePrecision_pos
      (Int.mul_nonneg (Int.natCast_nonneg _) (by decide)) (Int.natCast_nonneg _)]
    obtain ⟨quotient, remainder, parts, next⟩ := nextEntry_cases entry
    have scaled : (entry : Int) * basePrice.i =
        precisionReuse * quotient + 10 ^ 23 * remainder := by
      have unitValue : (precisionReuse : Int) = 10000 * 10 ^ 23 := by decide
      have baseValue : basePrice.i = 10001 * 10 ^ 23 := rfl
      have cast : (entry : Int) * 10001 = 10000 * quotient + remainder := by
        exact_mod_cast parts
      rw [unitValue, baseValue]
      linear_combination 10 ^ 23 * cast
    have halfValue : (fivePrecision : Int) = 5000 * 10 ^ 23 := by decide
    have unitValue : (precisionReuse : Int) = 10000 * 10 ^ 23 := by decide
    have parity := Nat.mod_two_eq_zero_or_one (nextEntry entry)
    rw [scaled, halfValue, unitValue]
    generalize nextEntry entry = result at next parity ⊢
    omega
  rw [precomputedPrices, isEntry]
  exact PrecDec.ext rounded

theorem nextFiveEntries_eq {entry index : Nat}
    (isEntry : precomputedPrices index = ⟨entry⟩) :
    precomputedPrices (index + 5) = ⟨nextFiveEntries entry⟩ := by
  unfold nextFiveEntries
  exact nextEntry_eq (nextEntry_eq (nextEntry_eq (nextEntry_eq (nextEntry_eq isEntry))))

theorem nextTwentyFiveEntries_eq {entry index : Nat}
    (isEntry : precomputedPrices index = ⟨entry⟩) :
    precomputedPrices (index + 25) = ⟨nextTwentyFiveEntries entry⟩ := by
  unfold nextTwentyFiveEntries
  exact nextFiveEntries_eq (nextFiveEntries_eq (nextFiveEntries_eq (nextFiveEntries_eq
    (nextFiveEntries_eq isEntry))))

theorem precomputedPrices_evaluate {step : Nat → Nat} {width entry index : Nat}
    (steps : ∀ {entry index : Nat}, precomputedPrices index = ⟨entry⟩ →
      precomputedPrices (index + width) = ⟨step entry⟩)
    (isEntry : precomputedPrices index = ⟨entry⟩) (turns : Nat) :
    precomputedPrices (index + width * turns) = ⟨evaluate step turns entry⟩ := by
  induction turns generalizing entry index with
  | zero => exact isEntry
  | succ turns ih =>
      cases entry with
      | zero =>
          have positive := precomputedPrices_pos index
          rw [isEntry] at positive
          exact absurd positive (lt_irrefl 0)
      | succ entry =>
          rw [Nat.mul_succ, Nat.add_comm _ width, ← Nat.add_assoc]
          exact ih (steps isEntry)

theorem precomputedPrices_zero : precomputedPrices 0 = ⟨(10 ^ 27 : Nat)⟩ := by decide

/-- The entry a hundred ticks before the end. -/
def lateEntry : Nat := 99939514566022467433255544520800722629695200918026

theorem evaluate_lateEntry :
    nextFiveEntries (nextFiveEntries (nextFiveEntries
      (evaluate nextTwentyFiveEntries 21184 (10 ^ 27)))) = lateEntry := by
  decide +kernel

theorem precomputedPrices_late (offset : Nat) :
    precomputedPrices (529615 + offset) = ⟨evaluate nextEntry offset lateEntry⟩ := by
  have late := nextFiveEntries_eq (nextFiveEntries_eq (nextFiveEntries_eq
    (precomputedPrices_evaluate nextTwentyFiveEntries_eq precomputedPrices_zero 21184)))
  rw [evaluate_lateEntry] at late
  have entry := precomputedPrices_evaluate nextEntry_eq late offset
  rw [Nat.one_mul] at entry
  exact entry

theorem precomputedPrices_maxTickExp : precomputedPrices maxTickExp = maxPrice := by
  have last := precomputedPrices_late 100
  have value : evaluate nextEntry 100 lateEntry =
      100943872917137109121294116592697013542139739189686 := by
    decide +kernel
  rw [value] at last
  exact last

theorem precomputedPrices_le {index : Nat} (inside : index ≤ maxTickExp) :
    (precomputedPrices index).i ≤ maxPrice.i := by
  rw [← precomputedPrices_maxTickExp]
  exact precomputedPrices_mono inside

theorem tickPrice_pos (inside : ¬ IsTickOutOfRange tick) :
    0 < (tickPrice tick).i := by
  by_cases negative : tick < 0
  · have bound : (precomputedPrices tick.natAbs).i ≤ precisionReuse ^ 2 :=
      le_trans (precomputedPrices_le (not_lt.mp inside)) (by decide)
    have unit : (precisionReuse : Int) ≤
        (precisionReuse ^ 3 : Int) / (precomputedPrices tick.natAbs).i := by
      apply Int.le_ediv_of_mul_le (precomputedPrices_pos _)
      calc (precisionReuse : Int) * (precomputedPrices tick.natAbs).i
          ≤ precisionReuse * precisionReuse ^ 2 :=
            mul_le_mul_of_nonneg_left bound (Int.natCast_nonneg _)
        _ = precisionReuse ^ 3 := by ring
    have one : chopPrecisionAndRound precisionReuse = 1 := by decide
    rw [tickPrice_of_neg negative]
    calc (0 : Int) < 1 := by decide
      _ = chopPrecisionAndRound precisionReuse := one.symm
      _ ≤ _ := chopPrecisionAndRound_mono (Int.natCast_nonneg _) unit
  · rw [tickPrice, if_neg negative]
    exact precomputedPrices_pos _

end Neutron.Dex
