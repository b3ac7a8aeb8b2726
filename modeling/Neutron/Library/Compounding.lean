import Mathlib.Algebra.BigOperators.Group.List.Basic
import Mathlib.Algebra.Order.BigOperators.Group.List
import Mathlib.Algebra.Order.BigOperators.GroupWithZero.List
import Mathlib.Algebra.Order.Field.Basic
import Mathlib.Data.List.Infix
import Mathlib.Tactic.GCongr
import Mathlib.Tactic.Linarith
import Mathlib.Tactic.Ring

namespace Library.Compounding

/-! Amounts that are exchanged at one rate after the other, each time with an error, and
estimates of the rate of the whole that are rounded at each factor. -/

variable {K : Type}

structure Leg (K : Type) where
  rate : K
  error : K

def rates (legs : List (Leg K)) : List K := legs.map Leg.rate

def totalError [AddMonoid K] (legs : List (Leg K)) : K := (legs.map Leg.error).sum

@[simp] theorem rates_cons (leg : Leg K) (legs : List (Leg K)) :
    rates (leg :: legs) = leg.rate :: rates legs := rfl

@[simp] theorem totalError_cons [AddMonoid K] (leg : Leg K) (legs : List (Leg K)) :
    totalError (leg :: legs) = leg.error + totalError legs := List.sum_cons

theorem rates_append (before after : List (Leg K)) :
    rates (before ++ after) = rates before ++ rates after := List.map_append

theorem totalError_append [AddMonoid K] (before after : List (Leg K)) :
    totalError (before ++ after) = totalError before + totalError after := by
  rw [totalError, List.map_append, List.sum_append, totalError, totalError]

variable [Field K] [LinearOrder K] {factor error : K}

/-- An amount is exchanged at every leg and gains no more than the error, measured on
the side where it weighs more. -/
inductive Compounds : List (Leg K) → K → K → Prop
  | nil (amount : K) : Compounds [] amount amount
  | cons {leg : Leg K} {legs : List (Leg K)} {start middle final : K}
      (within : middle ≤ leg.rate * start + leg.error * max 1 leg.rate)
      (rest : Compounds legs middle final) : Compounds (leg :: legs) start final

/-- No consecutive rates multiply an amount by more than a factor. -/
structure Within (factor : K) (rates : List K) : Prop where
  nonneg : ∀ rate ∈ rates, 0 ≤ rate
  prod_le : ∀ part, part <:+: rates → part.prod ≤ factor

/-- A product that is rounded down by no more than an error at each of its factors, from
the last to the first. -/
inductive Underestimates (error : K) : List K → K → Prop
  | nil : Underestimates error [] 1
  | cons {rate estimate next : K} {rates : List K}
      (within : rate * estimate - error ≤ next)
      (rest : Underestimates error rates estimate) :
      Underestimates error (rate :: rates) next

namespace Within

variable {rates : List K}

theorem part {part : List K} (within : Within factor rates) (isPart : part <:+: rates) :
    Within factor part where
  nonneg rate member := within.nonneg rate (isPart.subset member)
  prod_le smaller isSmaller := within.prod_le smaller (isSmaller.trans isPart)

theorem prod_nonneg [IsStrictOrderedRing K] (within : Within factor rates) : 0 ≤ rates.prod :=
  List.prod_nonneg within.nonneg

theorem one_le (within : Within factor rates) : 1 ≤ factor :=
  within.prod_le [] List.nil_infix

end Within

theorem Compounds.concat {legs : List (Leg K)} {leg : Leg K} {start middle final : K}
    (compounds : Compounds legs start middle)
    (within : final ≤ leg.rate * middle + leg.error * max 1 leg.rate) :
    Compounds (legs ++ [leg]) start final := by
  induction compounds with
  | nil amount => exact .cons within (.nil _)
  | cons gained _ ih => exact .cons gained (ih within)

variable [IsStrictOrderedRing K]

theorem Compounds.mul_le {legs : List (Leg K)} {start final : K}
    (compounds : Compounds legs start final) {after : List K}
    (within : Within factor (rates legs ++ after))
    (errors : ∀ leg ∈ legs, 0 ≤ leg.error) :
    final * after.prod ≤
      start * (rates legs ++ after).prod + totalError legs * factor := by
  induction compounds with
  | nil amount => simp [rates, totalError]
  | @cons leg legs start middle final gained _ ih =>
      rw [rates_cons, List.cons_append] at within
      have restWithin := within.part (List.suffix_cons _ _).isInfix
      have reached := ih restWithin fun other member => errors other (List.mem_cons_of_mem _ member)
      have restNonneg := restWithin.prod_nonneg
      -- The error is on either side of this leg, so it grows by the legs from here or
      -- from the next one on.
      have fromNext := restWithin.prod_le _ List.infix_rfl
      have fromHere := within.prod_le _ List.infix_rfl
      have grown : max 1 leg.rate * (rates legs ++ after).prod ≤ factor := by
        rw [max_mul_of_nonneg _ _ restNonneg, one_mul]
        rw [List.prod_cons] at fromHere
        exact max_le fromNext fromHere
      rw [rates_cons, List.cons_append, List.prod_cons, totalError_cons]
      calc final * after.prod
          ≤ middle * (rates legs ++ after).prod + totalError legs * factor := reached
        _ ≤ (leg.rate * start + leg.error * max 1 leg.rate) * (rates legs ++ after).prod +
              totalError legs * factor := by gcongr
        _ = start * (leg.rate * (rates legs ++ after).prod) +
              leg.error * (max 1 leg.rate * (rates legs ++ after).prod) +
              totalError legs * factor := by ring
        _ ≤ start * (leg.rate * (rates legs ++ after).prod) + leg.error * factor +
              totalError legs * factor := by
            gcongr
            exact errors leg List.mem_cons_self
        _ = start * (leg.rate * (rates legs ++ after).prod) +
              (leg.error + totalError legs) * factor := by ring

theorem Underestimates.le {rates : List K} {estimate : K}
    (under : Underestimates error rates estimate) (errorNonneg : 0 ≤ error)
    (ratesNonneg : ∀ rate ∈ rates, 0 ≤ rate) {amount bound : K} (nonneg : 0 ≤ amount)
    (bounded : ∀ part, part <+: rates → amount * part.prod ≤ bound) :
    amount * rates.prod - error * rates.length * bound ≤ amount * estimate := by
  induction under generalizing amount with
  | nil => simp
  | @cons rate estimate next rates within _ ih =>
      have rateNonneg := ratesNonneg rate List.mem_cons_self
      have amountLe : amount ≤ bound := by
        simpa using bounded [] List.nil_prefix
      have rest := ih (fun other member => ratesNonneg other (List.mem_cons_of_mem _ member))
        (mul_nonneg nonneg rateNonneg) fun part isPart => by
          have longer := bounded (rate :: part) (List.prefix_cons_inj rate |>.mpr isPart)
          rwa [List.prod_cons, ← mul_assoc] at longer
      have rounded := mul_le_mul_of_nonneg_left within nonneg
      have lost := mul_le_mul_of_nonneg_left amountLe errorNonneg
      rw [List.prod_cons, List.length_cons]
      push_cast
      linarith

theorem le_price_mul_estimate {before after : List (Leg K)}
    {input middle final price estimate : K} (first : Compounds before input middle)
    (second : Compounds after middle final)
    (within : Within factor (rates before ++ rates after))
    (errors : ∀ leg ∈ before ++ after, 0 ≤ leg.error) (errorNonneg : 0 ≤ error)
    (atLeastOne : 1 ≤ input) (priceNonneg : 0 ≤ price)
    (lower : middle / input - error ≤ price) (upper : price ≤ middle / input + error)
    (under : Underestimates error (rates after) estimate) :
    final / input - factor * (totalError after + error +
        error * after.length * (1 + totalError before + error)) ≤ price * estimate := by
  have inputPos : 0 < input := lt_of_lt_of_le one_pos atLeastOne
  have afterWithin := within.part (List.suffix_append _ _).isInfix
  have factorNonneg : 0 ≤ factor := zero_le_one.trans within.one_le
  have beforeErrors : ∀ leg ∈ before, 0 ≤ leg.error :=
    fun leg member => errors leg (List.mem_append_left _ member)
  have afterErrors : ∀ leg ∈ after, 0 ≤ leg.error :=
    fun leg member => errors leg (List.mem_append_right _ member)
  have errorOf {legs : List (Leg K)} (nonneg : ∀ leg ∈ legs, 0 ≤ leg.error) :
      0 ≤ totalError legs := by
    refine List.sum_nonneg fun one member => ?_
    obtain ⟨leg, isLeg, rfl⟩ := List.mem_map.mp member
    exact nonneg leg isLeg
  have shrinks {amount : K} (nonneg : 0 ≤ amount) : amount / input ≤ amount :=
    div_le_self nonneg atLeastOne
  -- The price so far is bounded over every part of what is ahead.
  have bounded : ∀ part, part <+: rates after →
      price * part.prod ≤ factor * (1 + totalError before + error) := by
    rintro part ⟨others, isAfter⟩
    have partWithin : Within factor (rates before ++ part) := by
      refine within.part ?_
      rw [← isAfter, ← List.append_assoc]
      exact (List.prefix_append _ _).isInfix
    have partNonneg := (partWithin.part (List.suffix_append _ _).isInfix).prod_nonneg
    have partLe := partWithin.prod_le part (List.suffix_append _ _).isInfix
    have reached := first.mul_le partWithin beforeErrors
    have all := partWithin.prod_le _ List.infix_rfl
    calc price * part.prod
        ≤ (middle / input + error) * part.prod := by gcongr
      _ = middle * part.prod / input + error * part.prod := by ring
      _ ≤ (input * (rates before ++ part).prod + totalError before * factor) / input +
            error * factor := by gcongr
      _ = (rates before ++ part).prod + totalError before * factor / input +
            error * factor := by
          rw [add_div, mul_div_cancel_left₀ _ inputPos.ne']
      _ ≤ factor + totalError before * factor + error * factor := by
          gcongr
          exact shrinks (mul_nonneg (errorOf beforeErrors) factorNonneg)
      _ = factor * (1 + totalError before + error) := by ring
  have estimated := under.le errorNonneg afterWithin.nonneg priceNonneg bounded
  have reached := second.mul_le (by rwa [List.append_nil]) afterErrors
  rw [List.append_nil, List.prod_nil, mul_one] at reached
  have achieved : final / input ≤ price * (rates after).prod + error * factor +
      totalError after * factor := by
    have ahead := afterWithin.prod_nonneg
    calc final / input
        ≤ (middle * (rates after).prod + totalError after * factor) / input := by gcongr
      _ = (middle / input) * (rates after).prod + totalError after * factor / input := by ring
      _ ≤ (price + error) * (rates after).prod + totalError after * factor := by
          gcongr
          · linarith
          · exact shrinks (mul_nonneg (errorOf afterErrors) factorNonneg)
      _ ≤ price * (rates after).prod + error * factor + totalError after * factor := by
          rw [add_mul]
          gcongr
          exact afterWithin.prod_le _ List.infix_rfl
  have lengths : (rates after).length = after.length := List.length_map _
  rw [lengths] at estimated
  linarith

end Library.Compounding
