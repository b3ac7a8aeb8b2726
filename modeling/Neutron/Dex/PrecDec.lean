import Mathlib.Algebra.Group.Defs
import Mathlib.Algebra.Order.Ring.Int
import Neutron.Library.Rounding
import Neutron.Dex.Errors

namespace Neutron.Dex

open Library

/-! The 27-decimal fixed-point numbers of `utils/math/prec_dec.go`.  The
345-bit range guard of the source only ever aborts a transaction and is left
out: a run of the source that is not aborted computes these values. -/

def precisionReuse : Nat := 10 ^ 27

def fivePrecision : Nat := precisionReuse / 2

/-- A decimal, as the integer number of `10^-27` units it holds. -/
structure PrecDec where
  i : Int
  deriving DecidableEq, Repr

namespace PrecDec

@[ext] theorem ext {left right : PrecDec} (same : left.i = right.i) :
    left = right := by
  cases left
  cases right
  exact congrArg PrecDec.mk same

def zeroPrecDec : PrecDec := ⟨0⟩

def onePrecDec : PrecDec := ⟨precisionReuse⟩

def newPrecDecFromInt (amount : Int) : PrecDec := ⟨amount * precisionReuse⟩

/-- `chopPrecisionAndRound`: banker's rounding of the last 27 digits. -/
def chopPrecisionAndRound (digits : Int) : Int :=
  Rounding.halfEven precisionReuse fivePrecision digits

/-! `Add`, `Sub` and `Neg` of the source are the group operations. -/

instance : Zero PrecDec := ⟨zeroPrecDec⟩

instance : Add PrecDec := ⟨fun left right => ⟨left.i + right.i⟩⟩

instance : Sub PrecDec := ⟨fun left right => ⟨left.i - right.i⟩⟩

instance : Neg PrecDec := ⟨fun amount => ⟨-amount.i⟩⟩

@[simp] theorem zero_i : (0 : PrecDec).i = 0 := rfl

@[simp] theorem add_i (left right : PrecDec) :
    (left + right).i = left.i + right.i := rfl

@[simp] theorem sub_i (left right : PrecDec) :
    (left - right).i = left.i - right.i := rfl

@[simp] theorem neg_i (amount : PrecDec) : (-amount).i = -amount.i := rfl

instance : AddCommGroup PrecDec where
  add_assoc first second third := ext (add_assoc first.i second.i third.i)
  zero_add amount := ext (zero_add amount.i)
  add_zero amount := ext (add_zero amount.i)
  add_comm left right := ext (add_comm left.i right.i)
  neg_add_cancel amount := ext (neg_add_cancel amount.i)
  sub_eq_add_neg left right := ext (sub_eq_add_neg left.i right.i)
  nsmul := nsmulRec
  zsmul := zsmulRec

def mul (left right : PrecDec) : PrecDec :=
  ⟨chopPrecisionAndRound (left.i * right.i)⟩

def mulInt (left : PrecDec) (right : Int) : PrecDec := ⟨left.i * right⟩

/-- `big.Int.Quo` truncates and panics on a zero divisor. -/
def quo (left right : PrecDec) : Outcome PrecDec :=
  if right.i = 0 then
    abort .divisionByZero
  else
    pure ⟨chopPrecisionAndRound
      ((left.i * (precisionReuse * precisionReuse : Nat)).tdiv right.i)⟩

def quoInt (left : PrecDec) (right : Int) : Outcome PrecDec :=
  if right = 0 then
    abort .divisionByZero
  else
    pure ⟨left.i.tdiv right⟩

def truncateInt (amount : PrecDec) : Int := amount.i.tdiv precisionReuse

def ceil (amount : PrecDec) : PrecDec :=
  let quotient := amount.i.tdiv precisionReuse
  let remainder := amount.i.tmod precisionReuse
  if remainder ≤ 0 then
    newPrecDecFromInt quotient
  else
    newPrecDecFromInt (quotient + 1)

def abs (amount : PrecDec) : PrecDec := ⟨|amount.i|⟩

instance : LE PrecDec := ⟨fun left right => left.i ≤ right.i⟩

instance : LT PrecDec := ⟨fun left right => left.i < right.i⟩

instance (left right : PrecDec) : Decidable (left ≤ right) :=
  inferInstanceAs (Decidable (left.i ≤ right.i))

instance (left right : PrecDec) : Decidable (left < right) :=
  inferInstanceAs (Decidable (left.i < right.i))

theorem le_def {left right : PrecDec} : left ≤ right ↔ left.i ≤ right.i :=
  Iff.rfl

theorem lt_def {left right : PrecDec} : left < right ↔ left.i < right.i :=
  Iff.rfl

theorem not_lt_iff {left right : PrecDec} : ¬ left < right ↔ right ≤ left :=
  Int.not_lt

def IsZero (amount : PrecDec) : Prop := amount.i = 0

def IsNegative (amount : PrecDec) : Prop := amount.i < 0

def IsPositive (amount : PrecDec) : Prop := 0 < amount.i

instance (amount : PrecDec) : Decidable amount.IsZero :=
  inferInstanceAs (Decidable (amount.i = 0))

instance (amount : PrecDec) : Decidable amount.IsNegative :=
  inferInstanceAs (Decidable (amount.i < 0))

instance (amount : PrecDec) : Decidable amount.IsPositive :=
  inferInstanceAs (Decidable (0 < amount.i))

/-- The guard of the setters of reserves: negative amounts panic. -/
def unlessNegative {Result : Type} (amount : PrecDec) (cause : Panic)
    (result : Result) : Outcome Result :=
  if amount.IsNegative then abort cause else pure result

def minPrecDec (left right : PrecDec) : PrecDec :=
  if left < right then left else right

def maxPrecDec (left right : PrecDec) : PrecDec :=
  if left < right then right else left

/-- `MinPrecDecArr` of `x/dex/utils` on the nonempty list `first :: rest`. -/
def minPrecDecArr (first : PrecDec) (rest : List PrecDec) : PrecDec :=
  rest.foldl (fun minimum value => if value < minimum then value else minimum)
    first

variable {amount : PrecDec}

theorem unlessNegative_eq_ok_iff {Result : Type} {cause : Panic}
    {result final : Result} :
    amount.unlessNegative cause result = .ok final ↔
      0 ≤ amount.i ∧ final = result := by
  unfold unlessNegative
  split
  · rename_i negative
    exact ⟨fun impossible => (nomatch impossible),
      fun both => absurd negative (not_lt.mpr both.1)⟩
  · rename_i nonneg
    rw [Outcome.pure_eq_ok_iff]
    exact ⟨fun equal => ⟨not_lt.mp nonneg, equal.symm⟩, fun both => both.2.symm⟩

@[simp] theorem zeroPrecDec_i : zeroPrecDec.i = 0 := rfl

@[simp] theorem onePrecDec_i : onePrecDec.i = precisionReuse := rfl

@[simp] theorem newPrecDecFromInt_i (amount : Int) :
    (newPrecDecFromInt amount).i = amount * precisionReuse := rfl

@[simp] theorem mulInt_i (left : PrecDec) (right : Int) :
    (left.mulInt right).i = left.i * right := rfl

theorem newPrecDecFromInt_nonneg {amount : Int} (nonneg : 0 ≤ amount) :
    0 ≤ (newPrecDecFromInt amount).i :=
  Int.mul_nonneg nonneg (Int.natCast_nonneg _)

variable {right : Int}

theorem mulInt_nonneg {left : PrecDec} (leftNonneg : 0 ≤ left.i)
    (rightNonneg : 0 ≤ right) : 0 ≤ (left.mulInt right).i :=
  Int.mul_nonneg leftNonneg rightNonneg

theorem precisionReuse_pos : 0 < precisionReuse := by decide

theorem precisionReuse_eq : precisionReuse = 2 * fivePrecision := by decide

theorem fivePrecision_pos : 0 < fivePrecision := by decide

@[simp] theorem minPrecDec_i (left right : PrecDec) :
    (minPrecDec left right).i = min left.i right.i := by
  by_cases below : left.i < right.i
  · simp [minPrecDec, lt_def, below, le_of_lt below]
  · simp [minPrecDec, lt_def, below, not_lt.mp below]

@[simp] theorem maxPrecDec_i (left right : PrecDec) :
    (maxPrecDec left right).i = max left.i right.i := by
  by_cases below : left.i < right.i
  · simp [maxPrecDec, lt_def, below, le_of_lt below]
  · simp [maxPrecDec, lt_def, below, not_lt.mp below]

theorem chopPrecisionAndRound_nonneg {digits : Int} (nonneg : 0 ≤ digits) :
    0 ≤ chopPrecisionAndRound digits :=
  Rounding.halfEven_nonneg nonneg

theorem chopPrecisionAndRound_mono {lower upper : Int} (nonneg : 0 ≤ lower)
    (ordered : lower ≤ upper) :
    chopPrecisionAndRound lower ≤ chopPrecisionAndRound upper :=
  Rounding.halfEven_mono precisionReuse_eq fivePrecision_pos nonneg ordered

theorem mul_nonneg {left right : PrecDec} (leftNonneg : 0 ≤ left.i)
    (rightNonneg : 0 ≤ right.i) : 0 ≤ (left.mul right).i :=
  chopPrecisionAndRound_nonneg (Int.mul_nonneg leftNonneg rightNonneg)

theorem mul_zeroPrecDec (left : PrecDec) : left.mul zeroPrecDec = zeroPrecDec := by
  have nothing : left.i * zeroPrecDec.i = 0 := Int.mul_zero _
  unfold mul
  rw [nothing]
  decide

theorem le_mul {left right : PrecDec} (leftNonneg : 0 ≤ left.i)
    (rightNonneg : 0 ≤ right.i) :
    left.i * right.i ≤ precisionReuse * (left.mul right).i + fivePrecision :=
  Rounding.le_unit_mul_halfEven precisionReuse_eq fivePrecision_pos
    (Int.mul_nonneg leftNonneg rightNonneg)

variable {result : PrecDec}

theorem quo_eq_ok_iff {left right : PrecDec} :
    left.quo right = .ok result ↔
      right.i ≠ 0 ∧
        result.i = chopPrecisionAndRound
          ((left.i * (precisionReuse * precisionReuse : Nat)).tdiv right.i) := by
  unfold quo
  split
  · rename_i zero
    exact ⟨fun impossible => (nomatch impossible),
      fun both => absurd zero both.1⟩
  · rename_i nonzero
    rw [Outcome.pure_eq_ok_iff]
    constructor
    · intro equal
      exact ⟨nonzero, (congrArg PrecDec.i equal).symm⟩
    · intro both
      exact PrecDec.ext both.2.symm

theorem quoInt_eq_ok_iff {left : PrecDec} :
    left.quoInt right = .ok result ↔
      right ≠ 0 ∧ result.i = left.i.tdiv right := by
  unfold quoInt
  split
  · rename_i zero
    exact ⟨fun impossible => (nomatch impossible),
      fun both => absurd zero both.1⟩
  · rename_i nonzero
    rw [Outcome.pure_eq_ok_iff]
    constructor
    · intro equal
      exact ⟨nonzero, (congrArg PrecDec.i equal).symm⟩
    · intro both
      exact PrecDec.ext both.2.symm

theorem quo_nonneg {left right : PrecDec}
    (computed : left.quo right = .ok result) (leftNonneg : 0 ≤ left.i)
    (rightNonneg : 0 ≤ right.i) : 0 ≤ result.i := by
  rw [(quo_eq_ok_iff.mp computed).2]
  apply chopPrecisionAndRound_nonneg
  apply Int.tdiv_nonneg _ rightNonneg
  exact Int.mul_nonneg leftNonneg (Int.natCast_nonneg _)

theorem quo_nonpos {left right : PrecDec}
    (computed : left.quo right = .ok result) (leftNonpos : left.i ≤ 0)
    (rightNonneg : 0 ≤ right.i) : result.i ≤ 0 := by
  rw [(quo_eq_ok_iff.mp computed).2]
  apply Rounding.halfEven_nonpos fivePrecision_pos
  apply tdiv_nonpos _ rightNonneg
  exact Int.mul_nonpos_of_nonpos_of_nonneg leftNonpos (Int.natCast_nonneg _)

theorem quo_neg {left right : PrecDec} (computed : left.quo right = .ok result) :
    (-left).quo right = .ok (-result) := by
  obtain ⟨nonzero, value⟩ := quo_eq_ok_iff.mp computed
  refine quo_eq_ok_iff.mpr ⟨nonzero, ?_⟩
  rw [neg_i, neg_i, value, Int.neg_mul, Int.neg_tdiv]
  exact (Rounding.halfEven_neg fivePrecision_pos _).symm

theorem quo_le_of_mul_le {left right bound : PrecDec}
    (computed : left.quo right = .ok result) (leftNonneg : 0 ≤ left.i)
    (rightPositive : 0 < right.i) (boundNonneg : 0 ≤ bound.i)
    (covered : left.i * precisionReuse ≤ right.i * bound.i) : result.i ≤ bound.i := by
  have scaledNonneg : 0 ≤ left.i * (precisionReuse * precisionReuse : Nat) :=
    Int.mul_nonneg leftNonneg (Int.natCast_nonneg _)
  have exactBound : chopPrecisionAndRound (precisionReuse * bound.i) = bound.i :=
    Rounding.halfEven_unit_mul precisionReuse_eq fivePrecision_pos boundNonneg
  rw [(quo_eq_ok_iff.mp computed).2, Int.tdiv_eq_ediv_of_nonneg scaledNonneg, ← exactBound]
  apply chopPrecisionAndRound_mono (Int.ediv_nonneg scaledNonneg rightPositive.le)
  apply Int.ediv_le_of_le_mul rightPositive
  calc left.i * (precisionReuse * precisionReuse : Nat)
      = left.i * precisionReuse * precisionReuse := by rw [Nat.cast_mul, mul_assoc]
    _ ≤ right.i * bound.i * precisionReuse :=
        Int.mul_le_mul_of_nonneg_right covered (Int.natCast_nonneg _)
    _ = precisionReuse * bound.i * right.i := by ring

theorem quo_le_quo {left right left' right' result' : PrecDec}
    (computed : left.quo right = .ok result) (computed' : left'.quo right' = .ok result')
    (leftNonneg : 0 ≤ left.i) (leftNonneg' : 0 ≤ left'.i) (rightPositive : 0 < right.i)
    (rightPositive' : 0 < right'.i) (ordered : left.i * right'.i ≤ left'.i * right.i) :
    result.i ≤ result'.i := by
  have unitNonneg := Int.natCast_nonneg (precisionReuse * precisionReuse)
  have scaledNonneg := Int.mul_nonneg leftNonneg unitNonneg
  rw [(quo_eq_ok_iff.mp computed).2, (quo_eq_ok_iff.mp computed').2,
    Int.tdiv_eq_ediv_of_nonneg scaledNonneg,
    Int.tdiv_eq_ediv_of_nonneg (Int.mul_nonneg leftNonneg' unitNonneg)]
  apply chopPrecisionAndRound_mono (Int.ediv_nonneg scaledNonneg rightPositive.le)
  generalize ((precisionReuse * precisionReuse : Nat) : Int) = unit at *
  apply Int.le_ediv_of_mul_le rightPositive'
  have quotient : left.i * unit / right.i * right.i ≤ left.i * unit :=
    Int.ediv_mul_le _ rightPositive.ne'
  refine le_of_mul_le_mul_right ?_ rightPositive
  calc left.i * unit / right.i * right'.i * right.i
      = left.i * unit / right.i * right.i * right'.i := by ring
    _ ≤ left.i * unit * right'.i := Int.mul_le_mul_of_nonneg_right quotient rightPositive'.le
    _ = left.i * right'.i * unit := by ring
    _ ≤ left'.i * right.i * unit := Int.mul_le_mul_of_nonneg_right ordered unitNonneg
    _ = left'.i * unit * right.i := by ring

theorem mul_mono {left right greater : PrecDec} (leftNonneg : 0 ≤ left.i)
    (rightNonneg : 0 ≤ right.i) (ordered : right.i ≤ greater.i) :
    (left.mul right).i ≤ (left.mul greater).i :=
  chopPrecisionAndRound_mono (Int.mul_nonneg leftNonneg rightNonneg)
    (Int.mul_le_mul_of_nonneg_left ordered leftNonneg)

theorem mul_newPrecDecFromInt {left : PrecDec} {amount : Int} (leftNonneg : 0 ≤ left.i)
    (nonneg : 0 ≤ amount) : (left.mul (newPrecDecFromInt amount)).i = left.i * amount := by
  have product : left.i * (newPrecDecFromInt amount).i =
      precisionReuse * (left.i * amount) := by
    rw [newPrecDecFromInt_i]
    ring
  change chopPrecisionAndRound (left.i * (newPrecDecFromInt amount).i) = _
  rw [product]
  exact Rounding.halfEven_unit_mul precisionReuse_eq fivePrecision_pos
    (Int.mul_nonneg leftNonneg nonneg)

theorem mul_le_of_le_one {left right : PrecDec} (leftNonneg : 0 ≤ left.i)
    (rightNonneg : 0 ≤ right.i) (leOne : left.i ≤ precisionReuse) :
    (left.mul right).i ≤ right.i := by
  have exactRight : chopPrecisionAndRound (precisionReuse * right.i) = right.i :=
    Rounding.halfEven_unit_mul precisionReuse_eq fivePrecision_pos rightNonneg
  conv_rhs => rw [← exactRight]
  exact chopPrecisionAndRound_mono (Int.mul_nonneg leftNonneg rightNonneg)
    (Int.mul_le_mul_of_nonneg_right leOne rightNonneg)

theorem ceil_le {bound : Int} (nonneg : 0 ≤ amount.i)
    (within : amount.i ≤ (newPrecDecFromInt bound).i) :
    amount.ceil.i ≤ (newPrecDecFromInt bound).i := by
  have unitPos : (0 : Int) < precisionReuse := by decide
  have division := Int.mul_tdiv_add_tmod amount.i precisionReuse
  have remainder := Int.tmod_nonneg (precisionReuse : Int) nonneg
  rw [newPrecDecFromInt_i] at within ⊢
  unfold ceil
  dsimp only
  split
  · rw [newPrecDecFromInt_i, mul_comm]
    omega
  · rename_i notWhole
    rw [newPrecDecFromInt_i]
    apply Int.mul_le_mul_of_nonneg_right _ unitPos.le
    by_contra above
    have least := Int.mul_le_mul_of_nonneg_left
      (show bound ≤ amount.i.tdiv precisionReuse by omega) unitPos.le
    rw [mul_comm (precisionReuse : Int) bound] at least
    omega

theorem lt_mul_quo {left right : PrecDec}
    (computed : left.quo right = .ok result) (leftNonneg : 0 ≤ left.i)
    (rightPositive : 0 < right.i) :
    left.i * (precisionReuse * precisionReuse : Nat) <
      right.i * (precisionReuse * result.i + fivePrecision) + right.i := by
  have scaledNonneg : 0 ≤ left.i * (precisionReuse * precisionReuse : Nat) :=
    Int.mul_nonneg leftNonneg (Int.natCast_nonneg _)
  have value := (quo_eq_ok_iff.mp computed).2
  rw [Int.tdiv_eq_ediv_of_nonneg scaledNonneg] at value
  generalize left.i * (precisionReuse * precisionReuse : Nat) = scaled at *
  have rounded : scaled / right.i ≤ precisionReuse * result.i + fivePrecision := by
    rw [value]
    exact Rounding.le_unit_mul_halfEven precisionReuse_eq fivePrecision_pos
      (Int.ediv_nonneg scaledNonneg (le_of_lt rightPositive))
  calc scaled < right.i * (scaled / right.i) + right.i :=
        Int.lt_mul_ediv_self_add rightPositive
    _ ≤ _ := Int.add_le_add_right
        (mul_le_mul_of_nonneg_left rounded (le_of_lt rightPositive)) _

theorem mul_quo_le {left right : PrecDec}
    (computed : left.quo right = .ok result) (leftNonneg : 0 ≤ left.i)
    (rightPositive : 0 < right.i) :
    right.i * (precisionReuse * result.i) ≤
      left.i * (precisionReuse * precisionReuse : Nat) + right.i * fivePrecision := by
  have scaledNonneg : 0 ≤ left.i * (precisionReuse * precisionReuse : Nat) :=
    Int.mul_nonneg leftNonneg (Int.natCast_nonneg _)
  have value := (quo_eq_ok_iff.mp computed).2
  rw [Int.tdiv_eq_ediv_of_nonneg scaledNonneg] at value
  generalize left.i * (precisionReuse * precisionReuse : Nat) = scaled at *
  have rounded : precisionReuse * result.i ≤ scaled / right.i + fivePrecision := by
    rw [value]
    exact Rounding.unit_mul_halfEven_le precisionReuse_eq
      (Int.ediv_nonneg scaledNonneg (le_of_lt rightPositive))
  calc right.i * (precisionReuse * result.i)
      ≤ right.i * (scaled / right.i + fivePrecision) :=
        mul_le_mul_of_nonneg_left rounded (le_of_lt rightPositive)
    _ = right.i * (scaled / right.i) + right.i * fivePrecision := mul_add _ _ _
    _ ≤ scaled + right.i * fivePrecision :=
        Int.add_le_add_right (Int.mul_ediv_self_le (ne_of_gt rightPositive)) _

end PrecDec

end Neutron.Dex
