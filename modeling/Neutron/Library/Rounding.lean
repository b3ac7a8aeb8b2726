import Mathlib.Tactic.Ring
import Mathlib.Tactic.Linarith

namespace Library

theorem tdiv_nonpos {dividend divisor : Int} (nonpos : dividend ≤ 0)
    (divisorNonneg : 0 ≤ divisor) : dividend.tdiv divisor ≤ 0 := by
  have negated := Int.tdiv_nonneg (Int.neg_nonneg_of_nonpos nonpos) divisorNonneg
  rw [Int.neg_tdiv] at negated
  omega

theorem ediv_le_ediv_add_iff {left leftUnit right rightUnit : Int} (leftPos : 0 < leftUnit)
    (rightPos : 0 < rightUnit) (bound : Int) :
    left / leftUnit ≤ right / rightUnit + bound ↔
      left * rightUnit <
        (right - right % rightUnit + (bound + 1) * rightUnit) * leftUnit := by
  have whole : right - right % rightUnit = right / rightUnit * rightUnit := by
    rw [mul_comm]
    exact sub_eq_of_eq_add (Int.mul_ediv_add_emod right rightUnit).symm
  have total : (right - right % rightUnit + (bound + 1) * rightUnit) * leftUnit =
      (right / rightUnit + bound + 1) * leftUnit * rightUnit := by
    rw [whole]
    ring
  rw [total, mul_lt_mul_iff_left₀ rightPos, ← Int.ediv_lt_iff_lt_mul leftPos]
  exact Int.lt_add_one_iff.symm

namespace Rounding

def halfEvenNat (unit half amount : Nat) : Nat :=
  let quotient := amount / unit
  let remainder := amount % unit
  if remainder < half then
    quotient
  else if half < remainder then
    quotient + 1
  else if quotient % 2 = 0 then
    quotient
  else
    quotient + 1

def halfEven (unit half : Nat) (amount : Int) : Int :=
  if amount < 0 then
    -(halfEvenNat unit half (-amount).toNat : Int)
  else
    (halfEvenNat unit half amount.toNat : Int)

variable {unit half : Nat}

theorem halfEvenNat_cases (unit half amount : Nat) :
    (halfEvenNat unit half amount = amount / unit ∧ amount % unit ≤ half) ∨
      (halfEvenNat unit half amount = amount / unit + 1 ∧
        half ≤ amount % unit) := by
  unfold halfEvenNat
  dsimp only
  split
  · rename_i below
    exact Or.inl ⟨rfl, Nat.le_of_lt below⟩
  · rename_i notBelow
    split
    · rename_i above
      exact Or.inr ⟨rfl, Nat.le_of_lt above⟩
    · rename_i notAbove
      split
      · exact Or.inl ⟨rfl, Nat.le_of_not_lt notAbove⟩
      · exact Or.inr ⟨rfl, Nat.le_of_not_lt notBelow⟩

theorem unit_mul_halfEvenNat_le (double : unit = 2 * half) (amount : Nat) :
    unit * halfEvenNat unit half amount ≤ amount + half := by
  have split := Nat.div_add_mod amount unit
  rcases halfEvenNat_cases unit half amount with ⟨value, small⟩ | ⟨value, large⟩
  · rw [value]
    omega
  · rw [value, Nat.mul_add, Nat.mul_one]
    omega

theorem le_unit_mul_halfEvenNat (double : unit = 2 * half) (positive : 0 < half)
    (amount : Nat) :
    amount ≤ unit * halfEvenNat unit half amount + half := by
  have split := Nat.div_add_mod amount unit
  have bound : amount % unit < unit := Nat.mod_lt _ (by omega)
  rcases halfEvenNat_cases unit half amount with ⟨value, small⟩ | ⟨value, large⟩
  · rw [value]
    omega
  · rw [value, Nat.mul_add, Nat.mul_one]
    omega

theorem halfEvenNat_unit_mul (double : unit = 2 * half) (positive : 0 < half)
    (count : Nat) : halfEvenNat unit half (unit * count) = count := by
  have unitPositive : 0 < unit := by omega
  unfold halfEvenNat
  simp only [Nat.mul_mod_right, Nat.mul_div_cancel_left count unitPositive,
    if_pos positive]

theorem halfEvenNat_eq_iff (double : unit = 2 * half) (positive : 0 < half)
    {amount result : Nat} :
    halfEvenNat unit half amount = result ↔
      unit * result + result % 2 ≤ amount + half ∧
        amount + result % 2 ≤ unit * result + half := by
  have unitPositive : 0 < unit := by omega
  have parts := Nat.div_add_mod amount unit
  have bound : amount % unit < unit := Nat.mod_lt _ unitPositive
  have rounds : ∀ rounded, halfEvenNat unit half amount = rounded →
      unit * rounded + rounded % 2 ≤ amount + half ∧
        amount + rounded % 2 ≤ unit * rounded + half := by
    rintro rounded rfl
    have next : unit * (amount / unit + 1) = unit * (amount / unit) + unit := Nat.mul_succ _ _
    unfold halfEvenNat
    dsimp only
    split_ifs <;> omega
  constructor
  · exact rounds result
  · rintro ⟨lower, upper⟩
    obtain ⟨lower', upper'⟩ := rounds _ rfl
    generalize halfEvenNat unit half amount = rounded at lower' upper' ⊢
    -- Two results less than one unit apart are the same; one unit apart, only one is even.
    rcases Nat.lt_trichotomy rounded result with below | same | above
    · obtain ⟨more, rfl⟩ := Nat.exists_eq_add_of_lt below
      have scaled : unit * (rounded + more + 1) = unit * rounded + unit * more + unit := by
        ring
      have extra : more = 0 ∨ unit ≤ unit * more := by
        rcases Nat.eq_zero_or_pos more with none | some
        · exact .inl none
        · exact .inr (Nat.le_mul_of_pos_right _ some)
      rw [scaled] at lower
      omega
    · exact same
    · obtain ⟨more, rfl⟩ := Nat.exists_eq_add_of_lt above
      have scaled : unit * (result + more + 1) = unit * result + unit * more + unit := by
        ring
      have extra : more = 0 ∨ unit ≤ unit * more := by
        rcases Nat.eq_zero_or_pos more with none | some
        · exact .inl none
        · exact .inr (Nat.le_mul_of_pos_right _ some)
      rw [scaled] at lower'
      omega

theorem halfEven_of_nonneg {amount : Int} (nonneg : 0 ≤ amount) :
    halfEven unit half amount = halfEvenNat unit half amount.toNat := by
  rw [halfEven, if_neg (not_lt.mpr nonneg)]

theorem halfEven_nonneg {amount : Int} (nonneg : 0 ≤ amount) :
    0 ≤ halfEven unit half amount := by
  rw [halfEven_of_nonneg nonneg]
  exact Int.natCast_nonneg _

theorem halfEven_nonpos (positive : 0 < half) {amount : Int} (nonpos : amount ≤ 0) :
    halfEven unit half amount ≤ 0 := by
  unfold halfEven
  split
  · exact Int.neg_nonpos_of_nonneg (Int.natCast_nonneg _)
  · have zero : amount = 0 := by omega
    rw [zero]
    simp [halfEvenNat, positive]

theorem halfEven_neg (positive : 0 < half) (amount : Int) :
    halfEven unit half (-amount) = -halfEven unit half amount := by
  rcases lt_trichotomy amount 0 with negative | rfl | above
  · rw [halfEven, if_neg (by omega), halfEven, if_pos negative, neg_neg]
  · simp [halfEven, halfEvenNat, positive]
  · rw [halfEven, if_pos (by omega), neg_neg, halfEven, if_neg (by omega)]

theorem unit_mul_halfEven_le (double : unit = 2 * half) {amount : Int}
    (nonneg : 0 ≤ amount) :
    (unit : Int) * halfEven unit half amount ≤ amount + half := by
  rw [halfEven_of_nonneg nonneg]
  have bound := unit_mul_halfEvenNat_le double amount.toNat
  have cast : (amount.toNat : Int) = amount := Int.toNat_of_nonneg nonneg
  zify at bound
  rwa [cast] at bound

theorem le_unit_mul_halfEven (double : unit = 2 * half) (positive : 0 < half)
    {amount : Int} (nonneg : 0 ≤ amount) :
    amount ≤ (unit : Int) * halfEven unit half amount + half := by
  rw [halfEven_of_nonneg nonneg]
  have bound := le_unit_mul_halfEvenNat double positive amount.toNat
  have cast : (amount.toNat : Int) = amount := Int.toNat_of_nonneg nonneg
  zify at bound
  rwa [cast] at bound

theorem halfEven_unit_mul (double : unit = 2 * half) (positive : 0 < half)
    {count : Int} (nonneg : 0 ≤ count) :
    halfEven unit half (unit * count) = count := by
  have product : 0 ≤ (unit : Int) * count :=
    mul_nonneg (Int.natCast_nonneg _) nonneg
  rw [halfEven_of_nonneg product]
  obtain ⟨natural, rfl⟩ := Int.eq_ofNat_of_zero_le nonneg
  have cast : ((unit : Int) * (natural : Int)).toNat = unit * natural := by
    rw [← Nat.cast_mul, Int.toNat_natCast]
  rw [cast, halfEvenNat_unit_mul double positive]

theorem halfEven_eq_iff (double : unit = 2 * half) (positive : 0 < half)
    {amount result : Int} (nonneg : 0 ≤ amount) (resultNonneg : 0 ≤ result) :
    halfEven unit half amount = result ↔
      unit * result + result % 2 ≤ amount + half ∧
        amount + result % 2 ≤ unit * result + half := by
  obtain ⟨amount, rfl⟩ := Int.eq_ofNat_of_zero_le nonneg
  obtain ⟨result, rfl⟩ := Int.eq_ofNat_of_zero_le resultNonneg
  rw [halfEven_of_nonneg nonneg, Int.toNat_natCast, Int.natCast_inj,
    halfEvenNat_eq_iff double positive]
  exact_mod_cast Iff.rfl

theorem halfEvenNat_mono (double : unit = 2 * half) (positive : 0 < half)
    {lower upper : Nat} (ordered : lower ≤ upper) :
    halfEvenNat unit half lower ≤ halfEvenNat unit half upper := by
  have unitPositive : 0 < unit := by omega
  have lowerSplit := Nat.div_add_mod lower unit
  have upperSplit := Nat.div_add_mod upper unit
  have quotients : lower / unit ≤ upper / unit := Nat.div_le_div_right ordered
  rcases Nat.lt_or_ge (lower / unit) (upper / unit) with apart | together
  · rcases halfEvenNat_cases unit half lower with ⟨value, _⟩ | ⟨value, _⟩ <;>
      rcases halfEvenNat_cases unit half upper with ⟨value', _⟩ | ⟨value', _⟩ <;>
      omega
  · have same : lower / unit = upper / unit := by omega
    have remainders : lower % unit ≤ upper % unit := by
      rw [same] at lowerSplit
      omega
    unfold halfEvenNat
    dsimp only
    rw [same]
    split_ifs <;> omega

theorem halfEven_mono (double : unit = 2 * half) (positive : 0 < half)
    {lower upper : Int} (nonneg : 0 ≤ lower) (ordered : lower ≤ upper) :
    halfEven unit half lower ≤ halfEven unit half upper := by
  rw [halfEven_of_nonneg nonneg, halfEven_of_nonneg (le_trans nonneg ordered)]
  exact_mod_cast halfEvenNat_mono double positive (Int.toNat_le_toNat ordered)

end Rounding

end Library
