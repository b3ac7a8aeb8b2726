import Mathlib.Algebra.Order.Field.Basic
import Mathlib.Algebra.Order.Field.Rat
import Mathlib.Tactic.FieldSimp
import Neutron.Library.Rounding

namespace Library.Rounding

def IsNearestEven (exact : ℚ) (result : ℤ) : Prop :=
  |(result : ℚ) - exact| < 1 / 2 ∨ (|(result : ℚ) - exact| = 1 / 2 ∧ result % 2 = 0)

theorem IsNearestEven.le {exact : ℚ} {result : ℤ} (nearest : IsNearestEven exact result) :
    |(result : ℚ) - exact| ≤ 1 / 2 := by
  rcases nearest with near | ⟨half, _⟩
  · exact near.le
  · exact half.le

theorem IsNearestEven.result_le {exact : ℚ} {left right : ℤ}
    (leftNearest : IsNearestEven exact left) (rightNearest : IsNearestEven exact right) :
    left ≤ right := by
  by_contra above
  obtain ⟨leftBelow, leftAbove⟩ := abs_le.mp leftNearest.le
  obtain ⟨rightBelow, rightAbove⟩ := abs_le.mp rightNearest.le
  have apart : (right : ℚ) + 1 ≤ left := by exact_mod_cast not_le.mp above
  have leftHalf : |(left : ℚ) - exact| = 1 / 2 := by
    rw [abs_of_nonneg (by linarith)]
    linarith
  have rightHalf : |(right : ℚ) - exact| = 1 / 2 := by
    rw [abs_of_nonpos (by linarith)]
    linarith
  have leftEven : left % 2 = 0 := by
    rcases leftNearest with near | ⟨_, even⟩
    · exact absurd leftHalf near.ne
    · exact even
  have rightEven : right % 2 = 0 := by
    rcases rightNearest with near | ⟨_, even⟩
    · exact absurd rightHalf near.ne
    · exact even
  have next : (left : ℚ) = right + 1 := by linarith
  have nextInt : left = right + 1 := by exact_mod_cast next
  omega

theorem IsNearestEven.unique {exact : ℚ} {left right : ℤ}
    (leftNearest : IsNearestEven exact left) (rightNearest : IsNearestEven exact right) :
    left = right :=
  le_antisymm (leftNearest.result_le rightNearest) (rightNearest.result_le leftNearest)

theorem isNearestEven_self (number : ℤ) : IsNearestEven number number :=
  .inl (by rw [sub_self, abs_zero]; norm_num)

variable {unit half : Nat}

theorem isNearestEven_halfEvenNat (double : unit = 2 * half) (positive : 0 < half)
    (amount : Nat) : IsNearestEven (amount / unit) (halfEvenNat unit half amount) := by
  obtain ⟨lower, upper⟩ := (halfEvenNat_eq_iff double positive).mp
    (Eq.refl (halfEvenNat unit half amount))
  generalize halfEvenNat unit half amount = result at *
  have unitPos : (0 : ℚ) < unit := by
    have natural : 0 < unit := by omega
    exact_mod_cast natural
  have halfCast : (unit : ℚ) = 2 * half := by exact_mod_cast double
  have scaled : ((result : ℤ) : ℚ) - amount / unit = (unit * result - amount) / unit := by
    field_simp
    push_cast
    ring
  have magnitude : |((result : ℤ) : ℚ) - amount / unit| =
      |(unit * result - amount : ℚ)| / unit := by
    rw [scaled, abs_div, abs_of_pos unitPos]
  unfold IsNearestEven
  rw [magnitude]
  rcases Nat.mod_two_eq_zero_or_one result with even | odd
  · rw [even] at lower upper
    have within : |(unit * result - amount : ℚ)| ≤ half := by
      rw [abs_le]
      have lowerCast : (unit : ℚ) * result ≤ amount + half := by exact_mod_cast lower
      have upperCast : (amount : ℚ) ≤ unit * result + half := by exact_mod_cast upper
      constructor <;> linarith
    rcases within.lt_or_eq with near | tie
    · left
      rw [div_lt_iff₀ unitPos]
      linarith
    · right
      refine ⟨?_, by exact_mod_cast even⟩
      rw [div_eq_iff unitPos.ne']
      linarith
  · left
    rw [odd] at lower upper
    have within : |(unit * result - amount : ℚ)| < half := by
      rw [abs_lt]
      have lowerCast : (unit : ℚ) * result + 1 ≤ amount + half := by exact_mod_cast lower
      have upperCast : (amount : ℚ) + 1 ≤ unit * result + half := by exact_mod_cast upper
      constructor <;> linarith
    rw [div_lt_iff₀ unitPos]
    linarith

theorem halfEvenNat_div_eq_iff (double : unit = 2 * half) (positive : 0 < half)
    {scale : Nat} (scalePos : 0 < scale) (amount : Nat) :
    halfEvenNat unit half (amount / scale) =
        halfEvenNat (unit * scale) (half * scale) amount ↔
      ¬ (amount / scale % (2 * unit) = half ∧ amount % scale ≠ 0) := by
  have quotient : amount / (unit * scale) = amount / scale / unit := by
    rw [Nat.mul_comm, Nat.div_div_eq_div_mul]
  have remainder : amount % (unit * scale) =
      amount / scale % unit * scale + amount % scale := by
    rw [Nat.mul_comm unit, Nat.mod_mul, Nat.mul_comm scale, Nat.add_comm]
  have unitPos : 0 < unit := by omega
  have parity : amount / scale % (2 * unit) =
      amount / scale % unit + unit * (amount / scale / unit % 2) := by
    rw [Nat.mul_comm 2, Nat.mod_mul]
  have rest : amount % scale < scale := Nat.mod_lt _ scalePos
  have inUnit : amount / scale % unit < unit := Nat.mod_lt _ unitPos
  unfold halfEvenNat
  dsimp only
  rw [quotient, remainder, parity]
  clear quotient remainder parity
  generalize amount / scale % unit = digits at *
  generalize amount / scale / unit = whole
  generalize amount % scale = dropped at *
  have ordered : (digits < half ∧ (digits + 1) * scale ≤ half * scale) ∨ digits = half ∨
      (half < digits ∧ (half + 1) * scale ≤ digits * scale) := by
    rcases Nat.lt_trichotomy digits half with below | same | above
    · exact .inl ⟨below, Nat.mul_le_mul_right _ below⟩
    · exact .inr (.inl same)
    · exact .inr (.inr ⟨above, Nat.mul_le_mul_right _ above⟩)
  rw [Nat.add_mul, Nat.add_mul, Nat.one_mul] at ordered
  have shifted : (whole % 2 = 0 ∧ unit * (whole % 2) = 0) ∨
      (whole % 2 = 1 ∧ unit * (whole % 2) = unit) := by
    rcases Nat.mod_two_eq_zero_or_one whole with even | odd
    · exact .inl ⟨even, by rw [even, Nat.mul_zero]⟩
    · exact .inr ⟨odd, by rw [odd, Nat.mul_one]⟩
  generalize unit * (whole % 2) = parity at *
  rcases ordered with below | rfl | above <;> split_ifs <;> omega

end Library.Rounding
