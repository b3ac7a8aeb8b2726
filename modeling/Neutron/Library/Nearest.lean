import Mathlib.Algebra.Order.Group.Abs
import Mathlib.Tactic.Linarith

namespace Library

/-! The entry of an increasing table nearest to a value between two of its
entries is one of those two. -/

section Nearest

variable {Value : Type} [AddCommGroup Value] [LinearOrder Value]
  [IsOrderedAddMonoid Value] {table : Nat → Value} {last gap : Nat} {value : Value}

def IsNearest (table : Nat → Value) (last : Nat) (value : Value) (index : Nat) : Prop :=
  index ≤ last ∧ ∀ other ≤ last, |table index - value| ≤ |table other - value|

theorem dist_le_of_le_below {lower upper : Value} (ordered : lower ≤ upper)
    (below : upper ≤ value) : |upper - value| ≤ |lower - value| := by
  rw [abs_of_nonpos (sub_nonpos.mpr below),
    abs_of_nonpos (sub_nonpos.mpr (le_trans ordered below))]
  exact neg_le_neg (sub_le_sub_right ordered value)

theorem dist_le_of_le_above {lower upper : Value} (ordered : lower ≤ upper)
    (above : value ≤ lower) : |lower - value| ≤ |upper - value| := by
  rw [abs_of_nonneg (sub_nonneg.mpr above),
    abs_of_nonneg (sub_nonneg.mpr (le_trans above ordered))]
  exact sub_le_sub_right ordered value

theorem isNearest_iff_of_between (increasing : MonotoneOn table (Set.Iic last))
    (inside : gap < last) (below : table gap ≤ value) (above : value ≤ table (gap + 1))
    {index : Nat} (indexInside : index ≤ last) :
    IsNearest table last value index ↔
      |table index - value| ≤ |table gap - value| ∧
        |table index - value| ≤ |table (gap + 1) - value| := by
  constructor
  · intro nearest
    exact ⟨nearest.2 gap (le_of_lt inside), nearest.2 (gap + 1) inside⟩
  · rintro ⟨nearGap, nearNext⟩
    refine ⟨indexInside, fun other otherInside => ?_⟩
    rcases Nat.lt_or_ge gap other with after | before
    · exact le_trans nearNext
        (dist_le_of_le_above (increasing inside otherInside after) above)
    · exact le_trans nearGap
        (dist_le_of_le_below (increasing otherInside (le_of_lt inside) before) below)

end Nearest

end Library
