import Mathlib.Data.List.Lex
import Mathlib.Data.Nat.Digits.Lemmas

namespace Library

universe u v

/-! The lexicographic order of lists whose first difference is known. -/

variable {Item : Type u} [LT Item]

theorem append_lt_append {left right : List Item} (sameLength : left.length = right.length)
    (below : left < right) (leftRest rightRest : List Item) :
    left ++ leftRest < right ++ rightRest := by
  induction left generalizing right with
  | nil =>
      rw [List.length_eq_zero_iff.mp sameLength.symm] at below
      exact absurd below (List.not_lt_nil _)
  | cons head rest ih =>
      cases right with
      | nil => cases sameLength
      | cons other others =>
          rw [List.cons_append, List.cons_append, List.cons_lt_cons_iff]
          rcases List.cons_lt_cons_iff.mp below with headBelow | ⟨sameHead, restBelow⟩
          · exact .inl headBelow
          · exact .inr ⟨sameHead, ih (Nat.succ.inj sameLength) restBelow⟩

theorem map_lt_map {Image : Type v} [LT Image] {view : Item → Image} {left right : List Item}
    (mono : ∀ first ∈ left, ∀ second ∈ right, first < second → view first < view second)
    (below : left < right) : left.map view < right.map view := by
  induction left generalizing right with
  | nil =>
      cases right with
      | nil => exact absurd below (List.not_lt_nil _)
      | cons other others => exact List.nil_lt_cons _ _
  | cons head rest ih =>
      cases right with
      | nil => exact absurd below (List.not_lt_nil _)
      | cons other others =>
          rw [List.map_cons, List.map_cons, List.cons_lt_cons_iff]
          rcases List.cons_lt_cons_iff.mp below with headBelow | ⟨sameHead, restBelow⟩
          · exact .inl (mono _ List.mem_cons_self _ List.mem_cons_self headBelow)
          · refine .inr ⟨congrArg view sameHead, ih (fun first member second other => ?_) restBelow⟩
            exact mono first (List.mem_cons_of_mem _ member) second (List.mem_cons_of_mem _ other)

theorem reverse_digits_lt {base left right : Nat} (proper : 1 < base) (below : left < right)
    (sameLength : (base.digits left).length = (base.digits right).length) :
    (base.digits left).reverse < (base.digits right).reverse := by
  induction right using Nat.strong_induction_on generalizing left with
  | _ right ih =>
      have rightPos : 0 < right := Nat.zero_lt_of_lt below
      rcases Nat.eq_zero_or_pos left with rfl | leftPos
      · rw [Nat.digits_zero, Nat.digits_def' proper rightPos] at sameLength
        cases sameLength
      · rw [Nat.digits_def' proper leftPos, Nat.digits_def' proper rightPos] at sameLength ⊢
        rw [List.reverse_cons, List.reverse_cons]
        have shorter := Nat.succ.inj sameLength
        rcases Nat.lt_or_eq_of_le (Nat.div_le_div_right (c := base) below.le) with high | same
        · refine append_lt_append ?_ (ih _ (Nat.div_lt_self rightPos proper) high shorter) _ _
          rw [List.length_reverse, List.length_reverse, shorter]
        · rw [same]
          refine List.append_left_lt (List.cons_lt_cons_iff.mpr (.inl ?_))
          have leftParts := Nat.div_add_mod left base
          have rightParts := Nat.div_add_mod right base
          rw [same] at leftParts
          omega

end Library
