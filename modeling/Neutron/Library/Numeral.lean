import Mathlib.Tactic.Ring
import Neutron.Library.Bytes

namespace Library

def isDigit (byte : Byte) : Bool := 48 ≤ byte.val && byte.val ≤ 57

structure IsNumeral (text : Bytes) : Prop where
  nonempty : text ≠ []
  digits : ∀ byte ∈ text, isDigit byte

def digitsValue (digits : Bytes) : Nat :=
  digits.foldl (fun value digit => value * 10 + (digit.val - 48)) 0

theorem IsNumeral.append {first second : Bytes} (firstNumeral : IsNumeral first)
    (secondDigits : ∀ byte ∈ second, isDigit byte) : IsNumeral (first ++ second) where
  nonempty := by
    intro empty
    exact firstNumeral.nonempty (List.append_eq_nil_iff.mp empty).1
  digits byte member := by
    rcases List.mem_append.mp member with inFirst | inSecond
    · exact firstNumeral.digits byte inFirst
    · exact secondDigits byte inSecond

theorem foldl_digits (digits : Bytes) (start : Nat) :
    digits.foldl (fun value digit => value * 10 + (digit.val - 48)) start =
      start * 10 ^ digits.length + digitsValue digits := by
  unfold digitsValue
  induction digits generalizing start with
  | nil => simp
  | cons digit rest ih =>
      rw [List.foldl_cons, List.foldl_cons, ih, ih (0 * 10 + _), List.length_cons]
      ring

theorem digitsValue_append (first second : Bytes) :
    digitsValue (first ++ second) =
      digitsValue first * 10 ^ second.length + digitsValue second := by
  unfold digitsValue
  rw [List.foldl_append, foldl_digits]
  rfl

theorem digitsValue_zeros (count : Nat) : digitsValue (List.replicate count 48) = 0 := by
  induction count with
  | zero => rfl
  | succ count ih =>
      rw [List.replicate_succ]
      exact ih

end Library
