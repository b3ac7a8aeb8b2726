import Mathlib.Order.Fin.Basic
import Neutron.Library.Lexicographic

namespace Library

/-! Texts and numbers as the bytes a key-value store sees. -/

abbrev Byte := Fin 256

instance byte_neZero : NeZero 256 := ⟨by decide⟩

abbrev Bytes := List Byte

def bytes (text : String) : Bytes := text.toByteArray.data.toList.map UInt8.toFin

theorem bytes_injective : Function.Injective bytes := by
  intro left right same
  have sameList := List.map_injective_iff.mpr
    (fun _ _ => UInt8.toFin_inj.mp) same
  exact String.toByteArray_inj.mp (ByteArray.ext (Array.toList_inj.mp sameList))

theorem bytes_append (left right : String) :
    bytes (left ++ right) = bytes left ++ bytes right := by
  simp [bytes]

def charByte (char : Char) : Byte := Fin.ofNat 256 char.toNat

theorem bytes_singleton {char : Char} (ascii : char.toNat < 128) :
    bytes (String.ofList [char]) = [charByte char] := by
  have small : char.val.toNat ≤ 127 := Nat.le_of_lt_succ ascii
  rw [bytes, String.toByteArray_ofList, List.utf8Encode_singleton, String.utf8EncodeChar]
  simp only [small, if_true]
  simp [charByte]

theorem bytes_ofList {chars : List Char} (ascii : ∀ char ∈ chars, char.toNat < 128) :
    bytes (String.ofList chars) = chars.map charByte := by
  induction chars with
  | nil => rfl
  | cons char rest ih =>
      rw [List.forall_mem_cons] at ascii
      have split : String.ofList (char :: rest) = String.ofList [char] ++ String.ofList rest := by
        rw [← String.ofList_append]
        rfl
      rw [split, bytes_append, bytes_singleton ascii.1, ih ascii.2, List.map_cons]
      rfl

def bigEndian : Nat → Nat → Bytes
  | 0, _ => []
  | width + 1, number => bigEndian width (number / 256) ++ [Fin.ofNat 256 number]

@[simp] theorem length_bigEndian (width number : Nat) :
    (bigEndian width number).length = width := by
  induction width generalizing number with
  | zero => rfl
  | succ width ih => simp [bigEndian, ih]

theorem bigEndian_injective {width left right : Nat} (leftFits : left < 256 ^ width)
    (rightFits : right < 256 ^ width) (same : bigEndian width left = bigEndian width right) :
    left = right := by
  induction width generalizing left right with
  | zero =>
      rw [Nat.pow_zero] at leftFits rightFits
      omega
  | succ width ih =>
      obtain ⟨sameHigh, sameLow⟩ := List.append_inj' same rfl
      have lowByte : left % 256 = right % 256 := by
        have equal := (List.cons_eq_cons.mp sameLow).1
        exact congrArg Fin.val equal
      rw [Nat.pow_succ] at leftFits rightFits
      have highBytes : left / 256 = right / 256 :=
        ih (Nat.div_lt_of_lt_mul (by omega)) (Nat.div_lt_of_lt_mul (by omega)) sameHigh
      omega

theorem bigEndian_lt {width left right : Nat} (below : left < right)
    (fits : right < 256 ^ width) : bigEndian width left < bigEndian width right := by
  induction width generalizing left right with
  | zero =>
      rw [Nat.pow_zero] at fits
      omega
  | succ width ih =>
      rw [bigEndian, bigEndian]
      have highest : left / 256 ≤ right / 256 := Nat.div_le_div_right below.le
      rcases Nat.lt_or_eq_of_le highest with high | same
      · rw [Nat.pow_succ] at fits
        exact append_lt_append (by simp) (ih high (Nat.div_lt_of_lt_mul (by omega))) _ _
      · rw [same]
        refine List.append_left_lt (List.cons_lt_cons_iff.mpr (.inl ?_))
        exact Fin.lt_def.mpr (show left % 256 < right % 256 by omega)

theorem terminated_isPrefix_iff {separator : Byte} {left right : Bytes}
    (leftFree : separator ∉ left) (rightFree : separator ∉ right) (rest : Bytes) :
    left ++ [separator] <+: right ++ separator :: rest ↔ left = right := by
  induction left generalizing right with
  | nil =>
      cases right with
      | nil => simp
      | cons head tail =>
          have differs : separator ≠ head := fun same => rightFree (by simp [same])
          simp [differs]
  | cons head tail ih =>
      have tailFree : separator ∉ tail := fun member => leftFree (by simp [member])
      cases right with
      | nil =>
          have differs : head ≠ separator := fun same => leftFree (by simp [same])
          simp [differs]
      | cons other others =>
          have othersFree : separator ∉ others := fun member => rightFree (by simp [member])
          simp only [List.cons_append, List.cons_prefix_cons, ih tailFree othersFree,
            List.cons.injEq]

theorem terminated_append_isPrefix_iff {separator : Byte} {left right : Bytes}
    (leftFree : separator ∉ left) (rightFree : separator ∉ right) (leftRest rightRest : Bytes) :
    left ++ separator :: leftRest <+: right ++ separator :: rightRest ↔
      left = right ∧ leftRest <+: rightRest := by
  constructor
  · intro starts
    have same : left = right := by
      refine (terminated_isPrefix_iff leftFree rightFree rightRest).mp (.trans ?_ starts)
      rw [List.append_cons left separator leftRest]
      exact List.prefix_append _ _
    rw [same, List.prefix_append_right_inj, List.cons_prefix_cons] at starts
    exact ⟨same, starts.2⟩
  · rintro ⟨rfl, starts⟩
    rw [List.prefix_append_right_inj, List.cons_prefix_cons]
    exact ⟨rfl, starts⟩

theorem isPrefix_append_cons_iff {stop : Byte} {left right : Bytes} (free : stop ∉ left)
    (rest : Bytes) : left <+: right ++ stop :: rest ↔ left <+: right := by
  constructor
  · intro starts
    rcases List.prefix_or_prefix_of_prefix starts (List.prefix_append right _) with
      within | ⟨beyond, isLeft⟩
    · exact within
    · rw [← isLeft, List.prefix_append_right_inj] at starts
      cases beyond with
      | nil => exact ⟨[], by rw [← isLeft, List.append_nil, List.append_nil]⟩
      | cons head tail =>
          rw [List.cons_prefix_cons] at starts
          exact absurd (by rw [← isLeft, starts.1]; simp) free
  · intro within
    exact within.trans (List.prefix_append _ _)

end Library
