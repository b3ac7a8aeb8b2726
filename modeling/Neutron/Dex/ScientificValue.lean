import Mathlib.Data.List.TakeWhile
import Neutron.Library.NearestEven
import Neutron.Dex.Scientific

namespace Neutron.Dex

open Library PrecDec

theorem bitLen_le_iff {number : Int} {width : Nat} :
    bitLen number ≤ width ↔ number.natAbs < 2 ^ width := by
  unfold bitLen
  split
  · rename_i zero
    simp [zero]
  · rename_i nonzero
    rw [Nat.succ_le_iff, Nat.log2_lt (Int.natAbs_ne_zero.mpr nonzero)]

namespace PrecDec

theorem guarded_natCast (digits : Nat) :
    guarded digits = if digits < 2 ^ maxPrecDecBitLen then .ok ⟨digits⟩
      else .error .overflowPanic := by
  have fits : ¬ maxPrecDecBitLen < bitLen digits ↔ digits < 2 ^ maxPrecDecBitLen := by
    rw [not_lt, bitLen_le_iff, Int.natAbs_natCast]
  unfold guarded
  by_cases within : digits < 2 ^ maxPrecDecBitLen
  · rw [if_pos within, if_neg (fits.mpr within)]
    rfl
  · rw [if_neg within, if_pos (not_not.mp fun inside => within (fits.mp inside))]
    rfl

theorem chopPrecisionAndRound_natCast (digits : Nat) :
    chopPrecisionAndRound digits =
      Rounding.halfEvenNat precisionReuse fivePrecision digits := by
  unfold chopPrecisionAndRound
  rw [Rounding.halfEven_of_nonneg (Int.natCast_nonneg _), Int.toNat_natCast]

def powerOfTen (power : Nat) : PrecDec := ⟨(10 ^ 27 * 10 ^ power : Nat)⟩

theorem ten_pow_lt_iff {power : Nat} :
    10 ^ 27 * 10 ^ power < 2 ^ maxPrecDecBitLen ↔ power ≤ 76 := by
  have limit : 2 ^ maxPrecDecBitLen = 2 ^ 200 * 2 ^ 145 := by
    rw [show maxPrecDecBitLen = 200 + 145 from rfl, Nat.pow_add]
  rw [limit]
  constructor
  · intro below
    by_contra above
    have grows : 10 ^ 77 ≤ 10 ^ power := Nat.pow_le_pow_right (by decide) (not_le.mp above)
    have beyond : 2 ^ 200 * 2 ^ 145 ≤ 10 ^ 27 * 10 ^ 77 := by decide
    exact absurd below (not_lt.mpr (beyond.trans (Nat.mul_le_mul_left _ grows)))
  · intro small
    have grows : 10 ^ power ≤ 10 ^ 76 := Nat.pow_le_pow_right (by decide) small
    exact lt_of_le_of_lt (Nat.mul_le_mul_left _ grows) (by decide)

theorem mulMut_powerOfTen (digits power : Nat) :
    PrecDec.mulMut ⟨digits⟩ (powerOfTen power) =
      if digits * 10 ^ power < 2 ^ maxPrecDecBitLen then .ok ⟨(digits * 10 ^ power : Nat)⟩
      else .error .overflowPanic := by
  have product : (digits : Int) * (powerOfTen power).i =
      (precisionReuse * (digits * 10 ^ power) : Nat) := by
    unfold powerOfTen
    rw [show precisionReuse = 10 ^ 27 by decide]
    push_cast
    ring
  unfold mulMut
  rw [product, chopPrecisionAndRound_natCast,
    Rounding.halfEvenNat_unit_mul precisionReuse_eq fivePrecision_pos, guarded_natCast]

theorem powerOfTen_mulMut (left right : Nat) :
    (powerOfTen left).mulMut (powerOfTen right) =
      if left + right ≤ 76 then .ok (powerOfTen (left + right))
      else .error .overflowPanic := by
  have product : 10 ^ 27 * 10 ^ left * 10 ^ right = 10 ^ 27 * 10 ^ (left + right) := by
    rw [pow_add, mul_assoc]
  refine (mulMut_powerOfTen (10 ^ 27 * 10 ^ left) right).trans ?_
  rw [product]
  by_cases small : left + right ≤ 76
  · rw [if_pos small, if_pos (ten_pow_lt_iff.mpr small)]
    rfl
  · rw [if_neg small, if_neg (mt ten_pow_lt_iff.mp small)]

theorem powerLoop_powerOfTen (turns : Nat) {power done : Nat} (positive : 0 < power)
    (fits : power < 2 ^ (turns + 1)) (small : done ≤ 76) (step : Nat) :
    (do
      let (tmp, base) ← powerLoop turns power (powerOfTen done) (powerOfTen step)
      base.mulMut tmp) =
      if done + step * power ≤ 76 then .ok (powerOfTen (done + step * power))
      else .error .overflowPanic := by
  induction turns generalizing power done step with
  | zero =>
      have one : power = 1 := by omega
      subst one
      rw [mul_one, Nat.add_comm done]
      exact powerOfTen_mulMut step done
  | succ turns ih =>
      unfold powerLoop
      by_cases more : 1 < power
      · obtain ⟨next, multiplied, total⟩ : ∃ next,
            (if power % 2 ≠ 0 then (powerOfTen done).mulMut (powerOfTen step)
              else pure (powerOfTen done)) =
              (if next ≤ 76 then .ok (powerOfTen next) else .error .overflowPanic) ∧
            next + (step + step) * (power / 2) = done + step * power := by
          have parts := Nat.div_add_mod power 2
          rcases Nat.mod_two_eq_zero_or_one power with even | odd
          · refine ⟨done, ?_, ?_⟩
            · rw [if_neg (by omega), if_pos small]
              rfl
            · rw [even, add_zero] at parts
              nth_rewrite 2 [← parts]
              ring
          · refine ⟨done + step, ?_, ?_⟩
            · rw [if_pos (by omega), powerOfTen_mulMut]
            · rw [odd] at parts
              nth_rewrite 2 [← parts]
              ring
        have halfPositive : 0 < power / 2 := by omega
        have halfFits : power / 2 < 2 ^ (turns + 1) := by
          rw [Nat.pow_succ] at fits
          omega
        have covers : step + step ≤ (step + step) * (power / 2) :=
          Nat.le_mul_of_pos_right _ halfPositive
        rw [if_pos more, multiplied, powerOfTen_mulMut, ← total]
        by_cases nextSmall : next ≤ 76
        · by_cases squareSmall : step + step ≤ 76
          · rw [if_pos nextSmall, if_pos squareSmall]
            exact ih halfPositive halfFits nextSmall (step + step)
          · have tooMuch : ¬ next + (step + step) * (power / 2) ≤ 76 := by omega
            rw [if_pos nextSmall, if_neg squareSmall, if_neg tooMuch]
            rfl
        · have tooMuch : ¬ next + (step + step) * (power / 2) ≤ 76 := by omega
          rw [if_neg nextSmall, if_neg tooMuch]
          rfl
      · have one : power = 1 := by omega
        subst one
        rw [if_neg more, mul_one, Nat.add_comm done]
        exact powerOfTen_mulMut step done

theorem powerMut_ten {power : Nat} (fits : power < 2 ^ 64) :
    (newPrecDecFromInt 10).powerMut power =
      if power ≤ 76 then .ok (powerOfTen power) else .error .overflowPanic := by
  unfold powerMut
  by_cases zero : power = 0
  · subst zero
    rfl
  · rw [if_neg zero]
    have loop := @powerLoop_powerOfTen 64 power 0 (Nat.pos_of_ne_zero zero)
      (lt_trans fits (by decide)) (by decide) 1
    rw [one_mul, zero_add] at loop
    exact loop

theorem quoMut_powerOfTen (digits power : Nat) (inRange : digits < 2 ^ maxPrecDecBitLen) :
    PrecDec.quoMut ⟨digits⟩ (powerOfTen power) =
      .ok ⟨Rounding.halfEvenNat precisionReuse fivePrecision
        (digits * 10 ^ 27 / 10 ^ power)⟩ := by
  have scaled : ((⟨digits⟩ : PrecDec).i * (precisionReuse * precisionReuse : Nat)).tdiv
      (powerOfTen power).i = (digits * 10 ^ 27 / 10 ^ power : Nat) := by
    have numerator : (⟨digits⟩ : PrecDec).i * (precisionReuse * precisionReuse : Nat) =
        (digits * 10 ^ 27 * 10 ^ 27 : Nat) := by
      rw [show precisionReuse = 10 ^ 27 by decide]
      push_cast
      ring
    unfold powerOfTen
    rw [numerator, ← Int.ofNat_tdiv, Nat.mul_comm (10 ^ 27) (10 ^ power),
      Nat.mul_div_mul_right _ _ (by decide)]
  have nonzero : (powerOfTen power).i ≠ 0 := by
    unfold powerOfTen
    positivity
  unfold quoMut
  have within : Rounding.halfEvenNat precisionReuse fivePrecision
      (digits * 10 ^ 27 / 10 ^ power) ≤ digits := by
    have rounded := Rounding.unit_mul_halfEvenNat_le precisionReuse_eq
      (digits * 10 ^ 27 / 10 ^ power)
    have divided : digits * 10 ^ 27 / 10 ^ power ≤ digits * 10 ^ 27 := Nat.div_le_self _ _
    rw [show precisionReuse = 10 ^ 27 by decide,
      show fivePrecision = 5 * 10 ^ 26 by decide] at rounded ⊢
    omega
  rw [if_neg nonzero, scaled, chopPrecisionAndRound_natCast, guarded_natCast,
    if_pos (lt_of_le_of_lt within inRange)]

end PrecDec

def signText : Option Sign → Bytes
  | none => []
  | some .minus => [minusSign]
  | some .plus => [plusSign]

structure Exponent where
  marker : Byte
  isMarker : isExponentMarker marker
  sign : Option Sign
  digits : Bytes
  numeral : IsNumeral digits

def Exponent.text (exponent : Exponent) : Bytes :=
  exponent.marker :: (signText exponent.sign ++ exponent.digits)

structure Literal where
  whole : Bytes
  wholeNumeral : IsNumeral whole
  decimals : Bytes
  decimalsDigits : ∀ byte ∈ decimals, isDigit byte
  decimalsFit : decimals.length ≤ 27
  exponent : Option Exponent

namespace Literal

variable (literal : Literal)

def baseText : Bytes :=
  if literal.decimals = [] then
    literal.whole
  else
    literal.whole ++ dot :: literal.decimals

def text : Bytes := literal.baseText ++ literal.exponent.elim [] Exponent.text

def mantissa : ℚ :=
  digitsValue (literal.whole ++ literal.decimals) / 10 ^ literal.decimals.length

def value : ℚ :=
  match literal.exponent with
  | none => literal.mantissa
  | some exponent =>
      if exponent.sign = some .minus then
        literal.mantissa / 10 ^ digitsValue exponent.digits
      else
        literal.mantissa * 10 ^ digitsValue exponent.digits

def units : Nat :=
  digitsValue (literal.whole ++ literal.decimals) * 10 ^ (27 - literal.decimals.length)

theorem units_eq : (literal.units : ℚ) = literal.mantissa * 10 ^ 27 := by
  have split : (10 : ℚ) ^ 27 =
      10 ^ literal.decimals.length * 10 ^ (27 - literal.decimals.length) := by
    rw [← pow_add, Nat.add_sub_cancel' literal.decimalsFit]
  unfold units mantissa
  rw [split]
  push_cast
  field_simp

end Literal

theorem isDigit_ne {byte : Byte} (digit : isDigit byte) :
    byte ≠ dot ∧ byte ≠ minusSign ∧ byte ≠ plusSign := by
  refine ⟨?_, ?_, ?_⟩ <;> rintro rfl <;> exact absurd digit (by decide)

theorem dot_not_mem_digits {text : Bytes} (digits : ∀ byte ∈ text, isDigit byte) :
    dot ∉ text :=
  fun member => (isDigit_ne (digits dot member)).1 rfl

theorem head?_ne_sign {text : Bytes} (numeral : IsNumeral text) :
    text.head? ≠ some minusSign ∧ text.head? ≠ some plusSign := by
  cases text with
  | nil => exact absurd rfl numeral.nonempty
  | cons first rest =>
      obtain ⟨_, notMinus, notPlus⟩ := isDigit_ne (numeral.digits first List.mem_cons_self)
      exact ⟨fun same => notMinus (Option.some.inj same),
        fun same => notPlus (Option.some.inj same)⟩

theorem splitSign_signText {digits : Bytes} (numeral : IsNumeral digits) (sign : Option Sign) :
    splitSign (signText sign ++ digits) = (sign, digits) := by
  cases sign with
  | none =>
      cases digits with
      | nil => exact absurd rfl numeral.nonempty
      | cons first rest =>
          obtain ⟨_, notMinus, notPlus⟩ := isDigit_ne (numeral.digits first List.mem_cons_self)
          exact (if_neg notMinus).trans (if_neg notPlus)
  | some sign =>
      cases sign with
      | minus => rfl
      | plus => rfl

theorem signText_splitSign (text : Bytes) :
    signText (splitSign text).1 ++ (splitSign text).2 = text := by
  cases text with
  | nil => rfl
  | cons first rest =>
      unfold splitSign
      dsimp only
      split_ifs with isMinus isPlus
      · rw [isMinus]
        rfl
      · rw [isPlus]
        rfl
      · rfl

namespace Literal

variable (literal : Literal)

theorem baseText_isBaseByte : ∀ byte ∈ literal.baseText, isBaseByte byte := by
  have digitIsBase : ∀ {byte : Byte}, isDigit byte → isBaseByte byte := by
    intro byte digit
    unfold isBaseByte
    rw [digit, Bool.true_or]
  intro byte member
  unfold baseText at member
  split at member
  · exact digitIsBase (literal.wholeNumeral.digits byte member)
  · rcases List.mem_append.mp member with inWhole | inRest
    · exact digitIsBase (literal.wholeNumeral.digits byte inWhole)
    · rcases List.mem_cons.mp inRest with rfl | inDecimals
      · decide
      · exact digitIsBase (literal.decimalsDigits byte inDecimals)

theorem baseText_ne_nil : literal.baseText ≠ [] := by
  intro empty
  unfold baseText at empty
  split at empty
  · exact literal.wholeNumeral.nonempty empty
  · exact literal.wholeNumeral.nonempty (List.append_eq_nil_iff.mp empty).1

theorem isExponentMarker_not_base {marker : Byte} (isMarker : isExponentMarker marker) :
    isBaseByte marker = false := by
  unfold isExponentMarker at isMarker
  rcases (Bool.or_eq_true _ _).mp isMarker with upper | lower
  · rw [beq_iff_eq.mp upper]
    decide
  · rw [beq_iff_eq.mp lower]
    decide

theorem scientificNotationRE_text :
    scientificNotationRE literal.text = some ⟨literal.baseText,
      literal.exponent.map fun exponent => (exponent.sign, exponent.digits)⟩ := by
  unfold scientificNotationRE text
  dsimp only
  rw [List.takeWhile_append_of_pos literal.baseText_isBaseByte,
    List.dropWhile_append_of_pos literal.baseText_isBaseByte]
  cases literal.exponent with
  | none =>
      have rest : literal.baseText ++ List.takeWhile isBaseByte [] = literal.baseText :=
        List.append_nil _
      rw [Option.elim_none, rest, if_neg literal.baseText_ne_nil]
      rfl
  | some exponent =>
      have outside := isExponentMarker_not_base exponent.isMarker
      have stops : List.takeWhile isBaseByte exponent.text = [] := by
        unfold Exponent.text
        rw [List.takeWhile_cons_of_neg (by rw [outside]; decide)]
      have remains : List.dropWhile isBaseByte exponent.text =
          exponent.marker :: (signText exponent.sign ++ exponent.digits) := by
        unfold Exponent.text
        rw [List.dropWhile_cons_of_neg (by rw [outside]; decide)]
      rw [Option.elim_some, stops, List.append_nil, remains,
        if_neg literal.baseText_ne_nil]
      dsimp only
      rw [splitSign_signText exponent.numeral]
      exact if_pos ⟨exponent.isMarker, exponent.numeral.nonempty,
        List.all_eq_true.mpr exponent.numeral.digits⟩

theorem setString_numeral {text : Bytes} (numeral : IsNumeral text) :
    setString text = some (digitsValue text : Int) := by
  obtain ⟨notMinus, notPlus⟩ := head?_ne_sign numeral
  unfold setString
  dsimp only
  rw [if_neg (not_or.mpr ⟨notMinus, notPlus⟩), if_neg notMinus]
  exact if_pos ⟨numeral.nonempty, List.all_eq_true.mpr numeral.digits⟩

theorem readCombined_digits (text : Bytes) :
    readCombined text (literal.whole ++ literal.decimals) literal.decimals.length false =
      if literal.units < 2 ^ maxPrecDecBitLen then .ok ⟨literal.units⟩
      else .error (.outOfRange text (bitLen literal.units)) := by
  have zeros : ∀ byte ∈ List.replicate (27 - literal.decimals.length) (48 : Byte),
      isDigit byte := by
    intro byte member
    rw [(List.mem_replicate.mp member).2]
    decide
  have number : (digitsValue (literal.whole ++ literal.decimals ++
      List.replicate (27 - literal.decimals.length) 48) : Int) = literal.units := by
    rw [digitsValue_append, digitsValue_zeros, List.length_replicate, add_zero]
    rfl
  unfold readCombined
  rw [if_neg (not_lt.mpr literal.decimalsFit)]
  dsimp only
  rw [setString_numeral ((literal.wholeNumeral.append literal.decimalsDigits).append zeros),
    number]
  have fits : ¬ maxPrecDecBitLen < bitLen literal.units ↔
      literal.units < 2 ^ maxPrecDecBitLen := by
    rw [not_lt, bitLen_le_iff, Int.natAbs_natCast]
  by_cases within : literal.units < 2 ^ maxPrecDecBitLen
  · rw [if_pos within]
    exact if_neg (fits.mpr within)
  · rw [if_neg within]
    exact if_pos (not_not.mp fun inside => within (fits.mp inside))

theorem splitOn_baseText :
    literal.baseText.splitOn dot =
      if literal.decimals = [] then [literal.whole] else [literal.whole, literal.decimals] := by
  have wholeDot := dot_not_mem_digits literal.wholeNumeral.digits
  have decimalsDot := dot_not_mem_digits literal.decimalsDigits
  unfold baseText
  split
  · exact List.splitOn_eq_singleton wholeDot
  · rw [List.splitOn_append_cons_self_of_not_mem wholeDot,
      List.splitOn_eq_singleton decimalsDot]

theorem newPrecDecFromStr_baseText :
    newPrecDecFromStr literal.baseText =
      if literal.units < 2 ^ maxPrecDecBitLen then .ok ⟨literal.units⟩
      else .error (.outOfRange literal.baseText (bitLen literal.units)) := by
  have unsigned : literal.baseText.head? ≠ some minusSign := by
    intro signed
    have first : literal.baseText.head? = literal.whole.head? := by
      unfold baseText
      split
      · rfl
      · exact List.head?_append_of_ne_nil _ literal.wholeNumeral.nonempty
    exact (head?_ne_sign literal.wholeNumeral).1 (first ▸ signed)
  rw [← literal.readCombined_digits]
  unfold newPrecDecFromStr
  simp only [decide_eq_false unsigned, Bool.false_eq_true, if_false]
  rw [if_neg literal.baseText_ne_nil, literal.splitOn_baseText]
  by_cases none : literal.decimals = []
  · rw [if_pos none, none, List.append_nil]
    rfl
  · rw [if_neg none]
    refine if_neg (not_or.mpr ⟨?_, ?_⟩)
    · exact fun empty => none (List.length_eq_zero_iff.mp empty)
    · exact fun empty => literal.wholeNumeral.nonempty (List.length_eq_zero_iff.mp empty)

end Literal

theorem newPrecDecFromStr_eq_ok {base : Bytes} {number : PrecDec}
    (isBase : ∀ byte ∈ base, isBaseByte byte) (ok : newPrecDecFromStr base = .ok number)
    (exponent : Option Exponent) :
    ∃ literal : Literal, base = literal.baseText ∧ literal.exponent = exponent := by
  have digits : ∀ {part : Bytes}, (∀ byte ∈ part, byte ∈ base) → dot ∉ part →
      ∀ byte ∈ part, isDigit byte := by
    intro part within noDot byte member
    have known := isBase byte (within byte member)
    unfold isBaseByte at known
    rcases (Bool.or_eq_true _ _).mp known with digit | isDot
    · exact digit
    · exact absurd (beq_iff_eq.mp isDot ▸ member) noDot
  have unsigned : base.head? ≠ some minusSign := by
    intro signed
    have known := isBase minusSign (List.mem_of_head? signed)
    exact absurd known (by decide)
  unfold newPrecDecFromStr at ok
  simp only [decide_eq_false unsigned, Bool.false_eq_true, if_false] at ok
  split at ok
  · cases ok
  · rename_i nonempty
    by_cases hasDot : dot ∈ base
    · obtain ⟨whole, rest, rfl, wholeDot⟩ := List.eq_append_cons_of_mem hasDot
      rw [List.splitOn_append_cons_self_of_not_mem wholeDot] at ok
      by_cases moreDots : dot ∈ rest
      · obtain ⟨second, third, rfl, secondDot⟩ := List.eq_append_cons_of_mem moreDots
        rw [List.splitOn_append_cons_self_of_not_mem secondDot] at ok
        obtain ⟨part, parts, isSplit⟩ :=
          List.exists_cons_of_ne_nil (List.splitOn_ne_nil dot third)
        rw [isSplit] at ok
        cases ok
      · rw [List.splitOn_eq_singleton moreDots] at ok
        dsimp only at ok
        split at ok
        · cases ok
        · rename_i lengths
          obtain ⟨someDecimals, someWhole⟩ := not_or.mp lengths
          unfold readCombined at ok
          split at ok
          · cases ok
          · rename_i fits
            have wholeDigits : ∀ byte ∈ whole, isDigit byte :=
              digits (fun _ member => List.mem_append_left _ member) wholeDot
            have restDigits : ∀ byte ∈ rest, isDigit byte :=
              digits (fun _ member => List.mem_append_right _ (List.mem_cons_of_mem _ member))
                moreDots
            refine ⟨⟨whole, ⟨fun empty => someWhole (List.length_eq_zero_iff.mpr empty),
              wholeDigits⟩, rest, restDigits, not_lt.mp fits, exponent⟩, ?_, rfl⟩
            exact (if_neg fun empty => someDecimals (List.length_eq_zero_iff.mpr empty)).symm
    · rw [List.splitOn_eq_singleton hasDot] at ok
      exact ⟨⟨base, ⟨nonempty, digits (fun _ member => member) hasDot⟩, [],
        fun _ member => absurd member List.not_mem_nil, Nat.zero_le _, exponent⟩, rfl, rfl⟩

theorem scientificNotationRE_eq_some {text : Bytes} {found : ScientificMatch}
    (isMatch : scientificNotationRE text = some found) :
    (∀ byte ∈ found.base, isBaseByte byte) ∧ ∃ exponent : Option Exponent,
      text = found.base ++ exponent.elim [] Exponent.text := by
  have parts := @List.takeWhile_append_dropWhile _ isBaseByte text
  unfold scientificNotationRE at isMatch
  dsimp only at isMatch
  split at isMatch
  · cases isMatch
  · split at isMatch
    · rename_i ends
      cases isMatch
      rw [ends] at parts
      exact ⟨fun _ member => List.mem_takeWhile_imp member, none, parts.symm⟩
    · rename_i marker rest continues
      split at isMatch
      · rename_i isExponent
        obtain ⟨isMarker, nonempty, digits⟩ := isExponent
        cases isMatch
        refine ⟨fun _ member => List.mem_takeWhile_imp member, some ⟨marker, isMarker,
          (splitSign rest).1, (splitSign rest).2, nonempty, List.all_eq_true.mp digits⟩, ?_⟩
        rw [Option.elim_some, Exponent.text, signText_splitSign, ← continues]
        exact parts.symm
      · cases isMatch

theorem exists_literal {text : Bytes} {found : ScientificMatch} {number : PrecDec}
    (isMatch : scientificNotationRE text = some found)
    (ok : newPrecDecFromStr found.base = .ok number) :
    ∃ literal : Literal, text = literal.text := by
  obtain ⟨isBase, exponent, isText⟩ := scientificNotationRE_eq_some isMatch
  obtain ⟨literal, base, isExponent⟩ := newPrecDecFromStr_eq_ok isBase ok exponent
  refine ⟨literal, ?_⟩
  rw [isText, base, Literal.text, isExponent]

namespace Literal

variable (literal : Literal)

def shifted (exponent : Exponent) : Parsed PrecDec :=
  let power := digitsValue exponent.digits
  if ¬ power < 2 ^ 64 then
    .error (.exponentOutOfRange exponent.digits)
  else if ¬ power ≤ 76 then
    .error .overflowPanic
  else if exponent.sign = some .minus then
    .ok ⟨Rounding.halfEvenNat precisionReuse fivePrecision
      (literal.units * 10 ^ 27 / 10 ^ power)⟩
  else if literal.units * 10 ^ power < 2 ^ maxPrecDecBitLen then
    .ok ⟨(literal.units * 10 ^ power : Nat)⟩
  else
    .error .overflowPanic

theorem parsePrecDecScientificNotation_text :
    parsePrecDecScientificNotation literal.text =
      if literal.units < 2 ^ maxPrecDecBitLen then
        literal.exponent.elim (.ok ⟨literal.units⟩) literal.shifted
      else
        .error (.base (.outOfRange literal.baseText (bitLen literal.units))) := by
  unfold parsePrecDecScientificNotation
  rw [literal.scientificNotationRE_text]
  dsimp only
  rw [literal.newPrecDecFromStr_baseText]
  by_cases inRange : literal.units < 2 ^ maxPrecDecBitLen
  · rw [if_pos inRange, if_pos inRange]
    cases literal.exponent with
    | none => rfl
    | some exponent =>
        rw [Option.map_some, Option.elim_some, shifted]
        dsimp only
        unfold parseUint
        by_cases fits : digitsValue exponent.digits < 2 ^ 64
        · rw [if_pos fits, if_neg (not_not.mpr fits)]
          change (newPrecDecFromInt 10).powerMut (digitsValue exponent.digits) >>= _ = _
          rw [powerMut_ten fits]
          by_cases small : digitsValue exponent.digits ≤ 76
          · rw [if_pos small, if_neg (not_not.mpr small), Outcome.ok_bind,
              quoMut_powerOfTen _ _ inRange, mulMut_powerOfTen]
          · rw [if_neg small, if_pos small]
            rfl
        · rw [if_neg fits, if_pos fits]
          rfl
  · rw [if_neg inRange, if_neg inRange]
    rfl

end Literal

def CutsToTie (units power : Nat) : Prop :=
  27 < power ∧ units / 10 ^ (power - 27) % (2 * 10 ^ 27) = 5 * 10 ^ 26 ∧
    units % 10 ^ (power - 27) ≠ 0

instance (units power : Nat) : Decidable (CutsToTie units power) :=
  inferInstanceAs (Decidable (_ ∧ _ ∧ _))

theorem isNearestEven_quotient_iff (units power : Nat) :
    Rounding.IsNearestEven (units / 10 ^ power : ℚ)
        (Rounding.halfEvenNat precisionReuse fivePrecision (units * 10 ^ 27 / 10 ^ power)) ↔
      ¬ CutsToTie units power := by
  have unit : precisionReuse = 10 ^ 27 := by decide
  have half : fivePrecision = 5 * 10 ^ 26 := by decide
  by_cases small : power ≤ 27
  · -- nothing is cut off
    have split : 10 ^ 27 = 10 ^ (27 - power) * 10 ^ power := by
      rw [← pow_add, Nat.sub_add_cancel small]
    have exactly : units * 10 ^ 27 / 10 ^ power = units * 10 ^ (27 - power) := by
      rw [split, ← Nat.mul_assoc, Nat.mul_div_cancel _ (by positivity)]
    have nearest := Rounding.isNearestEven_halfEvenNat precisionReuse_eq fivePrecision_pos
      (units * 10 ^ (27 - power))
    have value : ((units * 10 ^ (27 - power) : Nat) : ℚ) / precisionReuse =
        units / 10 ^ power := by
      rw [unit, split]
      push_cast
      field_simp
    rw [value] at nearest
    rw [exactly]
    exact iff_of_true nearest fun cut => absurd cut.1 (not_lt.mpr small)
  · have large : 27 < power := not_le.mp small
    have split : 10 ^ power = 10 ^ (power - 27) * 10 ^ 27 := by
      rw [← pow_add, Nat.sub_add_cancel large.le]
    have scalePos : 0 < 10 ^ (power - 27) := by positivity
    have cut : units * 10 ^ 27 / 10 ^ power = units / 10 ^ (power - 27) := by
      rw [split, Nat.mul_div_mul_right _ _ (by decide)]
    have nearest := @Rounding.isNearestEven_halfEvenNat (precisionReuse * 10 ^ (power - 27))
      (fivePrecision * 10 ^ (power - 27)) (by rw [precisionReuse_eq, Nat.mul_assoc])
      (Nat.mul_pos fivePrecision_pos scalePos) units
    have value : (units : ℚ) / (precisionReuse * 10 ^ (power - 27) : Nat) =
        units / 10 ^ power := by
      rw [unit]
      congr 1
      exact_mod_cast (split.trans (Nat.mul_comm _ _)).symm
    rw [value] at nearest
    have same : Rounding.IsNearestEven (units / 10 ^ power : ℚ)
        (Rounding.halfEvenNat precisionReuse fivePrecision (units / 10 ^ (power - 27))) ↔
        Rounding.halfEvenNat precisionReuse fivePrecision (units / 10 ^ (power - 27)) =
          Rounding.halfEvenNat (precisionReuse * 10 ^ (power - 27))
            (fivePrecision * 10 ^ (power - 27)) units := by
      constructor
      · intro isNearest
        exact_mod_cast isNearest.unique nearest
      · intro equal
        rw [equal]
        exact nearest
    rw [cut, same,
      Rounding.halfEvenNat_div_eq_iff precisionReuse_eq fivePrecision_pos scalePos, half, unit]
    exact not_congr (and_iff_right large).symm

namespace Literal

variable (literal : Literal)

/-- The exponent does not overflow, nor does the value, and the value is not cut off at a
tie.  Texts that are rejected beforehand are not concerned. -/
def Computable : Prop :=
  ∀ exponent ∈ literal.exponent, literal.units < 2 ^ maxPrecDecBitLen →
    digitsValue exponent.digits < 2 ^ 64 →
      digitsValue exponent.digits ≤ 76 ∧
        if exponent.sign = some .minus then
          ¬ CutsToTie literal.units (digitsValue exponent.digits)
        else
          literal.units * 10 ^ digitsValue exponent.digits < 2 ^ maxPrecDecBitLen

end Literal

def Parsed.Exact (parsed : Parsed PrecDec) (value : ℚ) : Prop :=
  (∀ failure, parsed = .error failure → ¬ failure.IsPanic) ∧
    ∀ result, parsed = .ok result → Rounding.IsNearestEven value result.i

namespace Parsed

theorem exact_ok {result : PrecDec} {value : ℚ} :
    Parsed.Exact (.ok result) value ↔ Rounding.IsNearestEven value result.i := by
  constructor
  · intro isExact
    exact isExact.2 result rfl
  · intro nearest
    refine ⟨fun _ impossible => (nomatch impossible), ?_⟩
    rintro _ ⟨⟩
    exact nearest

theorem exact_error {failure : ParseFailure} {value : ℚ} :
    Parsed.Exact (.error failure) value ↔ ¬ failure.IsPanic := by
  constructor
  · intro isExact
    exact isExact.1 failure rfl
  · intro noPanic
    refine ⟨?_, fun _ impossible => (nomatch impossible)⟩
    rintro _ ⟨⟩
    exact noPanic

theorem not_exact_overflow {value : ℚ} : ¬ Parsed.Exact (.error .overflowPanic) value :=
  fun isExact => exact_error.mp isExact (.inl rfl)

end Parsed

namespace Literal

variable (literal : Literal)

theorem shifted_exact_iff (exponent : Exponent) (isExponent : literal.exponent = some exponent) :
    Parsed.Exact (literal.shifted exponent) (literal.value * 10 ^ 27) ↔
      (digitsValue exponent.digits < 2 ^ 64 → digitsValue exponent.digits ≤ 76 ∧
        if exponent.sign = some .minus then
          ¬ CutsToTie literal.units (digitsValue exponent.digits)
        else
          literal.units * 10 ^ digitsValue exponent.digits < 2 ^ maxPrecDecBitLen) := by
  have value : literal.value * 10 ^ 27 =
      if exponent.sign = some .minus then
        (literal.units : ℚ) / 10 ^ digitsValue exponent.digits
      else
        literal.units * 10 ^ digitsValue exponent.digits := by
    rw [Literal.value, isExponent, literal.units_eq]
    dsimp only
    split <;> ring
  rw [value, shifted]
  generalize digitsValue exponent.digits = power
  by_cases fits : power < 2 ^ 64
  · rw [if_neg (not_not.mpr fits)]
    by_cases small : power ≤ 76
    · rw [if_neg (not_not.mpr small)]
      by_cases negative : exponent.sign = some .minus
      · rw [if_pos negative, if_pos negative, if_pos negative, Parsed.exact_ok,
          isNearestEven_quotient_iff]
        exact ⟨fun tie _ => ⟨small, tie⟩, fun holds => (holds fits).2⟩
      · rw [if_neg negative, if_neg negative, if_neg negative]
        by_cases within : literal.units * 10 ^ power < 2 ^ maxPrecDecBitLen
        · rw [if_pos within, Parsed.exact_ok]
          refine iff_of_true ?_ fun _ => ⟨small, within⟩
          exact_mod_cast Rounding.isNearestEven_self (literal.units * 10 ^ power : Nat)
        · rw [if_neg within]
          exact iff_of_false Parsed.not_exact_overflow fun holds => within (holds fits).2
    · rw [if_pos small]
      exact iff_of_false Parsed.not_exact_overflow fun holds => small (holds fits).1
  · rw [if_pos fits, Parsed.exact_error]
    refine iff_of_true ?_ fun fitsNot => absurd fitsNot fits
    rintro (isPanic | isPanic) <;> cases isPanic

theorem text_exact_iff :
    Parsed.Exact (parsePrecDecScientificNotation literal.text) (literal.value * 10 ^ 27) ↔
      literal.Computable := by
  rw [literal.parsePrecDecScientificNotation_text]
  unfold Computable
  by_cases inRange : literal.units < 2 ^ maxPrecDecBitLen
  · rw [if_pos inRange]
    cases isExponent : literal.exponent with
    | none =>
        rw [Option.elim_none, Parsed.exact_ok, Literal.value, isExponent, ← literal.units_eq]
        refine iff_of_true ?_ fun _ impossible => nomatch impossible
        exact_mod_cast Rounding.isNearestEven_self (literal.units : ℤ)
    | some exponent =>
        rw [Option.elim_some, literal.shifted_exact_iff exponent isExponent]
        constructor
        · rintro holds _ ⟨⟩ _
          exact holds
        · intro holds
          exact holds exponent rfl inRange
  · rw [if_neg inRange, Parsed.exact_error]
    refine iff_of_true ?_ fun _ _ inside => absurd inside inRange
    rintro (isPanic | isPanic) <;> cases isPanic

end Literal

theorem not_isPanic_of_not_literal {text : Bytes} (notLiteral : ∀ literal : Literal,
    text ≠ literal.text) {failure : ParseFailure}
    (failed : parsePrecDecScientificNotation text = .error failure) : ¬ failure.IsPanic := by
  unfold parsePrecDecScientificNotation at failed
  split at failed
  · cases failed
    rintro (isPanic | isPanic) <;> cases isPanic
  · rename_i found isMatch
    split at failed
    · cases failed
      rintro (isPanic | isPanic) <;> cases isPanic
    · rename_i number read
      obtain ⟨literal, isText⟩ := exists_literal isMatch read
      exact absurd isText (notLiteral literal)

/-- Parsing never panics, and the value of a literal, if there is one, is the exact value
rounded to 27 decimals. -/
def ParsesExactly (text : Bytes) : Prop :=
  (∀ failure, parsePrecDecScientificNotation text = .error failure → ¬ failure.IsPanic) ∧
  ∀ literal : Literal, text = literal.text →
    ∀ result, parsePrecDecScientificNotation text = .ok result →
      Rounding.IsNearestEven (literal.value * 10 ^ 27) result.i

theorem parsePrecDecScientificNotation_exact_iff (text : Bytes) :
    ParsesExactly text ↔ ∀ literal : Literal, text = literal.text → literal.Computable := by
  constructor
  · rintro ⟨noPanic, nearest⟩ literal rfl
    exact literal.text_exact_iff.mp ⟨noPanic, nearest literal rfl⟩
  · intro computable
    refine ⟨?_, ?_⟩
    · by_cases isLiteral : ∃ literal : Literal, text = literal.text
      · obtain ⟨literal, rfl⟩ := isLiteral
        exact (literal.text_exact_iff.mpr (computable literal rfl)).1
      · exact fun failure => not_isPanic_of_not_literal (not_exists.mp isLiteral)
    · rintro literal rfl
      exact (literal.text_exact_iff.mpr (computable literal rfl)).2

/-- `5.000000000000000000000000001E-28`, just above half of the smallest amount. -/
def aboveHalf : Literal where
  whole := bytes "5"
  wholeNumeral := ⟨by decide +kernel, by decide +kernel⟩
  decimals := bytes "000000000000000000000000001"
  decimalsDigits := by decide +kernel
  decimalsFit := by decide +kernel
  exponent := some ⟨69, by decide +kernel, some .minus, bytes "28", ⟨by decide +kernel, by decide +kernel⟩⟩

/-- A power of ten that is too large panics, whatever it is multiplied with; and the last
decimal of the second text is cut off before the tie is rounded down to zero. -/
theorem parsePrecDecScientificNotation_inexact :
    ¬ ParsesExactly (bytes "1E77") ∧
      ¬ ParsesExactly (bytes "5.000000000000000000000000001E-28") := by
  constructor
  · intro parsesExactly
    have panics : parsePrecDecScientificNotation (bytes "1E77") = .error .overflowPanic := by
      decide +kernel
    exact parsesExactly.1 _ panics (.inl rfl)
  · rintro ⟨noPanic, nearest⟩
    have isText : bytes "5.000000000000000000000000001E-28" = aboveHalf.text := by
      decide +kernel
    rw [isText] at noPanic nearest
    have computable := aboveHalf.text_exact_iff.mp ⟨noPanic, nearest aboveHalf rfl⟩
    have cut : CutsToTie aboveHalf.units 28 := by decide +kernel
    exact (computable _ rfl (by decide +kernel) (by decide)).2 cut

end Neutron.Dex
