import Neutron.Library.Numeral
import Neutron.Dex.Decimal

namespace Neutron.Dex

open Library PrecDec

/-! Prices in scientific notation: `ParsePrecDecScientificNotation` of
`x/dex/utils/math.go`, with the parts of `utils/math/prec_dec.go` it uses.  Here the
range guard decides what is returned, so that it is part of the model. -/

inductive PrecDecError where
  | emptyPrecDecimalStr
  | invalidPrecDecimalLength
  | invalidPrecDecimalStr
  | exceedsMaxPrecision (text : Bytes) (places : Int)
  | invalidBase10 (combined : Bytes)
  | outOfRange (text : Bytes) (bitLen : Nat)
  deriving DecidableEq

/-- How parsing can fail.  The source puts the same text in front of each error, and
panics with `Int overflow` or when it divides by zero. -/
inductive ParseFailure where
  | noMatch
  | base (cause : PrecDecError)
  | exponentOutOfRange (digits : Bytes)
  | overflowPanic
  | divisionPanic
  deriving DecidableEq

def ParseFailure.IsPanic (failure : ParseFailure) : Prop :=
  failure = .overflowPanic ∨ failure = .divisionPanic

abbrev Parsed (Result : Type) := Except ParseFailure Result

def maxPrecDecBitLen : Nat := 345

def bitLen (number : Int) : Nat :=
  if number = 0 then 0 else number.natAbs.log2 + 1

namespace PrecDec

def guarded (digits : Int) : Parsed PrecDec :=
  if maxPrecDecBitLen < bitLen digits then throw .overflowPanic else pure ⟨digits⟩

def mulMut (left right : PrecDec) : Parsed PrecDec :=
  guarded (chopPrecisionAndRound (left.i * right.i))

def quoMut (left right : PrecDec) : Parsed PrecDec :=
  if right.i = 0 then
    throw .divisionPanic
  else
    guarded (chopPrecisionAndRound
      ((left.i * (precisionReuse * precisionReuse : Nat)).tdiv right.i))

/-- The loop of `PowerMut`, with `tmp` and the base squared so far.  Exponents have 64
bits, which bounds its turns. -/
def powerLoop : Nat → Nat → PrecDec → PrecDec → Parsed (PrecDec × PrecDec)
  | 0, _, tmp, base => pure (tmp, base)
  | turns + 1, power, tmp, base =>
      if 1 < power then do
        let tmp ← (if power % 2 ≠ 0 then tmp.mulMut base else pure tmp)
        let squared ← base.mulMut base
        powerLoop turns (power / 2) tmp squared
      else
        pure (tmp, base)

def powerMut (base : PrecDec) (power : Nat) : Parsed PrecDec :=
  if power = 0 then
    pure onePrecDec
  else do
    let (tmp, squared) ← powerLoop 64 power onePrecDec base
    squared.mulMut tmp

end PrecDec

def dot : Byte := 46

def minusSign : Byte := 45

def plusSign : Byte := 43

/-- `SetString` of `big.Int` in base 10. -/
def setString (text : Bytes) : Option Int :=
  let negative := text.head? = some minusSign
  let digits := if negative ∨ text.head? = some plusSign then text.tail else text
  if digits ≠ [] ∧ digits.all isDigit then
    some (if negative then -digitsValue digits else digitsValue digits)
  else
    none

/-- The end of `NewPrecDecFromStr`: digits without their point are read as a number. -/
def readCombined (text combined : Bytes) (lenPrecDecs : Nat) (negative : Bool) :
    Except PrecDecError PrecDec :=
  if 27 < lenPrecDecs then
    throw (.exceedsMaxPrecision text (27 - lenPrecDecs))
  else
    let padded := combined ++ List.replicate (27 - lenPrecDecs) 48
    match setString padded with
    | none => throw (.invalidBase10 padded)
    | some number =>
        if maxPrecDecBitLen < bitLen number then
          throw (.outOfRange text (bitLen number))
        else
          pure ⟨if negative then -number else number⟩

def newPrecDecFromStr (str : Bytes) : Except PrecDecError PrecDec :=
  let negative := decide (str.head? = some minusSign)
  let text := if negative then str.tail else str
  if text = [] then
    throw .emptyPrecDecimalStr
  else
    match text.splitOn dot with
    | [whole] => readCombined text whole 0 negative
    | [whole, decimals] =>
        if decimals.length = 0 ∨ whole.length = 0 then
          throw .invalidPrecDecimalLength
        else
          readCombined text (whole ++ decimals) decimals.length negative
    | _ => throw .invalidPrecDecimalStr

inductive Sign where
  | minus
  | plus
  deriving DecidableEq

structure ScientificMatch where
  base : Bytes
  exponent : Option (Option Sign × Bytes)
  deriving DecidableEq

def isBaseByte (byte : Byte) : Bool := isDigit byte || byte == dot

def isExponentMarker (byte : Byte) : Bool := byte == 69 || byte == 101

def splitSign : Bytes → Option Sign × Bytes
  | [] => (none, [])
  | first :: rest =>
      if first = minusSign then
        (some .minus, rest)
      else if first = plusSign then
        (some .plus, rest)
      else
        (none, first :: rest)

/-- The match of `^([\d\.]+)([Ee]([\-\+])?(\d+))?$`.  No byte can be in two of its
classes that meet, so there is at most one way to match. -/
def scientificNotationRE (text : Bytes) : Option ScientificMatch :=
  let base := text.takeWhile isBaseByte
  if base = [] then
    none
  else
    match text.dropWhile isBaseByte with
    | [] => some ⟨base, none⟩
    | marker :: rest =>
        let (sign, digits) := splitSign rest
        if isExponentMarker marker ∧ digits ≠ [] ∧ digits.all isDigit then
          some ⟨base, some (sign, digits)⟩
        else
          none

/-- `strconv.ParseUint` in base 10, with 64 bits, of a text of digits. -/
def parseUint (digits : Bytes) : Parsed Nat :=
  if digitsValue digits < 2 ^ 64 then
    pure (digitsValue digits)
  else
    throw (.exponentOutOfRange digits)

def parsePrecDecScientificNotation (text : Bytes) : Parsed PrecDec :=
  match scientificNotationRE text with
  | none => throw .noMatch
  | some found =>
      match newPrecDecFromStr found.base with
      | .error cause => throw (.base cause)
      | .ok baseDec =>
          match found.exponent with
          | none => pure baseDec
          | some (sign, digits) => do
              let power ← parseUint digits
              let shift ← (newPrecDecFromInt 10).powerMut power
              if sign = some .minus then baseDec.quoMut shift else baseDec.mulMut shift

end Neutron.Dex
