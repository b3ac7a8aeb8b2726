import Mathlib.Data.Prod.Lex
import Mathlib.Data.String.Basic
import Mathlib.Data.Nat.Digits.Defs
import Neutron.Dex.Errors

namespace Neutron.Dex

/-! Denoms, pairs and the structured store keys of `x/dex/types`.  Stores are
keyed by the key structs themselves; how the structs are laid out as bytes is
a separate question. -/

/-- `sdk.ValidateDenom`: `[a-zA-Z][a-zA-Z0-9/:._-]{2,127}`. -/
def isDenomChar (char : Char) : Bool :=
  char.isAlphanum || ['/', ':', '.', '_', '-'].contains char

def ValidDenom (denom : String) : Prop :=
  (match denom.toList with
    | [] => false
    | first :: rest =>
        first.isAlpha && rest.all isDenomChar &&
          decide (2 ≤ rest.length ∧ rest.length ≤ 127)) = true

instance (denom : String) : Decidable (ValidDenom denom) :=
  inferInstanceAs (Decidable (_ = true))

theorem append_toString_injective (text : String) :
    Function.Injective fun number : Nat => text ++ toString number := by
  intro left right same
  have formatted : Nat.repr left = Nat.repr right :=
    (String.append_right_inj text).mp same
  have digits : Nat.toDigits 10 left = Nat.toDigits 10 right := by
    rw [← Nat.toList_repr, ← Nat.toList_repr, formatted]
  rw [← Nat.ofDigitChars_ten_toDigits (n := left), digits,
    Nat.ofDigitChars_ten_toDigits]

def poolDenomPrefix : String := "neutron/pool/"

def newPoolDenom (poolID : Nat) : String := poolDenomPrefix ++ toString poolID

/-- `ParsePoolIDFromDenom`: `^neutron/pool/(0|[1-9]\d*)$`, read as a 64-bit
unsigned integer. -/
def parsePoolIDFromDenom (denom : String) : Outcome Nat :=
  let start := poolDenomPrefix.toList
  let digits := denom.toList.drop start.length
  if denom.toList.take start.length = start ∧ digits ≠ [] ∧
      digits.all Char.isDigit = true ∧
      (digits = ['0'] ∨ digits.head? ≠ some '0') ∧
      Nat.ofDigitChars 10 digits 0 < 2 ^ 64 then
    pure (Nat.ofDigitChars 10 digits 0)
  else
    fail (.invalidPoolDenom denom)

/-- An unordered pair of distinct tokens, stored sorted. -/
structure PairID where
  token0 : String
  token1 : String
  sorted : token0 < token1
  deriving DecidableEq

namespace PairID

def canonicalString (pairID : PairID) : String :=
  pairID.token0 ++ "<>" ++ pairID.token1

theorem token0_ne_token1 (pairID : PairID) : pairID.token0 ≠ pairID.token1 :=
  ne_of_lt pairID.sorted

end PairID

def newPairID (tokenA tokenB : String) : Outcome PairID :=
  if below : tokenA < tokenB then
    pure ⟨tokenA, tokenB, below⟩
  else if above : tokenB < tokenA then
    pure ⟨tokenB, tokenA, above⟩
  else
    fail (.invalidTradingPair tokenB tokenA)

/-- A directed pair: the taker pays `takerDenom` for `makerDenom`. -/
structure TradePairID where
  takerDenom : String
  makerDenom : String
  different : takerDenom ≠ makerDenom
  deriving DecidableEq

theorem uatom_ne_untrn : "uatom" ≠ "untrn" := by decide

def newTradePairID (takerDenom makerDenom : String) : Outcome TradePairID :=
  if different : takerDenom ≠ makerDenom then
    pure ⟨takerDenom, makerDenom, different⟩
  else
    fail (.invalidTradingPair takerDenom makerDenom)

theorem newTradePairID_takerDenom {takerDenom makerDenom : String}
    {tradePairID : TradePairID}
    (ok : newTradePairID takerDenom makerDenom = .ok tradePairID) :
    tradePairID.takerDenom = takerDenom := by
  unfold newTradePairID at ok
  split at ok
  · cases ok
    rfl
  · cases ok

theorem newTradePairID_makerDenom {takerDenom makerDenom : String}
    {tradePairID : TradePairID}
    (ok : newTradePairID takerDenom makerDenom = .ok tradePairID) :
    tradePairID.makerDenom = makerDenom := by
  unfold newTradePairID at ok
  split at ok
  · cases ok
    rfl
  · cases ok

/-- `NewTradePairIDFromMaker`: any maker that is not `token0` is paid in
`token0`. -/
def newTradePairIDFromMaker (pairID : PairID) (makerDenom : String) :
    TradePairID :=
  if same : pairID.token0 = makerDenom then
    ⟨pairID.token1, makerDenom, same ▸ pairID.token0_ne_token1.symm⟩
  else
    ⟨pairID.token0, makerDenom, same⟩

namespace TradePairID

variable (tradePairID : TradePairID)

@[ext] theorem ext {left right : TradePairID}
    (taker : left.takerDenom = right.takerDenom)
    (maker : left.makerDenom = right.makerDenom) : left = right := by
  cases left
  cases right
  cases taker
  cases maker
  rfl

def pairID : PairID :=
  if below : tradePairID.makerDenom < tradePairID.takerDenom then
    ⟨tradePairID.makerDenom, tradePairID.takerDenom, below⟩
  else
    ⟨tradePairID.takerDenom, tradePairID.makerDenom,
      lt_of_le_of_ne (not_lt.mp below) tradePairID.different⟩

def reversed : TradePairID :=
  ⟨tradePairID.makerDenom, tradePairID.takerDenom, tradePairID.different.symm⟩

def IsTakerDenomToken0 : Prop :=
  tradePairID.takerDenom = tradePairID.pairID.token0

def IsMakerDenomToken0 : Prop :=
  tradePairID.makerDenom = tradePairID.pairID.token0

instance : Decidable tradePairID.IsTakerDenomToken0 :=
  inferInstanceAs (Decidable (_ = _))

instance : Decidable tradePairID.IsMakerDenomToken0 :=
  inferInstanceAs (Decidable (_ = _))

@[simp] theorem reversed_takerDenom :
    tradePairID.reversed.takerDenom = tradePairID.makerDenom := rfl

@[simp] theorem reversed_makerDenom :
    tradePairID.reversed.makerDenom = tradePairID.takerDenom := rfl

@[simp] theorem reversed_reversed :
    tradePairID.reversed.reversed = tradePairID := rfl

theorem reversed_ne : tradePairID.reversed ≠ tradePairID := fun same =>
  tradePairID.different (congrArg TradePairID.makerDenom same)

theorem isMakerDenomToken0_iff_not_isTakerDenomToken0 :
    tradePairID.IsMakerDenomToken0 ↔ ¬ tradePairID.IsTakerDenomToken0 := by
  unfold IsMakerDenomToken0 IsTakerDenomToken0 pairID
  split
  · simp [tradePairID.different]
  · simp [tradePairID.different.symm]

end TradePairID

@[simp] theorem newTradePairIDFromMaker_makerDenom (pairID : PairID)
    (makerDenom : String) :
    (newTradePairIDFromMaker pairID makerDenom).makerDenom = makerDenom := by
  unfold newTradePairIDFromMaker
  split <;> rfl

@[simp] theorem newTradePairIDFromMaker_token0_takerDenom (pairID : PairID) :
    (newTradePairIDFromMaker pairID pairID.token0).takerDenom =
      pairID.token1 := by
  simp [newTradePairIDFromMaker]

@[simp] theorem newTradePairIDFromMaker_token1_takerDenom (pairID : PairID) :
    (newTradePairIDFromMaker pairID pairID.token1).takerDenom =
      pairID.token0 := by
  simp [newTradePairIDFromMaker, pairID.token0_ne_token1]

structure PoolReservesKey where
  tradePairID : TradePairID
  tickIndexTakerToMaker : Int
  fee : Nat
  deriving DecidableEq

/-- The key of the pool's other side.  Fees that reach a key have passed
`ValidateTickFee`, so the source's cast to a signed integer is exact. -/
def PoolReservesKey.counterpart (key : PoolReservesKey) : PoolReservesKey where
  tradePairID := key.tradePairID.reversed
  tickIndexTakerToMaker := key.tickIndexTakerToMaker * -1 + 2 * key.fee
  fee := key.fee

@[simp] theorem PoolReservesKey.counterpart_counterpart (key : PoolReservesKey) :
    key.counterpart.counterpart = key := by
  obtain ⟨tradePairID, tick, fee⟩ := key
  simp [counterpart]

structure LimitOrderTrancheKey where
  tradePairID : TradePairID
  tickIndexTakerToMaker : Int
  trancheKey : String
  deriving DecidableEq

/-- Pool reserves and limit order tranches share one key space. -/
inductive TickLiquidityKey where
  | poolReserves (key : PoolReservesKey)
  | limitOrderTranche (key : LimitOrderTrancheKey)
  deriving DecidableEq

namespace TickLiquidityKey

def tradePairID : TickLiquidityKey → TradePairID
  | poolReserves key => key.tradePairID
  | limitOrderTranche key => key.tradePairID

def tickIndexTakerToMaker : TickLiquidityKey → Int
  | poolReserves key => key.tickIndexTakerToMaker
  | limitOrderTranche key => key.tickIndexTakerToMaker

/-- Position in the store: within a trade pair by tick, then pools before
limit orders, then by fee or tranche key. -/
def rank : TickLiquidityKey →
    String ×ₗ String ×ₗ Int ×ₗ Nat ×ₗ Nat ×ₗ String
  | poolReserves key =>
      toLex (key.tradePairID.takerDenom, toLex (key.tradePairID.makerDenom,
        toLex (key.tickIndexTakerToMaker, toLex (0, toLex (key.fee, "")))))
  | limitOrderTranche key =>
      toLex (key.tradePairID.takerDenom, toLex (key.tradePairID.makerDenom,
        toLex (key.tickIndexTakerToMaker, toLex (1, toLex (0, key.trancheKey)))))

theorem rank_injective : Function.Injective rank := by
  intro left right same
  cases left with
  | poolReserves left =>
      cases right with
      | poolReserves right =>
          obtain ⟨⟨_, _, _⟩, _, _⟩ := left
          obtain ⟨⟨_, _, _⟩, _, _⟩ := right
          simpa [rank, and_assoc] using same
      | limitOrderTranche right => simp [rank] at same
  | limitOrderTranche left =>
      cases right with
      | poolReserves right => simp [rank] at same
      | limitOrderTranche right =>
          obtain ⟨⟨_, _, _⟩, _, _⟩ := left
          obtain ⟨⟨_, _, _⟩, _, _⟩ := right
          simpa [rank, and_assoc] using same

instance : LinearOrder TickLiquidityKey := LinearOrder.lift' rank rank_injective

theorem tickIndexTakerToMaker_le {left right : TickLiquidityKey}
    (below : left < right) (samePair : left.tradePairID = right.tradePairID) :
    left.tickIndexTakerToMaker ≤ right.tickIndexTakerToMaker := by
  have ranks : left.rank < right.rank := below
  rcases left with ⟨⟨left, leftTick, _⟩⟩ | ⟨⟨left, leftTick, _⟩⟩ <;>
    rcases right with ⟨⟨right, rightTick, _⟩⟩ | ⟨⟨right, rightTick, _⟩⟩ <;>
    · simp only [tradePairID] at samePair
      subst samePair
      simp only [rank, Prod.Lex.lt_iff, ofLex_toLex, lt_self_iff_false,
        false_or, true_and] at ranks
      rcases ranks with smaller | ⟨equal, _⟩
      · exact le_of_lt smaller
      · exact le_of_eq equal

end TickLiquidityKey

instance : LinearOrder LimitOrderTrancheKey :=
  LinearOrder.lift' TickLiquidityKey.limitOrderTranche
    fun _ _ same => TickLiquidityKey.limitOrderTranche.inj same

structure PoolIDKey where
  pairID : PairID
  centerTickIndexNormalized : Int
  fee : Nat
  deriving DecidableEq

namespace PoolIDKey

def rank (key : PoolIDKey) : String ×ₗ String ×ₗ Int ×ₗ Nat :=
  toLex (key.pairID.token0, toLex (key.pairID.token1,
    toLex (key.centerTickIndexNormalized, key.fee)))

theorem rank_injective : Function.Injective rank := by
  rintro ⟨⟨_, _, _⟩, _, _⟩ ⟨⟨_, _, _⟩, _, _⟩ same
  simpa [rank, and_assoc] using same

instance : LinearOrder PoolIDKey := LinearOrder.lift' rank rank_injective

end PoolIDKey

/-- `NewTrancheKey` formats the running tranche count. -/
def trancheKeyText (index : Nat) : String := "tk-" ++ toString index

theorem trancheKeyText_injective : Function.Injective trancheKeyText :=
  append_toString_injective "tk-"

abbrev Time := Int

/-- What a protobuf timestamp can hold: the years 1 to 9999. -/
structure Timestamp where
  time : Time
  afterYearOne : -62135596800 * 10 ^ 9 ≤ time
  beforeYear10000 : time < 253402300800 * 10 ^ 9

/-- `time.Time{}`, the first of January of year one. -/
def jitGoodTilTime : Time := -62135596800 * 10 ^ 9

/-- `time.Time.Unix`: whole seconds, rounded down. -/
def unixSeconds (time : Time) : Int := time / 10 ^ 9

def digitChar36 (digit : Nat) : Char :=
  if digit < 10 then Char.ofNat (48 + digit) else Char.ofNat (87 + digit)

/-- `strconv.FormatUint(number, 36)`. -/
def formatUint36 (number : Nat) : List Char :=
  if number = 0 then
    ['0']
  else
    ((Nat.digits 36 number).map digitChar36).reverse

def uint64ToSortableString (number : Nat) : String :=
  let intStr := formatUint36 number
  String.ofList (formatUint36 intStr.length ++ intStr)

def timeBytes (timestamp : Time) : String :=
  let unixSecs :=
    if timestamp = jitGoodTilTime then 0
    else (unixSeconds timestamp % 2 ^ 64).toNat
  uint64ToSortableString unixSecs

/-- `LimitOrderExpirationKey`: time first, then the tranche it refers to. -/
abbrev LimitOrderExpirationKey := String ×ₗ LimitOrderTrancheKey

end Neutron.Dex
