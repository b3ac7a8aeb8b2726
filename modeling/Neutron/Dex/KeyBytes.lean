import Mathlib.Data.Int.ConditionallyCompleteOrder
import Mathlib.Order.Interval.Set.Defs
import Neutron.Library.Bytes
import Neutron.Dex.Keys

namespace Neutron.Dex

open Library

/-! How the keys of tick liquidity and the times of expirations are laid out as
bytes, and that the store's order of the bytes is the order of what they encode. -/

def keyPrefix (text : String) : Bytes := bytes text ++ bytes "/"

def tickLiquidityKeyPrefix : String := "TickLiquidity/value/"

def liquidityTypePoolReserves : String := "A_PoolDeposit"

def liquidityTypeLimitOrder : String := "B_LODeposit"

def tickIndexToBytes (tickTakerToMaker : Int) : Bytes :=
  (if tickTakerToMaker < 0 then 0 else 1) :: bigEndian 8 (tickTakerToMaker % 2 ^ 64).toNat

def PoolReservesKey.keyMarshal (key : PoolReservesKey) : Bytes :=
  bytes key.tradePairID.pairID.canonicalString ++ bytes "/" ++
    bytes key.tradePairID.makerDenom ++ bytes "/" ++
    tickIndexToBytes key.tickIndexTakerToMaker ++ bytes "/" ++
    bytes liquidityTypePoolReserves ++ bytes "/" ++
    bigEndian 8 key.fee ++ bytes "/"

def LimitOrderTrancheKey.keyMarshal (key : LimitOrderTrancheKey) : Bytes :=
  bytes key.tradePairID.pairID.canonicalString ++ bytes "/" ++
    bytes key.tradePairID.makerDenom ++ bytes "/" ++
    tickIndexToBytes key.tickIndexTakerToMaker ++ bytes "/" ++
    bytes liquidityTypeLimitOrder ++ bytes "/" ++
    bytes key.trancheKey ++ bytes "/"

def tickLiquidityPrefix (tradePairID : TradePairID) : Bytes :=
  keyPrefix tickLiquidityKeyPrefix ++ keyPrefix tradePairID.pairID.canonicalString ++
    keyPrefix tradePairID.makerDenom

theorem tickIndexToBytes_strictMonoOn :
    StrictMonoOn tickIndexToBytes (Set.Ico (-2 ^ 63) (2 ^ 63)) := by
  rintro left ⟨leftLow, leftHigh⟩ right ⟨rightLow, rightHigh⟩ below
  rw [tickIndexToBytes, tickIndexToBytes, List.cons_lt_cons_iff]
  rcases lt_or_ge left 0 with leftNegative | leftNonneg
  · rcases lt_or_ge right 0 with rightNegative | rightNonneg
    · rw [if_pos leftNegative, if_pos rightNegative]
      exact .inr ⟨rfl, bigEndian_lt (by omega) (by omega)⟩
    · rw [if_pos leftNegative, if_neg (Int.not_lt.mpr rightNonneg)]
      exact .inl (by decide)
  · rw [if_neg (Int.not_lt.mpr leftNonneg), if_neg (by omega)]
    exact .inr ⟨rfl, bigEndian_lt (by omega) (by omega)⟩

@[simp] theorem length_tickIndexToBytes (tick : Int) : (tickIndexToBytes tick).length = 9 := by
  simp [tickIndexToBytes]

def digits36 (number : Nat) : List Nat :=
  if number = 0 then [0] else (Nat.digits 36 number).reverse

theorem formatUint36_eq (number : Nat) :
    formatUint36 number = (digits36 number).map digitChar36 := by
  rw [formatUint36, digits36]
  split
  · rfl
  · rw [List.map_reverse]

theorem lt_of_mem_digits36 {number digit : Nat} (member : digit ∈ digits36 number) :
    digit < 36 := by
  rw [digits36] at member
  split at member
  · rw [List.mem_singleton.mp member]
    decide
  · exact Nat.digits_lt_base (by decide) (List.mem_reverse.mp member)

theorem length_digits36_le {left right : Nat} (below : left ≤ right) :
    (digits36 left).length ≤ (digits36 right).length := by
  rw [digits36, digits36]
  split
  · split
    · exact le_refl _
    · rename_i rightNonzero
      rw [List.length_reverse]
      exact List.length_pos_of_ne_nil (Nat.digits_ne_nil_iff_ne_zero.mpr rightNonzero)
  · rename_i leftNonzero
    rw [if_neg (by omega), List.length_reverse, List.length_reverse]
    exact Nat.le_length_digits_le _ _ _ below

theorem digits36_of_lt {number : Nat} (small : number < 36) : digits36 number = [number] := by
  rw [digits36]
  split
  · rename_i zero
    rw [zero]
  · rename_i nonzero
    rw [Nat.digits_of_lt _ _ nonzero small]
    rfl

theorem length_digits36_lt {number : Nat} (fits : number < 2 ^ 64) :
    (digits36 number).length < 36 := by
  have largest := length_digits36_le (Nat.le_of_lt fits)
  have count : (Nat.digits 36 (2 ^ 64)).length ≤ 13 :=
    (Nat.digits_length_le_iff (by decide) _).mpr (by decide)
  have whole : (digits36 (2 ^ 64)).length ≤ 13 := by
    rw [digits36, if_neg (by decide), List.length_reverse]
    exact count
  omega

theorem digits36_lt {left right : Nat} (below : left < right)
    (sameLength : (digits36 left).length = (digits36 right).length) :
    digits36 left < digits36 right := by
  rcases Nat.eq_zero_or_pos left with rfl | leftPos
  · have small : right < 36 ^ 1 := by
      refine (Nat.digits_length_le_iff (by decide) right).mp (le_of_eq ?_)
      rw [digits36, digits36, if_pos rfl, if_neg (by omega), List.length_reverse] at sameLength
      exact sameLength.symm
    rw [digits36_of_lt small]
    exact List.cons_lt_cons_iff.mpr (.inl below)
  · rw [digits36, digits36, if_neg (by omega), if_neg (by omega)] at sameLength ⊢
    rw [List.length_reverse, List.length_reverse] at sameLength
    exact reverse_digits_lt (by decide) below sameLength

def sortableDigits (number : Nat) : List Nat :=
  digits36 (digits36 number).length ++ digits36 number

theorem uint64ToSortableString_eq (number : Nat) :
    uint64ToSortableString number = String.ofList ((sortableDigits number).map digitChar36) := by
  rw [uint64ToSortableString, sortableDigits, List.map_append]
  simp only [formatUint36_eq, List.length_map]

theorem lt_of_mem_sortableDigits {number digit : Nat} (member : digit ∈ sortableDigits number) :
    digit < 36 := by
  rcases List.mem_append.mp member with count | digits
  · exact lt_of_mem_digits36 count
  · exact lt_of_mem_digits36 digits

theorem sortableDigits_lt {left right : Nat} (below : left < right) (fits : right < 2 ^ 64) :
    sortableDigits left < sortableDigits right := by
  rw [sortableDigits, sortableDigits, digits36_of_lt (length_digits36_lt (below.trans fits)),
    digits36_of_lt (length_digits36_lt fits), List.singleton_append, List.singleton_append,
    List.cons_lt_cons_iff]
  rcases Nat.lt_or_eq_of_le (length_digits36_le below.le) with shorter | sameLength
  · exact .inl shorter
  · exact .inr ⟨sameLength, digits36_lt below sameLength⟩

theorem digitChar36_lt : ∀ right < 36, ∀ left < right, digitChar36 left < digitChar36 right := by
  decide

theorem charByte_digitChar36_lt : ∀ right < 36, ∀ left < right,
    charByte (digitChar36 left) < charByte (digitChar36 right) := by
  decide

theorem digitChar36_ascii : ∀ digit < 36, (digitChar36 digit).toNat < 128 := by
  decide

theorem bytes_uint64ToSortableString (number : Nat) :
    bytes (uint64ToSortableString number) =
      (sortableDigits number).map fun digit => charByte (digitChar36 digit) := by
  rw [uint64ToSortableString_eq, bytes_ofList, List.map_map]
  · rfl
  · intro char member
    obtain ⟨digit, inDigits, rfl⟩ := List.mem_map.mp member
    exact digitChar36_ascii digit (lt_of_mem_sortableDigits inDigits)

theorem uint64ToSortableString_lt {left right : Nat} (below : left < right)
    (fits : right < 2 ^ 64) : uint64ToSortableString left < uint64ToSortableString right := by
  rw [uint64ToSortableString_eq, uint64ToSortableString_eq, String.lt_iff_toList_lt,
    String.toList_ofList, String.toList_ofList]
  refine map_lt_map (fun first _ second member less => ?_) (sortableDigits_lt below fits)
  exact digitChar36_lt second (lt_of_mem_sortableDigits member) first less

theorem bytes_uint64ToSortableString_strictMonoOn :
    StrictMonoOn (fun number => bytes (uint64ToSortableString number)) (Set.Iio (2 ^ 64)) := by
  intro left _ right fits below
  dsimp only
  rw [bytes_uint64ToSortableString, bytes_uint64ToSortableString]
  refine map_lt_map (fun first _ second member less => ?_) (sortableDigits_lt below fits)
  exact charByte_digitChar36_lt second (lt_of_mem_sortableDigits member) first less

namespace TickLiquidityKey

def keyMarshal : TickLiquidityKey → Bytes
  | poolReserves key => key.keyMarshal
  | limitOrderTranche key => key.keyMarshal

def Fits : TickLiquidityKey → Prop
  | poolReserves key =>
      key.tickIndexTakerToMaker ∈ Set.Ico (-2 ^ 63) (2 ^ 63) ∧ key.fee < 2 ^ 64
  | limitOrderTranche key => key.tickIndexTakerToMaker ∈ Set.Ico (-2 ^ 63) (2 ^ 63)

def kind : TickLiquidityKey → Nat ×ₗ Nat
  | poolReserves key => toLex (0, key.fee)
  | limitOrderTranche _ => toLex (1, 0)

def place (key : TickLiquidityKey) : Int ×ₗ Nat ×ₗ Nat :=
  toLex (key.tickIndexTakerToMaker, key.kind)

def start (tradePairID : TradePairID) : Bytes :=
  bytes tradePairID.pairID.canonicalString ++ bytes "/" ++ bytes tradePairID.makerDenom ++ bytes "/"

def ending : TickLiquidityKey → Bytes
  | poolReserves key =>
      bytes "/" ++ bytes liquidityTypePoolReserves ++ bytes "/" ++ bigEndian 8 key.fee ++ bytes "/"
  | limitOrderTranche key =>
      bytes "/" ++ bytes liquidityTypeLimitOrder ++ bytes "/" ++ bytes key.trancheKey ++ bytes "/"

theorem keyMarshal_eq (key : TickLiquidityKey) :
    key.keyMarshal =
      start key.tradePairID ++ (tickIndexToBytes key.tickIndexTakerToMaker ++ key.ending) := by
  cases key with
  | poolReserves key => simp [keyMarshal, PoolReservesKey.keyMarshal, start, ending, tradePairID,
      tickIndexTakerToMaker]
  | limitOrderTranche key => simp [keyMarshal, LimitOrderTrancheKey.keyMarshal, start, ending,
      tradePairID, tickIndexTakerToMaker]

theorem Fits.tick {key : TickLiquidityKey} (fits : key.Fits) :
    key.tickIndexTakerToMaker ∈ Set.Ico (-2 ^ 63) (2 ^ 63) := by
  cases key with
  | poolReserves key => exact fits.1
  | limitOrderTranche key => exact fits

theorem ending_lt {left right : TickLiquidityKey} (rightFits : right.Fits)
    (before : left.kind < right.kind) : left.ending < right.ending := by
  cases left with
  | poolReserves left =>
      cases right with
      | poolReserves right =>
          have less : left.fee < right.fee := by
            simpa [kind, Prod.Lex.toLex_lt_toLex] using before
          simp only [ending, List.append_assoc]
          refine List.append_left_lt (List.append_left_lt (List.append_left_lt ?_))
          refine append_lt_append (by simp) (bigEndian_lt less ?_) _ _
          exact rightFits.2.trans_eq (by norm_num)
      | limitOrderTranche right =>
          -- the types differ in their first letter
          have pools : bytes "/" ++ bytes liquidityTypePoolReserves =
              bytes "/A" ++ bytes "_PoolDeposit" := by decide
          have orders : bytes "/" ++ bytes liquidityTypeLimitOrder =
              bytes "/B" ++ bytes "_LODeposit" := by decide
          simp only [ending]
          rw [pools, orders]
          simp only [List.append_assoc]
          exact append_lt_append (by decide) (by decide) _ _
  | limitOrderTranche left =>
      cases right with
      | poolReserves right => simp [kind, Prod.Lex.toLex_lt_toLex] at before
      | limitOrderTranche right => exact absurd before (lt_irrefl _)

theorem keyMarshal_lt {left right : TickLiquidityKey} (leftFits : left.Fits)
    (rightFits : right.Fits) (samePair : left.tradePairID = right.tradePairID)
    (before : left.place < right.place) : left.keyMarshal < right.keyMarshal := by
  rw [keyMarshal_eq, keyMarshal_eq, samePair]
  refine List.append_left_lt ?_
  rcases Prod.Lex.toLex_lt_toLex.mp before with less | ⟨sameTick, less⟩
  · have ticks := tickIndexToBytes_strictMonoOn leftFits.tick rightFits.tick less
    exact append_lt_append (by simp) ticks _ _
  · dsimp only at sameTick
    rw [sameTick]
    exact List.append_left_lt (ending_lt rightFits less)

end TickLiquidityKey

/-- Ticks and numbers are ordered as their encodings, and the keys of a trade pair by
tick, then pools before limit orders, then pools by fee. -/
theorem encodings_keep_order :
    StrictMonoOn tickIndexToBytes (Set.Ico (-2 ^ 63) (2 ^ 63)) ∧
      StrictMonoOn (fun number => bytes (uint64ToSortableString number)) (Set.Iio (2 ^ 64)) ∧
      ∀ left right : TickLiquidityKey, left.Fits → right.Fits →
        left.tradePairID = right.tradePairID → left.place < right.place →
          left.keyMarshal < right.keyMarshal :=
  ⟨tickIndexToBytes_strictMonoOn, bytes_uint64ToSortableString_strictMonoOn,
    fun _ _ leftFits rightFits samePair before =>
      TickLiquidityKey.keyMarshal_lt leftFits rightFits samePair before⟩

theorem encodings_keep_order_extremes :
    tickIndexToBytes (-2 ^ 63) < tickIndexToBytes (2 ^ 63 - 1) ∧
      bytes (uint64ToSortableString 35) < bytes (uint64ToSortableString (2 ^ 64 - 1)) ∧
      (TickLiquidityKey.poolReserves ⟨⟨"untrn", "uatom", by decide⟩, -5, 2 ^ 64 - 1⟩).keyMarshal <
        (TickLiquidityKey.limitOrderTranche
          ⟨⟨"untrn", "uatom", by decide⟩, -5, "tk-0"⟩).keyMarshal := by
  obtain ⟨ticks, numbers, keys⟩ := encodings_keep_order
  refine ⟨ticks ⟨by decide, by decide⟩ ⟨by decide, by decide⟩ (by decide),
    numbers (by decide : 35 < 2 ^ 64) (by decide : 2 ^ 64 - 1 < 2 ^ 64) (by decide), ?_⟩
  refine keys _ _ ⟨⟨by decide, by decide⟩, by decide⟩ ⟨by decide, by decide⟩ rfl ?_
  exact Prod.Lex.toLex_lt_toLex.mpr (.inr ⟨rfl, Prod.Lex.toLex_lt_toLex.mpr (.inl (by decide))⟩)

end Neutron.Dex
