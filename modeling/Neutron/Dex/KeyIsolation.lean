import Neutron.Dex.KeyBytes

namespace Neutron.Dex

open Library

/-! Which trade pairs share a range of the store. -/

def TickLiquidityKey.storedKey (key : TickLiquidityKey) : Bytes :=
  keyPrefix tickLiquidityKeyPrefix ++ key.keyMarshal

variable {char : Char}

theorem isDenomChar_range (isChar : isDenomChar char = true) :
    44 < char.toNat ∧ char.toNat < 123 ∧ char.toNat ≠ 60 := by
  rw [isDenomChar, Bool.or_eq_true] at isChar
  rcases isChar with letter | mark
  · change ((decide (65 ≤ char.val ∧ char.val ≤ 90) ||
      decide (97 ≤ char.val) && decide (char.val ≤ 122)) ||
        decide (48 ≤ char.val) && decide (char.val ≤ 57)) = true at letter
    simp only [Bool.or_eq_true, Bool.and_eq_true, decide_eq_true_eq,
      UInt32.le_iff_toNat_le] at letter
    change ((65 ≤ char.toNat ∧ char.toNat ≤ 90) ∨ (97 ≤ char.toNat ∧ char.toNat ≤ 122)) ∨
      (48 ≤ char.toNat ∧ char.toNat ≤ 57) at letter
    omega
  · simp only [List.contains_eq_mem, decide_eq_true_eq] at mark
    simp only [List.mem_cons, List.not_mem_nil, or_false] at mark
    rcases mark with rfl | rfl | rfl | rfl | rfl <;> decide

variable {denom : String}

theorem ValidDenom.isDenomChar (valid : ValidDenom denom)
    (member : char ∈ denom.toList) : isDenomChar char = true := by
  rw [ValidDenom] at valid
  cases isList : denom.toList with
  | nil =>
      rw [isList] at member
      cases member
  | cons first rest =>
      rw [isList] at member valid
      simp only [Bool.and_eq_true, List.all_eq_true] at valid
      rcases List.mem_cons.mp member with rfl | member
      · rw [Dex.isDenomChar, Char.isAlphanum, valid.1.1]
        rfl
      · exact valid.1.2 char member

theorem ValidDenom.byte_range (valid : ValidDenom denom) {byte : Byte}
    (member : byte ∈ bytes denom) : 1 < byte.val ∧ byte ≠ 60 := by
  have ascii : ∀ char ∈ denom.toList, char.toNat < 128 := fun char inDenom =>
    (isDenomChar_range (valid.isDenomChar inDenom)).2.1.trans (by decide)
  have layout := bytes_ofList ascii
  rw [String.ofList_toList] at layout
  rw [layout] at member
  obtain ⟨char, inDenom, rfl⟩ := List.mem_map.mp member
  obtain ⟨low, high, different⟩ := isDenomChar_range (valid.isDenomChar inDenom)
  have value : (charByte char).val = char.toNat := Nat.mod_eq_of_lt (by omega)
  refine ⟨by omega, fun same => different ?_⟩
  rw [← value, same]
  rfl

namespace TradePairID

variable (tradePairID other : TradePairID)

structure Valid : Prop where
  takerDenom : ValidDenom tradePairID.takerDenom
  makerDenom : ValidDenom tradePairID.makerDenom

def keyEnding : Bytes :=
  keyPrefix tradePairID.pairID.token1 ++ keyPrefix tradePairID.makerDenom

def Shadows : Prop :=
  tradePairID ≠ other ∧ tradePairID.pairID.token0 = other.pairID.token0 ∧
    tradePairID.keyEnding <+: other.keyEnding

instance : Decidable (tradePairID.Shadows other) := inferInstanceAs (Decidable (_ ∧ _ ∧ _))

/-- The prefix of a pair finds the keys of the other only if they are the same pair, and
keys of the two are told apart. -/
structure Isolated : Prop where
  found : ∀ key : TickLiquidityKey, key.tradePairID = other →
    (tickLiquidityPrefix tradePairID <+: key.storedKey ↔ tradePairID = other)
  injective : ∀ left right : TickLiquidityKey, left.Fits → right.Fits →
    left.tradePairID = tradePairID → right.tradePairID = other →
      left.keyMarshal = right.keyMarshal → left = right

variable {tradePairID other}

theorem Valid.token0 (valid : tradePairID.Valid) : ValidDenom tradePairID.pairID.token0 := by
  rw [pairID]
  split
  · exact valid.makerDenom
  · exact valid.takerDenom

theorem Valid.token1 (valid : tradePairID.Valid) : ValidDenom tradePairID.pairID.token1 := by
  rw [pairID]
  split
  · exact valid.takerDenom
  · exact valid.makerDenom

theorem start_eq (tradePairID : TradePairID) :
    TickLiquidityKey.start tradePairID =
      bytes tradePairID.pairID.token0 ++ 60 :: 62 :: tradePairID.keyEnding := by
  have sign : bytes "<>" = [60, 62] := by decide
  simp [TickLiquidityKey.start, keyEnding, keyPrefix, PairID.canonicalString, bytes_append, sign]

theorem Valid.not_mem_keyEnding (valid : tradePairID.Valid) {sign : Byte} (small : sign.val ≤ 1) :
    sign ∉ tradePairID.keyEnding := by
  have slash : bytes "/" = [47] := by decide
  intro member
  simp only [keyEnding, keyPrefix, slash, List.mem_append, List.mem_singleton] at member
  rcases member with (inToken | rfl) | (inMaker | rfl)
  · exact absurd (valid.token1.byte_range inToken).1 (Nat.not_lt.mpr small)
  · exact absurd small (by decide)
  · exact absurd (valid.makerDenom.byte_range inMaker).1 (Nat.not_lt.mpr small)
  · exact absurd small (by decide)

variable {key : TickLiquidityKey}

theorem start_isPrefix_iff (valid : tradePairID.Valid)
    (keyValid : key.tradePairID.Valid) :
    TickLiquidityKey.start tradePairID <+: key.keyMarshal ↔
      tradePairID.pairID.token0 = key.tradePairID.pairID.token0 ∧
        tradePairID.keyEnding <+: key.tradePairID.keyEnding := by
  have free : (60 : Byte) ∉ bytes tradePairID.pairID.token0 :=
    fun member => (valid.token0.byte_range member).2 rfl
  have keyFree : (60 : Byte) ∉ bytes key.tradePairID.pairID.token0 :=
    fun member => (keyValid.token0.byte_range member).2 rfl
  rw [key.keyMarshal_eq, start_eq, start_eq, tickIndexToBytes, List.append_assoc, List.cons_append,
    List.cons_append, List.cons_append, terminated_append_isPrefix_iff free keyFree,
    List.cons_prefix_cons, bytes_injective.eq_iff, isPrefix_append_cons_iff]
  · exact and_congr_right fun _ => and_iff_right rfl
  · refine valid.not_mem_keyEnding ?_
    split <;> decide

theorem tickLiquidityPrefix_isPrefix_iff (valid : tradePairID.Valid)
    (keyValid : key.tradePairID.Valid) :
    tickLiquidityPrefix tradePairID <+: key.storedKey ↔
      tradePairID.pairID.token0 = key.tradePairID.pairID.token0 ∧
        tradePairID.keyEnding <+: key.tradePairID.keyEnding := by
  have layout : tickLiquidityPrefix tradePairID =
      keyPrefix tickLiquidityKeyPrefix ++ TickLiquidityKey.start tradePairID := by
    simp [tickLiquidityPrefix, TickLiquidityKey.start, keyPrefix]
  rw [layout, TickLiquidityKey.storedKey, List.prefix_append_right_inj,
    start_isPrefix_iff valid keyValid]

end TradePairID

theorem TickLiquidityKey.keyMarshal_injective_of_samePair {left right : TickLiquidityKey}
    (leftFits : left.Fits) (rightFits : right.Fits)
    (samePair : left.tradePairID = right.tradePairID)
    (same : left.keyMarshal = right.keyMarshal) : left = right := by
  rw [keyMarshal_eq, keyMarshal_eq, samePair, List.append_right_inj] at same
  obtain ⟨ticks, endings⟩ := List.append_inj same (by simp)
  have sameTick := tickIndexToBytes_strictMonoOn.injOn leftFits.tick rightFits.tick ticks
  cases left with
  | poolReserves left =>
      cases right with
      | poolReserves right =>
          simp only [ending, List.append_assoc, List.append_right_inj] at endings
          have fees := (List.append_inj endings (by simp)).1
          have sameFee := bigEndian_injective (leftFits.2.trans_eq (by norm_num))
            (rightFits.2.trans_eq (by norm_num)) fees
          cases left
          cases right
          cases samePair
          cases sameTick
          cases sameFee
          rfl
      | limitOrderTranche right =>
          have less : (poolReserves left).kind < (limitOrderTranche right).kind :=
            Prod.Lex.toLex_lt_toLex.mpr (.inl Nat.zero_lt_one)
          exact absurd endings (ne_of_lt (ending_lt rightFits less))
  | limitOrderTranche left =>
      cases right with
      | poolReserves right =>
          have less : (poolReserves right).kind < (limitOrderTranche left).kind :=
            Prod.Lex.toLex_lt_toLex.mpr (.inl Nat.zero_lt_one)
          exact absurd endings.symm (ne_of_lt (ending_lt leftFits less))
      | limitOrderTranche right =>
          simp only [ending, List.append_assoc, List.append_right_inj] at endings
          have sameText := bytes_injective (List.append_inj' endings rfl).1
          cases left
          cases right
          cases samePair
          cases sameTick
          cases sameText
          rfl

namespace TradePairID

/-- A pair's range of the store holds its own keys only, unless the other's texts go on
where its own end. -/
theorem isolated_iff_not_shadows {tradePairID other : TradePairID} (valid : tradePairID.Valid)
    (otherValid : other.Valid) :
    tradePairID.Isolated other ↔ ¬ tradePairID.Shadows other := by
  constructor
  · rintro isolated ⟨different, sameToken, starts⟩
    -- any key of the other pair is found
    let key : TickLiquidityKey := .poolReserves ⟨other, 0, 1⟩
    have keyValid : key.tradePairID.Valid := otherValid
    have found : tickLiquidityPrefix tradePairID <+: key.storedKey :=
      (tickLiquidityPrefix_isPrefix_iff valid keyValid).mpr ⟨sameToken, starts⟩
    exact different ((isolated.found key rfl).mp found)
  · intro separate
    constructor
    · rintro key rfl
      rw [tickLiquidityPrefix_isPrefix_iff valid otherValid]
      constructor
      · rintro ⟨sameToken, starts⟩
        by_contra different
        exact separate ⟨different, sameToken, starts⟩
      · intro same
        rw [same]
        exact ⟨rfl, List.prefix_rfl⟩
    · rintro left right leftFits rightFits rfl rfl same
      have starts : TickLiquidityKey.start left.tradePairID <+: right.keyMarshal := by
        rw [← same, left.keyMarshal_eq]
        exact List.prefix_append _ _
      have ⟨sameToken, ending⟩ := (start_isPrefix_iff valid otherValid).mp starts
      have samePair : left.tradePairID = right.tradePairID := by
        by_contra different
        exact separate ⟨different, sameToken, ending⟩
      exact TickLiquidityKey.keyMarshal_injective_of_samePair leftFits rightFits samePair same

theorem isolated_reversed_untrn :
    (⟨"untrn", "uatom", by decide⟩ : TradePairID).Isolated ⟨"uatom", "untrn", by decide⟩ :=
  (isolated_iff_not_shadows ⟨by decide +kernel, by decide +kernel⟩
    ⟨by decide +kernel, by decide +kernel⟩).mpr (by decide +kernel)

def goldForBars : TradePairID where
  takerDenom := "factory/neutron1m9l358xunhhwds0568za49mzhvuxx9ux8xafx2/gold/bar"
  makerDenom := "factory/neutron1m9l358xunhhwds0568za49mzhvuxx9ux8xafx2/gold"
  different := by decide

/-- Who buys gold is shown the liquidity of those who sell bars. -/
theorem goldForBars_not_isolated :
    goldForBars.Valid ∧ goldForBars.reversed.Valid ∧
      ¬ goldForBars.Isolated goldForBars.reversed := by
  refine ⟨⟨by decide +kernel, by decide +kernel⟩, ⟨by decide +kernel, by decide +kernel⟩, ?_⟩
  intro isolated
  have found : tickLiquidityPrefix goldForBars <+:
      (TickLiquidityKey.poolReserves ⟨goldForBars.reversed, 0, 1⟩).storedKey := by decide +kernel
  have same := (isolated.found _ rfl).mp found
  exact goldForBars.reversed_ne same.symm

end TradePairID

end Neutron.Dex
