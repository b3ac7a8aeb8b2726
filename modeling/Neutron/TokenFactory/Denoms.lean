import Neutron.TokenFactory.BeforeSend

namespace Neutron.TokenFactory

open Library

universe u

/-! Denoms of the factories (`types/denoms.go`), built from a creator and a subdenom and
taken apart again. -/

def Factory.maxSubdenomLength : Factory → Nat
  | tokenfactory => 44
  | coinfactory => 40

def maxHrpLength : Nat := 16

def maxCreatorLength : Nat := 59 + maxHrpLength

inductive DenomError where
  | subdenomTooLong
  | creatorTooLong
  | invalidCreator
  | invalidDenom (denom : String)
deriving DecidableEq

def joinDenom (factory : Factory) (creator subdenom : String) : String :=
  String.ofList ([factory.separator].intercalate
    [factory.moduleDenomPrefix.toList, creator.toList, subdenom.toList])

def getTokenDenom (factory : Factory) (creator subdenom : String) :
    Except DenomError String := do
  Outcome.require (subdenom.utf8ByteSize ≤ factory.maxSubdenomLength) .subdenomTooLong
  Outcome.require (creator.utf8ByteSize ≤ maxCreatorLength) .creatorTooLong
  Outcome.require (factory.separator ∉ creator.toList) .invalidCreator
  let denom := joinDenom factory creator subdenom
  Outcome.require (Dex.ValidDenom denom) (.invalidDenom denom)
  .ok denom

def creatorPart (factory : Factory) (denom : String) : String :=
  String.ofList ((denom.toList.splitOn factory.separator).getD 1 [])

def LowerCase (text : String) : Prop := ∀ char ∈ text.toList, char.isUpper = false

instance (text : String) : Decidable (LowerCase text) :=
  List.decidableBAll (fun char : Char => char.isUpper = false) text.toList

theorem not_mem_of_mem_splitOn {items part : List Char} {separator : Char}
    (member : part ∈ items.splitOn separator) : separator ∉ part := by
  induction items generalizing part with
  | nil =>
      rw [List.splitOn_nil, List.mem_singleton] at member
      rw [member]
      exact List.not_mem_nil
  | cons item rest ih =>
      rw [List.splitOn_cons_eq_if_modifyHead] at member
      split at member
      · rcases List.mem_cons.mp member with rfl | later
        · exact List.not_mem_nil
        · exact ih later
      · rename_i different
        cases parts : rest.splitOn separator with
        | nil => exact absurd parts (List.splitOn_ne_nil _ _)
        | cons head tail =>
            rw [parts] at ih member
            rw [List.modifyHead_cons] at member
            rcases List.mem_cons.mp member with rfl | later
            · rw [List.mem_cons, not_or]
              refine ⟨fun same => different ?_, ih List.mem_cons_self⟩
              rw [same, beq_self_eq_true]
            · exact ih (List.mem_cons_of_mem _ later)

section Parts

variable {factory : Factory} {creator subdenom denom : String}

theorem toList_joinDenom :
    (joinDenom factory creator subdenom).toList =
      factory.moduleDenomPrefix.toList ++ factory.separator ::
        (creator.toList ++ factory.separator :: subdenom.toList) := by
  rw [joinDenom, String.toList_ofList, List.intercalate_cons_cons, List.intercalate_cons_cons,
    List.intercalate_singleton]
  simp

theorem splitOn_joinDenom (free : factory.separator ∉ creator.toList) :
    (joinDenom factory creator subdenom).toList.splitOn factory.separator =
      factory.moduleDenomPrefix.toList :: creator.toList ::
        subdenom.toList.splitOn factory.separator := by
  have prefixFree : factory.separator ∉ factory.moduleDenomPrefix.toList := by
    cases factory <;> decide
  rw [toList_joinDenom, List.splitOn_append_cons_self_of_not_mem prefixFree,
    List.splitOn_append_cons_self_of_not_mem free]

theorem creatorPart_joinDenom (free : factory.separator ∉ creator.toList) :
    creatorPart factory (joinDenom factory creator subdenom) = creator := by
  rw [creatorPart, splitOn_joinDenom free]
  exact String.ofList_toList

theorem getTokenDenom_eq_ok_iff :
    getTokenDenom factory creator subdenom = .ok denom ↔
      denom = joinDenom factory creator subdenom ∧
        subdenom.utf8ByteSize ≤ factory.maxSubdenomLength ∧
        creator.utf8ByteSize ≤ maxCreatorLength ∧ factory.separator ∉ creator.toList ∧
        Dex.ValidDenom denom := by
  constructor
  · intro ok
    obtain ⟨_, short, ok⟩ := of_bind ok
    obtain ⟨_, creatorShort, ok⟩ := of_bind ok
    obtain ⟨_, free, ok⟩ := of_bind ok
    obtain ⟨_, valid, ok⟩ := of_bind ok
    cases ok
    exact ⟨rfl, of_require short,
      of_require creatorShort,
      of_require free, of_require valid⟩
  · rintro ⟨rfl, short, creatorShort, free, valid⟩
    refine Outcome.bind_ok ((Outcome.require_eq_ok_iff _ _ ⟨⟩).mpr short) ?_
    refine Outcome.bind_ok ((Outcome.require_eq_ok_iff _ _ ⟨⟩).mpr creatorShort) ?_
    refine Outcome.bind_ok ((Outcome.require_eq_ok_iff _ _ ⟨⟩).mpr free) ?_
    exact Outcome.bind_ok ((Outcome.require_eq_ok_iff _ _ ⟨⟩).mpr valid) rfl

end Parts

section Codec

variable {Address : Type u} {codec : AddressCodec Address} {factory : Factory}

theorem deconstructDenom_eq_some_iff {denom : String} {pair : String × String} :
    deconstructDenom codec factory denom = some pair ↔
      Dex.ValidDenom denom ∧ ∃ creator address,
        factory.separator ∉ creator.toList ∧ denom = joinDenom factory creator pair.2 ∧
          codec.accAddressFromBech32 creator = some address ∧
          codec.toBech32 address = pair.1 := by
  constructor
  · intro accepted
    rw [deconstructDenom] at accepted
    split at accepted
    · rename_i valid
      refine ⟨valid, ?_⟩
      split at accepted
      · rename_i denomPrefix creator first others parts
        split at accepted
        · rename_i isPrefix
          obtain ⟨address, decoded, isPair⟩ := Option.map_eq_some_iff.mp accepted
          subst isPair
          refine ⟨String.ofList creator, address, ?_, ?_, decoded, rfl⟩
          · have inParts : creator ∈ denom.toList.splitOn factory.separator := by
              rw [parts]
              exact List.mem_cons_of_mem _ List.mem_cons_self
            rw [String.toList_ofList]
            exact not_mem_of_mem_splitOn inParts
          · have joined : [factory.separator].intercalate
                (denom.toList.splitOn factory.separator) = denom.toList :=
              List.intercalate_splitOn _
            rw [parts, List.intercalate_cons_cons, List.intercalate_cons_cons] at joined
            rw [← String.toList_inj, toList_joinDenom, ← joined, ← isPrefix]
            simp
        · cases accepted
      · cases accepted
    · cases accepted
  · rintro ⟨valid, creator, address, free, rfl, decoded, isPair⟩
    rw [deconstructDenom, if_pos valid, splitOn_joinDenom free]
    have rejoined : [factory.separator].intercalate
        (pair.2.toList.splitOn factory.separator) = pair.2.toList :=
      List.intercalate_splitOn _
    cases parts : pair.2.toList.splitOn factory.separator with
    | nil => exact absurd parts (List.splitOn_ne_nil _ _)
    | cons first others =>
        dsimp only
        rw [← parts, rejoined, String.ofList_toList, String.ofList_toList, String.ofList_toList,
          if_pos rfl, decoded, Option.map_some, isPair]

/-- What is known of the codec: an address is printed in lower case, and whatever spelling
is read as it differs from that by the case of letters only. -/
structure AddressCodec.IsBech32 (codec : AddressCodec Address) : Prop where
  decode_encode : ∀ address, codec.accAddressFromBech32 (codec.toBech32 address) = some address
  lowerCase : ∀ address, LowerCase (codec.toBech32 address)
  alphanumeric : ∀ address, ∀ char ∈ (codec.toBech32 address).toList, char.isAlphanum = true
  spelling : ∀ {text address}, codec.accAddressFromBech32 text = some address →
    (codec.toBech32 address).toList = text.toList.map Char.toLower

theorem map_toLower_of_lowerCase {text : String} (lower : LowerCase text) :
    text.toList.map Char.toLower = text.toList := by
  have unchanged : ∀ char ∈ text.toList, char.toLower = id char := fun char member =>
    dif_neg (of_decide_eq_false (lower char member))
  rw [List.map_congr_left unchanged, List.map_id]

theorem validDenom_iff {denom : String} {first : Char} {rest : List Char}
    (isList : denom.toList = first :: rest) :
    Dex.ValidDenom denom ↔ first.isAlpha = true ∧ (∀ char ∈ rest, Dex.isDenomChar char = true) ∧
      2 ≤ rest.length ∧ rest.length ≤ 127 := by
  rw [Dex.ValidDenom, isList]
  simp only [Bool.and_eq_true, List.all_eq_true, decide_eq_true_eq, and_assoc]

section Bech32

variable (bech32 : codec.IsBech32)
include bech32

theorem eq_toBech32_iff_lowerCase {text : String} {address : Address}
    (decoded : codec.accAddressFromBech32 text = some address) :
    codec.toBech32 address = text ↔ LowerCase text := by
  constructor
  · rintro rfl
    exact bech32.lowerCase address
  · intro lower
    rw [← String.toList_inj, bech32.spelling decoded, map_toLower_of_lowerCase lower]

theorem separator_not_mem_toBech32 (factory : Factory) (address : Address) :
    factory.separator ∉ (codec.toBech32 address).toList := by
  intro member
  have alphanumeric := bech32.alphanumeric address _ member
  cases factory <;> exact absurd alphanumeric (by decide)

theorem validDenom_respelled {creator subdenom : String} {address : Address}
    (decoded : codec.accAddressFromBech32 creator = some address)
    (valid : Dex.ValidDenom (joinDenom factory creator subdenom)) :
    Dex.ValidDenom (joinDenom factory (codec.toBech32 address) subdenom) := by
  obtain ⟨first, tail, isPrefix⟩ : ∃ first tail,
      factory.moduleDenomPrefix.toList = first :: tail := by
    cases factory <;> exact ⟨_, _, rfl⟩
  have layout (text : String) : (joinDenom factory text subdenom).toList =
      first :: (tail ++ factory.separator :: (text.toList ++ factory.separator ::
        subdenom.toList)) := by
    rw [toList_joinDenom, isPrefix, List.cons_append]
  have sameLength := congrArg List.length (bech32.spelling decoded)
  rw [List.length_map] at sameLength
  obtain ⟨alpha, chars, low, high⟩ := (validDenom_iff (layout creator)).mp valid
  rw [validDenom_iff (layout _)]
  simp only [List.length_append, List.length_cons, sameLength] at low high ⊢
  refine ⟨alpha, ?_, low, high⟩
  simp only [List.forall_mem_append, List.forall_mem_cons] at chars ⊢
  refine ⟨chars.1, chars.2.1, fun char member => ?_, chars.2.2.2⟩
  rw [Dex.isDenomChar, bech32.alphanumeric address char member]
  rfl

end Bech32

end Codec

def creatorText : String := "neutron1m9l358xunhhwds0568za49mzhvuxx9ux8xafx2"

def upperCreatorText : String := "NEUTRON1M9L358XUNHHWDS0568ZA49MZHVUXX9UX8XAFX2"

def oneAddress : AddressCodec Unit where
  accAddressFromBech32 text :=
    if text = creatorText ∨ text = upperCreatorText then some () else none
  toBech32 _ := creatorText
  nonempty := by decide +kernel

theorem oneAddress_isBech32 : oneAddress.IsBech32 where
  decode_encode := fun () => by decide +kernel
  lowerCase := fun () => by decide +kernel
  alphanumeric := fun () => List.all_eq_true.mp (by decide +kernel)
  spelling := by
    rintro text ⟨⟩ decoded
    have known : text = creatorText ∨ text = upperCreatorText := by
      by_contra unknown
      exact nomatch (if_neg unknown).symm.trans decoded
    rcases known with rfl | rfl <;> decide +kernel

end Neutron.TokenFactory
