import Mathlib.Algebra.Group.Nat.Defs
import Mathlib.Data.List.Basic

namespace Neutron.Utils

/-! Pages of an account's balances that pass a filter (`utils/bank.go`). -/

structure Coin where
  denom : String
  amount : Int
deriving DecidableEq

structure AccountBalances where
  coins : List Coin
  distinct : (coins.map Coin.denom).Nodup
  named : ∀ coin ∈ coins, coin.denom ≠ ""
  countable : coins.length < 2 ^ 64

structure PageRequest where
  key : Option String
  offset : UInt64
  limit : UInt64
  countTotal : Bool
  reverse : Bool

structure PageResponse where
  nextKey : Option String
  total : Nat
deriving DecidableEq

inductive PageError where
  | reversePagination
  | offsetAndKey
deriving DecidableEq

def defaultLimit : UInt64 := 100

/-- The iteration with a key: the coins that are reported, and the next key. -/
def paginateWithKey (hit : Coin → Bool) (key : String) (limit : Nat) :
    Bool → Nat → List Coin → List Coin × Option String
  | _, _, [] => ([], none)
  | startAccum, numHits, coin :: rest =>
      let startAccum := startAccum || decide (coin.denom = key)
      if numHits = limit then
        ([], some coin.denom)
      else if startAccum && hit coin then
        let (reported, nextKey) := paginateWithKey hit key limit startAccum (numHits + 1) rest
        (coin :: reported, nextKey)
      else
        paginateWithKey hit key limit startAccum numHits rest

/-- The iteration with an offset: the coins that are reported, the next key and the number
of hits.  `afterEnd` is the number of hits at which the next page begins. -/
def paginateWithOffset (hit : Coin → Bool) (offset last afterEnd : Nat) (countTotal : Bool) :
    Nat → Option String → List Coin → List Coin × Option String × Nat
  | numHits, nextKey, [] => ([], nextKey, numHits)
  | numHits, nextKey, coin :: rest =>
      let accumulate := decide (offset ≤ numHits ∧ numHits < last)
      let reported := if accumulate && hit coin then [coin] else []
      let hits := if hit coin then numHits + 1 else numHits
      if hits = afterEnd then
        let nextKey := nextKey.or (some coin.denom)
        if countTotal then
          let (others, result) :=
            paginateWithOffset hit offset last afterEnd countTotal hits nextKey rest
          (reported ++ others, result)
        else
          (reported, nextKey, hits)
      else
        let (others, result) :=
          paginateWithOffset hit offset last afterEnd countTotal hits nextKey rest
        (reported ++ others, result)

def filteredPaginateAccountBalances (hit : Coin → Bool) (balances : AccountBalances)
    (pageRequest : Option PageRequest) : Except PageError (List Coin × PageResponse) :=
  let request := pageRequest.getD ⟨none, 0, 0, false, false⟩
  if request.reverse then
    .error .reversePagination
  else if 0 < request.offset ∧ request.key.isSome then
    .error .offsetAndKey
  else
    let limit := if request.limit = 0 then defaultLimit else request.limit
    let countTotal := request.countTotal || decide (request.limit = 0)
    match request.key.filter (· ≠ "") with
    | some key =>
        let (reported, nextKey) :=
          paginateWithKey hit key limit.toNat false 0 balances.coins
        .ok (reported, ⟨nextKey, 0⟩)
    | none =>
        let last := request.offset + limit
        let (reported, nextKey, numHits) := paginateWithOffset hit request.offset.toNat
          last.toNat (last + 1).toNat countTotal 0 none balances.coins
        .ok (reported, ⟨nextKey, if countTotal then numHits else 0⟩)

/-- The pages from a key on, each asked for with the next key of the one before it. -/
inductive Pages (hit : Coin → Bool) (balances : AccountBalances) (limit : UInt64)
    (countTotal : Bool) : Option String → List (List Coin) → Prop
  | last {key : Option String} {reported : List Coin} {total : Nat}
      (page : filteredPaginateAccountBalances hit balances
        (some ⟨key, 0, limit, countTotal, false⟩) = .ok (reported, ⟨none, total⟩)) :
      Pages hit balances limit countTotal key [reported]
  | next {key : Option String} {reported : List Coin} {total : Nat} {nextKey : String}
      {pages : List (List Coin)}
      (page : filteredPaginateAccountBalances hit balances
        (some ⟨key, 0, limit, countTotal, false⟩) = .ok (reported, ⟨some nextKey, total⟩))
      (others : Pages hit balances limit countTotal (some nextKey) pages) :
      Pages hit balances limit countTotal key (reported :: pages)

/-- Following the next keys from the first page comes to an end, and all pages together are
the hits, none of them with more than the limit. -/
def ListsAll (hit : Coin → Bool) (balances : AccountBalances) (limit : UInt64)
    (countTotal : Bool) : Prop :=
  ∃ pages, Pages hit balances limit countTotal none pages ∧
    pages.flatten = balances.coins.filter hit ∧ ∀ page ∈ pages, page.length ≤ limit.toNat

/-- A page with an offset has the hits that follow it. -/
def SkipsOffset (hit : Coin → Bool) (balances : AccountBalances) (limit : UInt64)
    (countTotal : Bool) (offset : UInt64) : Prop :=
  ∃ response, filteredPaginateAccountBalances hit balances
      (some ⟨none, offset, limit, countTotal, false⟩) =
    .ok (((balances.coins.filter hit).drop offset.toNat).take limit.toNat, response)

section Key

variable {hit : Coin → Bool} {key : String} {limit : Nat}

theorem paginateWithKey_split {numHits : Nat} (within : numHits ≤ limit) (coins : List Coin) :
    ∃ taken left, coins = taken ++ left ∧
      paginateWithKey hit key limit true numHits coins =
        (taken.filter hit, left.head?.map Coin.denom) ∧
      (taken.filter hit).length ≤ limit - numHits ∧
      (numHits < limit → coins ≠ [] → taken ≠ []) := by
  induction coins generalizing numHits with
  | nil => exact ⟨[], [], rfl, rfl, Nat.zero_le _, fun _ none => absurd rfl none⟩
  | cons coin rest ih =>
      by_cases full : numHits = limit
      · refine ⟨[], coin :: rest, rfl, ?_, Nat.zero_le _,
          fun below => absurd full (Nat.ne_of_lt below)⟩
        simp [paginateWithKey, full]
      · by_cases isHit : hit coin
        · obtain ⟨taken, left, isSplit, isPage, few, _⟩ :=
            @ih (numHits + 1) (by omega)
          refine ⟨coin :: taken, left, by rw [isSplit]; rfl, ?_, ?_,
            fun _ _ => List.cons_ne_nil _ _⟩
          · simp [paginateWithKey, full, isHit, isPage]
          · rw [List.filter_cons_of_pos isHit, List.length_cons]
            omega
        · obtain ⟨taken, left, isSplit, isPage, few, _⟩ := ih within
          refine ⟨coin :: taken, left, by rw [isSplit]; rfl, ?_, ?_,
            fun _ _ => List.cons_ne_nil _ _⟩
          · simp [paginateWithKey, full, isHit, isPage]
          · rw [List.filter_cons_of_neg isHit]
            exact few

variable {before : List Coin}

theorem paginateWithKey_skip (positive : 0 < limit)
    (absent : key ∉ before.map Coin.denom) {coin : Coin} (isKey : coin.denom = key)
    (rest : List Coin) :
    paginateWithKey hit key limit false 0 (before ++ coin :: rest) =
      paginateWithKey hit key limit true 0 (coin :: rest) := by
  induction before with
  | nil => simp [paginateWithKey, isKey]
  | cons other before ih =>
      rw [List.map_cons, List.mem_cons, not_or] at absent
      have different : other.denom ≠ key := fun same => absent.1 same.symm
      rw [List.cons_append, paginateWithKey]
      simp only [different, decide_false, Bool.or_self, Bool.false_and,
        Nat.ne_of_lt positive, if_false, Bool.false_eq_true]
      exact ih absent.2

variable {balances : AccountBalances} {request : UInt64} {countTotal : Bool}

theorem page_of_key (positive : request ≠ 0) {before rest : List Coin} {coin : Coin}
    (isSplit : balances.coins = before ++ coin :: rest) :
    ∃ taken left, coin :: rest = taken ++ left ∧ taken ≠ [] ∧
      (taken.filter hit).length ≤ request.toNat ∧
      filteredPaginateAccountBalances hit balances
          (some ⟨some coin.denom, 0, request, countTotal, false⟩) =
        .ok (taken.filter hit, ⟨left.head?.map Coin.denom, 0⟩) := by
  have limitPositive : 0 < request.toNat :=
    Nat.pos_of_ne_zero fun zero => positive (UInt64.toNat_inj.mp zero)
  have named : coin.denom ≠ "" := balances.named coin (by simp [isSplit])
  have absent : coin.denom ∉ before.map Coin.denom := by
    have distinct := balances.distinct
    rw [isSplit, List.map_append, List.nodup_append] at distinct
    exact fun member => distinct.2.2 _ member coin.denom (by simp) rfl
  obtain ⟨taken, left, isTaken, isPage, few, some⟩ :=
    @paginateWithKey_split hit coin.denom request.toNat 0 (Nat.zero_le _) (coin :: rest)
  refine ⟨taken, left, isTaken, some limitPositive (List.cons_ne_nil _ _), few, ?_⟩
  simp [filteredPaginateAccountBalances, positive, named, isSplit, Option.filter,
    paginateWithKey_skip limitPositive absent rfl, isPage]

theorem exists_pages_of_key (positive : request ≠ 0) {before rest : List Coin} {coin : Coin}
    (isSplit : balances.coins = before ++ coin :: rest) :
    ∃ pages, Pages hit balances request countTotal (some coin.denom) pages ∧
      pages.flatten = (coin :: rest).filter hit ∧
      ∀ page ∈ pages, page.length ≤ request.toNat := by
  induction isLength : rest.length using Nat.strongRecOn generalizing before coin rest with
  | ind length ih =>
      obtain ⟨taken, left, isTaken, some, few, isPage⟩ :=
        @page_of_key hit balances request countTotal positive _ _ _ isSplit
      cases left with
      | nil =>
          refine ⟨[taken.filter hit], .last isPage, ?_, ?_⟩
          · rw [isTaken, List.append_nil, List.flatten_singleton]
          · exact fun page member => List.mem_singleton.mp member ▸ few
      | cons next others =>
          have isNextSplit : balances.coins = (before ++ taken) ++ next :: others := by
            rw [isSplit, isTaken, List.append_assoc]
          have shorter : others.length < length := by
            have lengths := congrArg List.length isTaken
            have takesSome := List.length_pos_of_ne_nil some
            simp only [List.length_cons, List.length_append] at lengths
            omega
          obtain ⟨pages, listed, isFlatten, fewEach⟩ := ih _ shorter isNextSplit rfl
          refine ⟨taken.filter hit :: pages, .next isPage listed, ?_, ?_⟩
          · rw [List.flatten_cons, isFlatten, isTaken, List.filter_append]
          · exact List.forall_mem_cons.mpr ⟨few, fewEach⟩

theorem flatten_pages_of_key (positive : request ≠ 0) {key : Option String}
    {pages : List (List Coin)} (listed : Pages hit balances request countTotal key pages)
    {rest : List Coin} {coin : Coin} (isKey : key = some coin.denom)
    (isSplit : balances.coins = before ++ coin :: rest) :
    pages.flatten = (coin :: rest).filter hit := by
  induction listed generalizing before coin rest with
  | last page =>
      subst isKey
      obtain ⟨taken, left, isTaken, _, _, isPage⟩ :=
        @page_of_key hit balances request countTotal positive _ _ _ isSplit
      rw [isPage] at page
      obtain ⟨rfl, isEnd⟩ := Prod.mk.inj (Except.ok.inj page)
      have noneLeft : left = [] := by
        simpa using congrArg PageResponse.nextKey isEnd
      rw [isTaken, noneLeft, List.append_nil, List.flatten_singleton]
  | next page others ih =>
      subst isKey
      obtain ⟨taken, left, isTaken, _, _, isPage⟩ :=
        @page_of_key hit balances request countTotal positive _ _ _ isSplit
      rw [isPage] at page
      obtain ⟨rfl, isNext⟩ := Prod.mk.inj (Except.ok.inj page)
      have isNextKey := congrArg PageResponse.nextKey isNext
      cases left with
      | nil => cases isNextKey
      | cons next coins =>
          have isNextSplit : balances.coins = (before ++ taken) ++ next :: coins := by
            rw [isSplit, isTaken, List.append_assoc]
          rw [List.flatten_cons, ih isNextKey.symm isNextSplit, isTaken, List.filter_append]

end Key

section Offset

variable {hit : Coin → Bool} {offset last afterEnd numHits : Nat} {countTotal : Bool}

def window (hit : Coin → Bool) (offset last numHits : Nat) (coins : List Coin) : List Coin :=
  ((coins.filter hit).drop (offset - numHits)).take (last - max offset numHits)

theorem window_cons_of_neg {coin : Coin} (noHit : ¬hit coin) (rest : List Coin) :
    window hit offset last numHits (coin :: rest) = window hit offset last numHits rest := by
  rw [window, List.filter_cons_of_neg noHit, window]

theorem window_cons_of_pos {coin : Coin} (isHit : hit coin) (rest : List Coin) :
    window hit offset last numHits (coin :: rest) =
      (if offset ≤ numHits ∧ numHits < last then [coin] else []) ++
        window hit offset last (numHits + 1) rest := by
  unfold window
  rw [List.filter_cons_of_pos isHit]
  by_cases before : numHits < offset
  · obtain ⟨skipped, isSkipped⟩ : ∃ skipped, offset - numHits = skipped + 1 :=
      ⟨offset - numHits - 1, by omega⟩
    rw [if_neg (by omega), isSkipped, List.drop_succ_cons, List.nil_append,
      show offset - (numHits + 1) = skipped by omega,
      show max offset numHits = max offset (numHits + 1) by omega]
  · rw [show offset - numHits = 0 by omega, show offset - (numHits + 1) = 0 by omega,
      List.drop_zero, List.drop_zero]
    by_cases within : numHits < last
    · rw [if_pos ⟨by omega, within⟩, show last - max offset numHits =
        (last - max offset (numHits + 1)) + 1 by omega, List.take_succ_cons,
        List.singleton_append]
    · rw [if_neg (fun accumulate => within accumulate.2), List.nil_append,
        show last - max offset numHits = 0 by omega,
        show last - max offset (numHits + 1) = 0 by omega, List.take_zero, List.take_zero]

theorem window_eq_nil (ended : last ≤ numHits) (coins : List Coin) :
    window hit offset last numHits coins = [] := by
  rw [window, show last - max offset numHits = 0 by omega, List.take_zero]

variable {nextKey : Option String}

theorem paginateWithOffset_reported (coins : List Coin)
    (goesOn : countTotal ∨ numHits < afterEnd ∧ last < afterEnd ∨ afterEnd = 0 ∧ 0 < numHits) :
    (paginateWithOffset hit offset last afterEnd countTotal numHits nextKey coins).1 =
      window hit offset last numHits coins := by
  induction coins generalizing numHits nextKey with
  | nil => simp [paginateWithOffset, window]
  | cons coin rest ih =>
      by_cases isHit : hit coin
      · rw [window_cons_of_pos isHit]
        by_cases isEnd : numHits + 1 = afterEnd
        · cases countTotal with
          | true => simp [paginateWithOffset, isHit, isEnd, ih (.inl rfl)]
          | false =>
              have ended : last ≤ afterEnd := by
                rcases goesOn with counts | ⟨_, past⟩ | ⟨wrapped, _⟩
                · cases counts
                · exact Nat.le_of_lt past
                · omega
              simp [paginateWithOffset, isHit, isEnd, window_eq_nil ended]
        · have stillGoesOn : countTotal ∨ numHits + 1 < afterEnd ∧ last < afterEnd ∨
              afterEnd = 0 ∧ 0 < numHits + 1 := by
            rcases goesOn with counts | ⟨below, past⟩ | ⟨wrapped, _⟩
            · exact .inl counts
            · exact .inr (.inl ⟨by omega, past⟩)
            · exact .inr (.inr ⟨wrapped, Nat.succ_pos _⟩)
          simp [paginateWithOffset, isHit, isEnd, ih stillGoesOn]
      · rw [window_cons_of_neg isHit]
        by_cases isEnd : numHits = afterEnd
        · cases countTotal with
          | true => simp [paginateWithOffset, isHit, isEnd, ih (.inl rfl)]
          | false =>
              rcases goesOn with counts | ⟨below, _⟩ | ⟨wrapped, positive⟩
              · cases counts
              · exact absurd isEnd (Nat.ne_of_lt below)
              · omega
        · simp [paginateWithOffset, isHit, isEnd, ih goesOn]

theorem paginateWithOffset_some {key : String} (coins : List Coin) :
    (paginateWithOffset hit offset last afterEnd countTotal numHits (some key) coins).2.1 =
      some key := by
  induction coins generalizing numHits with
  | nil => rfl
  | cons coin rest ih =>
      rw [paginateWithOffset]
      dsimp only
      generalize (if hit coin then numHits + 1 else numHits) = hits
      by_cases isEnd : hits = afterEnd
      · cases countTotal <;> simp [isEnd, ih]
      · simp [isEnd, ih]

theorem paginateWithOffset_nextKey (below : numHits < afterEnd) (coins : List Coin) :
    (numHits + (coins.filter hit).length < afterEnd ∧
      (paginateWithOffset hit offset last afterEnd countTotal numHits none coins).2.1 = none) ∨
    ∃ before coin rest, coins = before ++ coin :: rest ∧ hit coin ∧
      numHits + (before.filter hit).length + 1 = afterEnd ∧
      (paginateWithOffset hit offset last afterEnd countTotal numHits none coins).2.1 =
        some coin.denom := by
  induction coins generalizing numHits with
  | nil => exact .inl ⟨below, rfl⟩
  | cons coin rest ih =>
      by_cases isHit : hit coin
      · by_cases isEnd : numHits + 1 = afterEnd
        · refine .inr ⟨[], coin, rest, rfl, isHit, isEnd, ?_⟩
          cases countTotal <;> simp [paginateWithOffset, isHit, isEnd, paginateWithOffset_some]
        · have isNext : (paginateWithOffset hit offset last afterEnd countTotal numHits none
              (coin :: rest)).2.1 = (paginateWithOffset hit offset last afterEnd countTotal
                (numHits + 1) none rest).2.1 := by
            simp [paginateWithOffset, isHit, isEnd]
          rw [isNext, List.filter_cons_of_pos isHit, List.length_cons]
          rcases @ih (numHits + 1) (by omega) with
            ⟨few, isNone⟩ | ⟨before, other, others, isSplit, isOther, isCount, isSome⟩
          · exact .inl ⟨by omega, isNone⟩
          · refine .inr ⟨coin :: before, other, others, by rw [isSplit]; rfl, isOther, ?_, isSome⟩
            rw [List.filter_cons_of_pos isHit, List.length_cons]
            omega
      · have isNext : (paginateWithOffset hit offset last afterEnd countTotal numHits none
            (coin :: rest)).2.1 = (paginateWithOffset hit offset last afterEnd countTotal
              numHits none rest).2.1 := by
          simp [paginateWithOffset, isHit, Nat.ne_of_lt below]
        rw [isNext, List.filter_cons_of_neg isHit]
        rcases ih below with
          ⟨few, isNone⟩ | ⟨before, other, others, isSplit, isOther, isCount, isSome⟩
        · exact .inl ⟨few, isNone⟩
        · refine .inr ⟨coin :: before, other, others, by rw [isSplit]; rfl, isOther, ?_, isSome⟩
          rw [List.filter_cons_of_neg isHit]
          exact isCount

theorem paginateWithOffset_nextKey_wrapped (positive : 0 < numHits) (coins : List Coin) :
    (paginateWithOffset hit offset last 0 countTotal numHits none coins).2.1 = none := by
  induction coins generalizing numHits with
  | nil => rfl
  | cons coin rest ih =>
      by_cases isHit : hit coin
      · simp [paginateWithOffset, isHit, ih (Nat.succ_pos numHits)]
      · simp [paginateWithOffset, isHit, Nat.ne_of_gt positive, ih positive]

theorem paginateWithOffset_reported_wrapped (ended : last ≤ offset)
    (coins : List Coin) :
    (paginateWithOffset hit offset last afterEnd countTotal numHits nextKey coins).1 = [] := by
  induction coins generalizing numHits nextKey with
  | nil => rfl
  | cons coin rest ih =>
      have outside : ¬(offset ≤ numHits ∧ numHits < last) := by omega
      rw [paginateWithOffset]
      simp only [outside, decide_false, Bool.false_and, Bool.false_eq_true, if_false,
        List.nil_append]
      generalize (if hit coin then numHits + 1 else numHits) = hits
      by_cases isEnd : hits = afterEnd
      · cases countTotal <;> simp [isEnd, ih]
      · simp [isEnd, ih]

theorem paginateWithOffset_of_hit {coin : Coin} (isHit : hit coin) (rest : List Coin) :
    (paginateWithOffset hit offset last 0 countTotal 0 none (coin :: rest)).1 =
        window hit offset last 0 (coin :: rest) ∧
      (paginateWithOffset hit offset last 0 countTotal 0 none (coin :: rest)).2.1 = none := by
  constructor
  · rw [window_cons_of_pos isHit]
    simp [paginateWithOffset, isHit,
      paginateWithOffset_reported rest (.inr (.inr ⟨rfl, Nat.one_pos⟩))]
  · simp [paginateWithOffset, isHit, paginateWithOffset_nextKey_wrapped Nat.one_pos]

theorem paginateWithOffset_of_not_hit {coin : Coin} (noHit : ¬hit coin) (rest : List Coin) :
    (paginateWithOffset hit offset last 0 countTotal 0 none (coin :: rest)).1 =
        (if countTotal then window hit offset last 0 (coin :: rest) else []) ∧
      (paginateWithOffset hit offset last 0 countTotal 0 none (coin :: rest)).2.1 =
        some coin.denom := by
  rw [window_cons_of_neg noHit]
  cases countTotal with
  | true =>
      simp [paginateWithOffset, noHit, paginateWithOffset_some,
        paginateWithOffset_reported rest (.inl rfl)]
  | false => simp [paginateWithOffset, noHit]

end Offset

section Complete

variable {hit : Coin → Bool} {balances : AccountBalances} {limit : UInt64} {countTotal : Bool}

variable {offset : UInt64} {last afterEnd : Nat}

theorem page_of_offset (positive : limit ≠ 0) {offset : UInt64} {last afterEnd : Nat}
    (isLast : (offset.toNat + limit.toNat) % 2 ^ 64 = last)
    (isAfterEnd : (last + 1) % 2 ^ 64 = afterEnd) :
    ∃ total, filteredPaginateAccountBalances hit balances
        (some ⟨none, offset, limit, countTotal, false⟩) =
      .ok ((paginateWithOffset hit offset.toNat last afterEnd countTotal 0 none
          balances.coins).1,
        ⟨(paginateWithOffset hit offset.toNat last afterEnd countTotal 0 none
          balances.coins).2.1, total⟩) := by
  have isLastNat : (offset + limit).toNat = last := by rw [← isLast, UInt64.toNat_add]
  have isAfterEndNat : (offset + limit + 1).toNat = afterEnd := by
    rw [← isAfterEnd, UInt64.toNat_add, isLastNat]
    rfl
  refine ⟨if countTotal then (paginateWithOffset hit offset.toNat last afterEnd countTotal 0
    none balances.coins).2.2 else 0, ?_⟩
  simp [filteredPaginateAccountBalances, positive, -UInt64.toNat_add, isLastNat,
    isAfterEndNat]

theorem skipsOffset_iff_reported (positive : limit ≠ 0)
    (isLast : (offset.toNat + limit.toNat) % 2 ^ 64 = last)
    (isAfterEnd : (last + 1) % 2 ^ 64 = afterEnd) :
    SkipsOffset hit balances limit countTotal offset ↔
      (paginateWithOffset hit offset.toNat last afterEnd countTotal 0 none
        balances.coins).1 =
        ((balances.coins.filter hit).drop offset.toNat).take limit.toNat := by
  obtain ⟨total, isPage⟩ :=
    @page_of_offset hit balances limit countTotal positive offset last afterEnd isLast isAfterEnd
  unfold SkipsOffset
  rw [isPage]
  constructor
  · rintro ⟨response, isResponse⟩
    exact (Prod.mk.inj (Except.ok.inj isResponse)).1
  · intro isReported
    exact ⟨_, by rw [isReported]⟩

theorem window_zero {offset limit : Nat} (isLast : last = offset + limit)
    (coins : List Coin) :
    window hit offset last 0 coins = ((coins.filter hit).drop offset).take limit := by
  rw [window, isLast, Nat.sub_zero, Nat.max_eq_left (Nat.zero_le _), Nat.add_sub_cancel_left]

theorem skipsOffset_iff (positive : limit ≠ 0) (offset : UInt64) :
    SkipsOffset hit balances limit countTotal offset ↔
      (balances.coins.filter hit).length ≤ offset.toNat ∨
      offset.toNat + limit.toNat + 1 < 2 ^ 64 ∨
      offset.toNat + limit.toNat + 1 = 2 ^ 64 ∧
        (countTotal ∨ balances.coins.head?.any hit) := by
  have limitPositive : limit.toNat ≠ 0 := fun zero => positive (UInt64.toNat_inj.mp zero)
  have limitBound := limit.toNat_lt
  have offsetBound := offset.toNat_lt
  have emptyIff : [] = ((balances.coins.filter hit).drop offset.toNat).take limit.toNat ↔
      (balances.coins.filter hit).length ≤ offset.toNat := by
    rw [eq_comm, List.take_eq_nil_iff, List.drop_eq_nil_iff, or_iff_right limitPositive]
  rw [skipsOffset_iff_reported positive rfl rfl]
  rcases Nat.lt_trichotomy (offset.toNat + limit.toNat + 1) (2 ^ 64) with below | isEnd | above
  · rw [Nat.mod_eq_of_lt (by omega), Nat.mod_eq_of_lt below,
      paginateWithOffset_reported _ (.inr (.inl ⟨Nat.succ_pos _, Nat.lt_succ_self _⟩)),
      window_zero rfl]
    exact iff_of_true rfl (.inr (.inl below))
  · rw [Nat.mod_eq_of_lt (by omega), isEnd, Nat.mod_self]
    have notBelow : ¬(2 ^ 64 < 2 ^ 64) := Nat.lt_irrefl _
    simp only [notBelow, false_or, true_and]
    cases isCoins : balances.coins with
    | nil => simp [paginateWithOffset]
    | cons coin rest =>
        rw [isCoins] at emptyIff
        by_cases isHit : hit coin
        · rw [(paginateWithOffset_of_hit isHit rest).1, window_zero rfl]
          exact iff_of_true rfl (.inr (.inr isHit))
        · rw [(paginateWithOffset_of_not_hit isHit rest).1]
          cases countTotal with
          | true =>
              rw [if_pos rfl, window_zero rfl]
              exact iff_of_true rfl (.inr (.inl rfl))
          | false =>
              simp only [Bool.false_eq_true, if_false, false_or]
              rw [emptyIff, List.head?_cons, Option.any_some, or_iff_left isHit]
  · rw [paginateWithOffset_reported_wrapped (by omega), emptyIff]
    constructor
    · exact .inl
    · rintro (few | below | ⟨isEnd, _⟩)
      · exact few
      · omega
      · omega

theorem listsAll_of_lt (positive : limit ≠ 0) (below : limit.toNat + 1 < 2 ^ 64) :
    ListsAll hit balances limit countTotal := by
  obtain ⟨total, isPage⟩ := @page_of_offset hit balances limit countTotal positive 0 limit.toNat
    (limit.toNat + 1) (by rw [UInt64.toNat_zero, Nat.zero_add, Nat.mod_eq_of_lt limit.toNat_lt])
    (Nat.mod_eq_of_lt below)
  rw [paginateWithOffset_reported _ (.inr (.inl ⟨Nat.succ_pos _, Nat.lt_succ_self _⟩)),
    UInt64.toNat_zero, window_zero (Nat.zero_add _).symm, List.drop_zero] at isPage
  rcases @paginateWithOffset_nextKey hit 0 limit.toNat (limit.toNat + 1) 0 countTotal
    (Nat.succ_pos _) balances.coins with
    ⟨few, isNone⟩ | ⟨before, coin, rest, isSplit, isHit, isCount, isSome⟩
  · rw [isNone, List.take_of_length_le (by omega)] at isPage
    refine ⟨_, .last isPage, List.flatten_singleton, ?_⟩
    intro page member
    rw [List.mem_singleton.mp member]
    omega
  · rw [isSome] at isPage
    obtain ⟨pages, listed, isFlatten, few⟩ :=
      @exists_pages_of_key hit balances limit countTotal positive before rest coin isSplit
    refine ⟨_, .next isPage listed, ?_, List.forall_mem_cons.mpr ⟨?_, few⟩⟩
    · have isBefore : (balances.coins.filter hit).take limit.toNat = before.filter hit := by
        rw [isSplit, List.filter_append, List.take_append_of_le_length (by omega),
          List.take_of_length_le (by omega)]
      rw [List.flatten_cons, isFlatten, isBefore, isSplit, List.filter_append]
    · rw [List.length_take]
      exact Nat.min_le_left _ _

theorem page_of_wrapped (positive : limit ≠ 0) (wraps : ¬limit.toNat + 1 < 2 ^ 64) :
    ∃ total, filteredPaginateAccountBalances hit balances
        (some ⟨none, 0, limit, countTotal, false⟩) =
      .ok ((paginateWithOffset hit 0 limit.toNat 0 countTotal 0 none balances.coins).1,
        ⟨(paginateWithOffset hit 0 limit.toNat 0 countTotal 0 none balances.coins).2.1,
          total⟩) := by
  have limitBound := limit.toNat_lt
  have isLimit : limit.toNat + 1 = 2 ^ 64 := by omega
  exact page_of_offset positive
    (by rw [UInt64.toNat_zero, Nat.zero_add, Nat.mod_eq_of_lt limitBound])
    (by rw [isLimit, Nat.mod_self])

theorem window_of_wrapped (wraps : ¬limit.toNat + 1 < 2 ^ 64) :
    window hit 0 limit.toNat 0 balances.coins = balances.coins.filter hit := by
  have countable := balances.countable
  have few : (balances.coins.filter hit).length ≤ limit.toNat :=
    Nat.le_trans (List.length_filter_le _ _) (by omega)
  rw [window_zero (Nat.zero_add _).symm, List.drop_zero, List.take_of_length_le few]

variable {reported : List Coin} {total : Nat}

theorem listsAll_of_last
    (isPage : filteredPaginateAccountBalances hit balances
      (some ⟨none, 0, limit, countTotal, false⟩) = .ok (reported, ⟨none, total⟩))
    (isReported : reported = balances.coins.filter hit) (few : reported.length ≤ limit.toNat) :
    ListsAll hit balances limit countTotal := by
  refine ⟨[reported], .last isPage, ?_, ?_⟩
  · rw [List.flatten_singleton, isReported]
  · exact fun page member => List.mem_singleton.mp member ▸ few

theorem listsAll_iff_of_first (positive : limit ≠ 0)
    {coin : Coin} {rest : List Coin} (isCoins : balances.coins = coin :: rest)
    (isPage : filteredPaginateAccountBalances hit balances
      (some ⟨none, 0, limit, countTotal, false⟩) = .ok (reported, ⟨some coin.denom, total⟩)) :
    ListsAll hit balances limit countTotal ↔ reported = [] := by
  constructor
  · rintro ⟨pages, listed, isFlatten, _⟩
    cases listed with
    | last page => exact nomatch isPage.symm.trans page
    | next page others =>
        obtain ⟨rfl, isNext⟩ := Prod.mk.inj (Except.ok.inj (isPage.symm.trans page))
        have isKey := congrArg PageResponse.nextKey isNext
        rw [List.flatten_cons, flatten_pages_of_key positive others isKey.symm
          (isCoins.trans (List.nil_append _).symm), isCoins] at isFlatten
        exact List.append_left_eq_self.mp isFlatten
  · rintro rfl
    obtain ⟨pages, listed, isFlatten, few⟩ :=
      @exists_pages_of_key hit balances limit countTotal positive [] rest coin isCoins
    refine ⟨[] :: pages, .next isPage listed, ?_, ?_⟩
    · rw [List.flatten_cons, isFlatten, isCoins, List.nil_append]
    · exact List.forall_mem_cons.mpr ⟨Nat.zero_le _, few⟩

theorem listsAll_iff (positive : limit ≠ 0) :
    ListsAll hit balances limit countTotal ↔
      limit.toNat + 1 < 2 ^ 64 ∨ countTotal = false ∨ balances.coins.head?.any hit ∨
        balances.coins.filter hit = [] := by
  by_cases below : limit.toNat + 1 < 2 ^ 64
  · exact iff_of_true (listsAll_of_lt positive below) (.inl below)
  obtain ⟨total, isPage⟩ := @page_of_wrapped hit balances limit countTotal positive below
  have isWindow := @window_of_wrapped hit balances limit below
  cases isCoins : balances.coins with
  | nil =>
      rw [isCoins] at isPage
      refine iff_of_true (listsAll_of_last isPage ?_ (Nat.zero_le _)) (.inr (.inr (.inr rfl)))
      rw [isCoins]
      rfl
  | cons coin rest =>
      rw [isCoins] at isPage isWindow
      by_cases isHit : hit coin
      · obtain ⟨isReported, isNone⟩ :=
          @paginateWithOffset_of_hit hit 0 limit.toNat countTotal coin isHit rest
        rw [isReported, isNone, isWindow] at isPage
        refine iff_of_true (listsAll_of_last isPage (by rw [isCoins]) ?_)
          (.inr (.inr (.inl isHit)))
        rw [← isWindow, window]
        exact Nat.le_trans (List.length_take_le _ _) (Nat.sub_le _ _)
      · obtain ⟨isReported, isSome⟩ :=
          @paginateWithOffset_of_not_hit hit 0 limit.toNat countTotal coin isHit rest
        rw [isReported, isSome, isWindow] at isPage
        rw [listsAll_iff_of_first positive isCoins isPage, or_iff_right below]
        cases countTotal <;> simp [isHit]

/-- All hits are listed, and an offset skips as many hits as it says, exactly when neither
window wraps around `2 ^ 64`, or its wrapping does not show. -/
theorem filteredPaginateAccountBalances_complete_iff (positive : limit ≠ 0) (offset : UInt64) :
    ListsAll hit balances limit countTotal ∧
        SkipsOffset hit balances limit countTotal offset ↔
      (limit.toNat + 1 < 2 ^ 64 ∨ countTotal = false ∨ balances.coins.head?.any hit ∨
        balances.coins.filter hit = []) ∧
      ((balances.coins.filter hit).length ≤ offset.toNat ∨
        offset.toNat + limit.toNat + 1 < 2 ^ 64 ∨
        offset.toNat + limit.toNat + 1 = 2 ^ 64 ∧
          (countTotal ∨ balances.coins.head?.any hit)) :=
  and_congr (listsAll_iff positive) (skipsOffset_iff positive offset)

def threeBalances : AccountBalances where
  coins := [⟨"ibc/atom", 5⟩, ⟨"neutron/pool/0", 7⟩, ⟨"neutron/pool/3", 1⟩]
  distinct := by decide
  named := by decide
  countable := by decide

def isPoolShare (coin : Coin) : Bool :=
  coin.denom == "neutron/pool/0" || coin.denom == "neutron/pool/3"

theorem filteredPaginateAccountBalances_complete_two :
    ListsAll isPoolShare threeBalances 1 true ∧
      SkipsOffset isPoolShare threeBalances 1 true 1 :=
  (filteredPaginateAccountBalances_complete_iff (by decide) 1).mpr (by decide)

/-- With the greatest limit and `countTotal` the shares are listed twice, and with an offset
of one none is. -/
theorem filteredPaginateAccountBalances_wraps :
    ¬ListsAll isPoolShare threeBalances 18446744073709551615 true ∧
      ¬SkipsOffset isPoolShare threeBalances 18446744073709551615 true 1 := by
  constructor
  · rw [listsAll_iff (by decide)]
    decide
  · rw [skipsOffset_iff (by decide)]
    decide

end Complete

end Neutron.Utils
