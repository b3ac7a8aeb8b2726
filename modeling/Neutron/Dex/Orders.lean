import Neutron.Dex.BookInvariant

namespace Neutron.Dex

open Library PrecDec

def OrderBook.Holds (book : OrderBook) (tranche : LimitOrderTranche) : Prop :=
  book.getLimitOrderTranche tranche.key = some tranche ∨
    book.getInactiveLimitOrderTranche tranche.key = some tranche

namespace OrderBook

variable {book : OrderBook} {tranche other : LimitOrderTranche}

theorem Holds.of_active {key : LimitOrderTrancheKey}
    (stored : book.getLimitOrderTranche key = some tranche) : book.Holds tranche := by
  have same := getLimitOrderTranche_key stored
  rw [← same] at stored
  exact .inl stored

theorem Holds.of_inactive {key : LimitOrderTrancheKey}
    (stored : book.getInactiveLimitOrderTranche key = some tranche) :
    book.Holds tranche := by
  have same : tranche.key = key := book.inactiveTranches.keyOf_eq stored
  rw [← same] at stored
  exact .inr stored

theorem holds_updatePool_iff {pool : Pool} :
    (book.writeAll (updatePool pool)).Holds tranche ↔ book.Holds tranche := by
  simp [Holds]

theorem Holds.of_updateTranche
    (held : (book.writeAll (updateTranche tranche)).Holds other)
    (notInactive : book.getInactiveLimitOrderTranche tranche.key = none) :
    other = tranche ∨ (other.key ≠ tranche.key ∧ book.Holds other) := by
  by_cases same : other.key = tranche.key
  · unfold Holds at held
    rw [getLimitOrderTranche_updateTranche, getInactiveLimitOrderTranche_updateTranche,
      if_pos same, same, notInactive] at held
    left
    split_ifs at held <;> simp_all
  · unfold Holds at held
    rw [getLimitOrderTranche_updateTranche, getInactiveLimitOrderTranche_updateTranche,
      if_neg same, if_neg fun left => same left.1] at held
    exact .inr ⟨same, held⟩

theorem Holds.of_updateInactiveTranche
    (held : (book.writeAll (updateInactiveTranche tranche)).Holds other)
    (notActive : book.getLimitOrderTranche tranche.key = none) :
    other = tranche ∨ (other.key ≠ tranche.key ∧ book.Holds other) := by
  unfold Holds at held
  rw [getInactiveLimitOrderTranche_updateInactiveTranche, getLimitOrderTranche,
    tickLiquidity_updateInactiveTranche] at held
  change book.getLimitOrderTranche other.key = some other ∨ _ at held
  by_cases same : other.key = tranche.key
  · rw [if_pos same, same, notActive] at held
    left
    split_ifs at held <;> simp_all
  · rw [if_neg same] at held
    exact .inr ⟨same, held⟩

theorem Holds.of_archiveTranche
    (held : (book.writeAll (archiveTranche tranche)).Holds other)
    (stored : book.getLimitOrderTranche tranche.key = some tranche) :
    book.Holds other := by
  unfold Holds at held
  rw [getLimitOrderTranche_archiveTranche,
    getInactiveLimitOrderTranche_archiveTranche] at held
  split_ifs at held
  · rcases held with impossible | archived
    · cases impossible
    · cases archived
      exact .inl stored
  · exact held

end OrderBook

abbrev TrancheUsers :=
  IndexedStore (String ×ₗ String) LimitOrderTrancheUser LimitOrderTrancheUser.key

structure LimitOrderTrancheUser.Sound (user : LimitOrderTrancheUser) : Prop where
  owned : 0 < user.sharesOwned
  withdrawn : 0 ≤ user.decSharesWithdrawn.i
  remaining : user.decSharesWithdrawn.i < user.sharesOwned * precisionReuse

theorem LimitOrderTrancheUser.Sound.not_isEmpty {user : LimitOrderTrancheUser}
    (sound : user.Sound) : ¬ user.IsEmpty := by
  intro empty
  have amounts : user.decSharesWithdrawn.i = user.sharesOwned * precisionReuse :=
    congrArg PrecDec.i empty
  have remaining := sound.remaining
  omega

def sharesOwned (users : TrancheUsers) (trancheKey : String) : Int :=
  users.total fun user =>
    if user.trancheKey = trancheKey then user.sharesOwned else 0

def Issued (trancheCount : Nat) (trancheKey : String) : Prop :=
  ∃ index < trancheCount, trancheKey = trancheKeyText index

theorem Issued.mono {first second : Nat} {trancheKey : String}
    (issued : Issued first trancheKey) (le : first ≤ second) :
    Issued second trancheKey := by
  obtain ⟨index, below, text⟩ := issued
  exact ⟨index, lt_of_lt_of_le below le, text⟩

theorem not_issued_next (trancheCount : Nat) :
    ¬ Issued trancheCount (trancheKeyText trancheCount) := by
  rintro ⟨index, below, same⟩
  rw [trancheKeyText_injective same] at below
  exact lt_irrefl _ below

structure Orders (book : OrderBook) (users : TrancheUsers) (trancheCount : Nat) :
    Prop where
  issued : ∀ {tranche}, book.Holds tranche → Issued trancheCount tranche.key.trancheKey
  unique : ∀ {left right}, book.Holds left → book.Holds right →
    left.key.trancheKey = right.key.trancheKey → left.key = right.key
  userIssued : ∀ {key user}, users.get? key = some user →
    Issued trancheCount user.trancheKey
  userSound : ∀ {key user}, users.get? key = some user → user.Sound
  userKey : ∀ {key user tranche}, users.get? key = some user → book.Holds tranche →
    tranche.key.trancheKey = user.trancheKey → user.limitOrderTrancheKey = tranche.key
  shares : ∀ {tranche}, book.Holds tranche →
    sharesOwned users tranche.key.trancheKey ≤ tranche.totalMakerDenom

section Shares

variable (users : TrancheUsers) (trancheKey : String)

theorem sharesOwned_set {user : LimitOrderTrancheUser} :
    sharesOwned (users.set user) trancheKey = sharesOwned users trancheKey -
      ((users.get? user.key).elim 0 fun stored =>
        if stored.trancheKey = trancheKey then stored.sharesOwned else 0) +
      (if user.trancheKey = trancheKey then user.sharesOwned else 0) :=
  users.total_set _ user

theorem sharesOwned_delete (key : String ×ₗ String) :
    sharesOwned (users.delete key) trancheKey = sharesOwned users trancheKey -
      ((users.get? key).elim 0 fun stored =>
        if stored.trancheKey = trancheKey then stored.sharesOwned else 0) :=
  users.total_delete _ key

variable {users trancheKey}

theorem sharesOwned_eq_zero
    (nobody : ∀ {key user}, users.get? key = some user → user.trancheKey ≠ trancheKey) :
    sharesOwned users trancheKey = 0 := by
  unfold sharesOwned IndexedStore.total SortedStore.total Entries.total
  apply List.sum_eq_zero
  intro share member
  obtain ⟨⟨key, user⟩, stored, rfl⟩ := List.mem_map.mp member
  exact if_neg (nobody ((users.store.mem_entries_iff key user).mp stored))

end Shares

namespace Orders

variable {book next : OrderBook} {users nextUsers : TrancheUsers} {trancheCount : Nat}
  (orders : Orders book users trancheCount)

include orders

theorem issue : Orders book users (trancheCount + 1) where
  issued held := (orders.issued held).mono (Nat.le_succ _)
  unique := orders.unique
  userIssued stored := (orders.userIssued stored).mono (Nat.le_succ _)
  userSound := orders.userSound
  userKey := orders.userKey
  shares := orders.shares

theorem evolve
    (tranches : ∀ {tranche}, next.Holds tranche → ∃ before, book.Holds before ∧
      before.key = tranche.key ∧
      sharesOwned nextUsers before.key.trancheKey -
        sharesOwned users before.key.trancheKey ≤
          tranche.totalMakerDenom - before.totalMakerDenom)
    (holders : ∀ {key user}, nextUsers.get? key = some user → user.Sound ∧
      ∃ before, users.get? key = some before ∧
        before.limitOrderTrancheKey = user.limitOrderTrancheKey) :
    Orders next nextUsers trancheCount where
  issued held := by
    obtain ⟨before, heldBefore, sameKey, _⟩ := tranches held
    rw [← sameKey]
    exact orders.issued heldBefore
  unique leftHeld rightHeld sameText := by
    obtain ⟨left, leftBefore, leftKey, _⟩ := tranches leftHeld
    obtain ⟨right, rightBefore, rightKey, _⟩ := tranches rightHeld
    rw [← leftKey, ← rightKey] at sameText ⊢
    exact orders.unique leftBefore rightBefore sameText
  userIssued {_ user} stored := by
    obtain ⟨_, before, storedBefore, sameKey⟩ := holders stored
    have text : before.trancheKey = user.trancheKey :=
      congrArg LimitOrderTrancheKey.trancheKey sameKey
    rw [← text]
    exact orders.userIssued storedBefore
  userSound stored := (holders stored).1
  userKey stored held sameText := by
    obtain ⟨_, user, storedBefore, userKey⟩ := holders stored
    obtain ⟨tranche, heldBefore, trancheKey, _⟩ := tranches held
    have text : user.trancheKey = _ :=
      congrArg LimitOrderTrancheKey.trancheKey userKey
    rw [← userKey, ← trancheKey]
    apply orders.userKey storedBefore heldBefore
    rw [text, trancheKey]
    exact sameText
  shares held := by
    obtain ⟨before, heldBefore, sameKey, change⟩ := tranches held
    have bound := orders.shares heldBefore
    rw [← sameKey]
    omega

theorem holders_refl {key : String ×ₗ String} {user : LimitOrderTrancheUser}
    (stored : users.get? key = some user) : user.Sound ∧
      ∃ before, users.get? key = some before ∧
        before.limitOrderTrancheKey = user.limitOrderTrancheKey :=
  ⟨orders.userSound stored, user, stored, rfl⟩

theorem ofTranches
    (tranches : ∀ {tranche}, next.Holds tranche → ∃ before, book.Holds before ∧
      before.key = tranche.key ∧
      before.totalMakerDenom = tranche.totalMakerDenom) :
    Orders next users trancheCount := by
  refine orders.evolve ?_ orders.holders_refl
  intro tranche held
  obtain ⟨before, heldBefore, sameKey, sameTotal⟩ := tranches held
  exact ⟨before, heldBefore, sameKey, by omega⟩

theorem share_of_stored {key : String ×ₗ String} {user : LimitOrderTrancheUser}
    (stored : users.get? key = some user) {tranche : LimitOrderTranche}
    (held : book.Holds tranche) :
    ((users.get? key).elim 0 fun stored =>
      if stored.trancheKey = tranche.key.trancheKey then stored.sharesOwned else 0) =
      if tranche.key = user.limitOrderTrancheKey then user.sharesOwned else 0 := by
  rw [stored, Option.elim_some]
  by_cases same : user.trancheKey = tranche.key.trancheKey
  · rw [if_pos same, if_pos (orders.userKey stored held same.symm).symm]
  · rw [if_neg same, if_neg]
    rintro sameKey
    exact same (congrArg LimitOrderTrancheKey.trancheKey sameKey).symm

theorem exit {key : String ×ₗ String} {user : LimitOrderTrancheUser}
    (stored : users.get? key = some user)
    (tranches : ∀ {tranche}, next.Holds tranche → ∃ before, book.Holds before ∧
      before.key = tranche.key ∧
      (before.totalMakerDenom ≤ tranche.totalMakerDenom ∨
        (tranche.key = user.limitOrderTrancheKey ∧
          before.totalMakerDenom - user.sharesOwned ≤ tranche.totalMakerDenom))) :
    Orders next (users.delete key) trancheCount := by
  refine orders.evolve ?_ ?_
  · intro tranche held
    obtain ⟨before, heldBefore, sameKey, total⟩ := tranches held
    refine ⟨before, heldBefore, sameKey, ?_⟩
    have owned := (orders.userSound stored).owned
    rw [sharesOwned_delete, orders.share_of_stored stored heldBefore, sameKey]
    rcases total with kept | ⟨isUser, reduced⟩
    · split_ifs <;> omega
    · rw [if_pos isUser]
      omega
  · intro other user storedAfter
    exact orders.holders_refl (IndexedStore.get?_of_get?_delete _ storedAfter).2

theorem withdraw {key : String ×ₗ String} {user updated : LimitOrderTrancheUser}
    (stored : users.get? key = some user) (sound : updated.Sound)
    (sameKey : updated.key = key)
    (sameTranche : updated.limitOrderTrancheKey = user.limitOrderTrancheKey)
    (sameShares : updated.sharesOwned = user.sharesOwned)
    (tranches : ∀ {tranche}, next.Holds tranche → ∃ before, book.Holds before ∧
      before.key = tranche.key ∧
      before.totalMakerDenom = tranche.totalMakerDenom) :
    Orders next (users.set updated) trancheCount := by
  refine orders.evolve ?_ ?_
  · intro tranche held
    obtain ⟨before, heldBefore, keyBefore, sameTotal⟩ := tranches held
    refine ⟨before, heldBefore, keyBefore, ?_⟩
    have text : updated.trancheKey = user.trancheKey :=
      congrArg LimitOrderTrancheKey.trancheKey sameTranche
    rw [sharesOwned_set, sameKey, stored, Option.elim_some, text, sameShares]
    omega
  · intro other found storedAfter
    rcases IndexedStore.get?_of_get?_set _ storedAfter with isUpdated | ⟨_, before⟩
    · subst isUpdated
      have otherKey : other = key := by
        rw [← sameKey]
        exact (IndexedStore.keyOf_eq _ storedAfter).symm
      rw [otherKey]
      exact ⟨sound, user, stored, sameTranche.symm⟩
    · exact orders.holders_refl before

theorem place {placed : LimitOrderTranche} {updated : LimitOrderTrancheUser}
    (tranches : ∀ {tranche}, next.Holds tranche →
      tranche = placed ∨ (tranche.key ≠ placed.key ∧ book.Holds tranche))
    (sound : updated.Sound) (userKey : updated.limitOrderTrancheKey = placed.key)
    (issued : Issued trancheCount placed.key.trancheKey)
    (sole : ∀ {tranche}, book.Holds tranche →
      tranche.key.trancheKey = placed.key.trancheKey → tranche.key = placed.key)
    (coholders : ∀ {key user}, users.get? key = some user →
      user.trancheKey = placed.key.trancheKey → user.limitOrderTrancheKey = placed.key)
    (shares : sharesOwned (users.set updated) placed.key.trancheKey ≤
      placed.totalMakerDenom) :
    Orders next (users.set updated) trancheCount := by
  have text : updated.trancheKey = placed.key.trancheKey :=
    congrArg LimitOrderTrancheKey.trancheKey userKey
  have apart : ∀ {tranche : LimitOrderTranche}, tranche.key ≠ placed.key →
      book.Holds tranche → tranche.key.trancheKey ≠ placed.key.trancheKey :=
    fun different held same => different (sole held same)
  exact {
    issued := by
      intro tranche held
      rcases tranches held with rfl | ⟨_, before⟩
      · exact issued
      · exact orders.issued before
    unique := by
      intro left right leftHeld rightHeld same
      rcases tranches leftHeld with rfl | ⟨_, leftBefore⟩ <;>
        rcases tranches rightHeld with rfl | ⟨_, rightBefore⟩
      · rfl
      · exact (sole rightBefore same.symm).symm
      · exact sole leftBefore same
      · exact orders.unique leftBefore rightBefore same
    userIssued := by
      intro key user stored
      rcases IndexedStore.get?_of_get?_set _ stored with rfl | ⟨_, before⟩
      · rw [text]
        exact issued
      · exact orders.userIssued before
    userSound := by
      intro key user stored
      rcases IndexedStore.get?_of_get?_set _ stored with rfl | ⟨_, before⟩
      · exact sound
      · exact orders.userSound before
    userKey := by
      intro key user tranche stored held same
      rcases IndexedStore.get?_of_get?_set _ stored with rfl | ⟨_, before⟩ <;>
        rcases tranches held with rfl | ⟨different, heldBefore⟩
      · exact userKey
      · exact absurd (same.trans text) (apart different heldBefore)
      · exact coholders before same.symm
      · exact orders.userKey before heldBefore same
    shares := by
      intro tranche held
      rcases tranches held with rfl | ⟨different, before⟩
      · exact shares
      · have differentText := apart different before
        have bound := orders.shares before
        rw [sharesOwned_set, text, if_neg (Ne.symm differentText)]
        cases stored : users.get? updated.key with
        | none => simpa using bound
        | some user =>
            have sameText : user.trancheKey = updated.trancheKey :=
              congrArg (fun key => (ofLex key).2) (users.keyOf_eq stored)
            rw [Option.elim_some, sameText, text, if_neg (Ne.symm differentText)]
            simpa using bound }

end Orders

end Neutron.Dex
