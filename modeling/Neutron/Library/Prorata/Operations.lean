import Neutron.Library.Prorata.Pot

namespace Library.Prorata

universe u v

variable {Amount : Type v} [Field Amount] [LinearOrder Amount] {Name : Type u}
  [LinearOrder Name]

namespace Pot

variable (pot : Pot Name Amount) (unit : Amount)

section Fill

variable [IsStrictOrderedRing Amount] {pot unit} {tolerance out value : Amount}
  (sound : pot.Sound unit) (outLe : out ≤ pot.kept) (valueNonneg : 0 ≤ value)

include sound outLe valueNonneg

theorem Sound.fill : (pot.fill out value).Sound unit where
  kept_nonneg := sub_nonneg.mpr outLe
  gained_nonneg := add_nonneg sound.gained_nonneg valueNonneg
  filled_nonneg := add_nonneg sound.filled_nonneg valueNonneg
  settled_nonneg := sound.settled_nonneg
  share_pos := sound.share_pos
  drawn_le := sound.drawn_le
  shares_le := sound.shares_le

theorem Sound.spends_fill (whole : pot.shares = pot.total) (tolerant : 0 ≤ tolerance)
    (outNear : out ≤ value + tolerance) :
    Spends pot (pot.fill out value) unit tolerance := by
  have grown : (pot.fill out value).rate - pot.rate = value / pot.total - 0 := by
    unfold rate Pot.fill
    ring
  have quotient := div_nonneg valueNonneg sound.total_nonneg
  refine ⟨?_, ?_, ?_⟩
  · have before := sound.rest_eq whole
    have after := (sound.fill outLe valueNonneg).rest_eq whole
    rw [before, after]
    change max (unit * pot.total - (pot.filled + value)) 0 - (pot.kept - out) ≤ _
    rcases max_cases (unit * pot.total - (pot.filled + value)) 0 with ⟨isMax, _⟩ | ⟨isMax, _⟩
    · have unfilled := le_max_left (unit * pot.total - pot.filled) 0
      have kept := le_max_left (max (unit * pot.total - pot.filled) 0 - pot.kept) 0
      linarith
    · have kept := le_max_right (max (unit * pot.total - pot.filled) 0 - pot.kept) 0
      linarith
  · have shift := sound.dueAt_le_add pot.rate (pot.fill out value).rate
    have bound := max_div_sub_mul_le sound.shares_nonneg sound.shares_le value 0
    rw [grown] at shift
    rw [zero_mul, sub_zero value, max_eq_left valueNonneg] at bound
    change pot.dueAt unit _ - (pot.gained + value) ≤ _
    linarith
  · have shift := sound.excessAt_le_add pot.rate (pot.fill out value).rate
    have grows : pot.rate - (pot.fill out value).rate ≤ 0 := by linarith
    rw [max_eq_right grows, zero_mul, add_zero] at shift
    change pot.excessAt unit _ ≤ _
    linarith

theorem Balanced.fill {budget : Amount} (balanced : pot.Balanced unit budget)
    (nonneg : 0 ≤ budget) (tolerant : 0 ≤ tolerance) (whole : pot.shares = pot.total)
    (outNear : out ≤ value + tolerance) :
    (pot.fill out value).Balanced unit (budget + tolerance) := by
  have spends := sound.spends_fill outLe valueNonneg whole tolerant outNear
  refine balanced.spends spends nonneg ?_
  intro name account found
  exact (balanced.covers name account found).spends spends tolerant

end Fill

section Accounts

variable [IsStrictOrderedRing Amount] {pot unit} {name : Name} {account : Account Amount}

def Holds (pot : Pot Name Amount) (name : Name) (account : Account Amount) : Prop :=
  pot.accounts.get? name = some account ∨
    (pot.accounts.get? name = none ∧ account = ⟨0, 0, 0⟩)

omit [LinearOrder Amount] [IsStrictOrderedRing Amount] in
theorem Holds.share_eq (holds : pot.Holds name account)
    {measure : Name → Account Amount → Amount} (zero : measure name ⟨0, 0, 0⟩ = 0) :
    Entries.share measure name (pot.accounts.get? name) = measure name account := by
  rcases holds with found | ⟨absent, rfl⟩
  · rw [found]
    rfl
  · rw [absent, zero]
    rfl

omit [IsStrictOrderedRing Amount] in
theorem Holds.total_due (holds : pot.Holds name account) (rate : Amount)
    (changed : Account Amount) :
    (pot.accounts.set name changed).total (fun _ account => account.due rate) =
      pot.accounts.total (fun _ account => account.due rate) - account.due rate +
        changed.due rate := by
  rw [SortedStore.total_set, holds.share_eq (by simp [Account.due])]

omit [IsStrictOrderedRing Amount] in
theorem Holds.total_excess (holds : pot.Holds name account) (rate : Amount)
    (changed : Account Amount) :
    (pot.accounts.set name changed).total (fun _ account => account.excess rate) =
      pot.accounts.total (fun _ account => account.excess rate) - account.excess rate +
        changed.excess rate := by
  rw [SortedStore.total_set, holds.share_eq (by simp [Account.excess])]

omit [LinearOrder Amount] [IsStrictOrderedRing Amount] in
theorem Holds.total_share (holds : pot.Holds name account) (changed : Account Amount) :
    (pot.accounts.set name changed).total (fun _ account => account.share) =
      pot.accounts.total (fun _ account => account.share) - account.share +
        changed.share := by
  rw [SortedStore.total_set, holds.share_eq rfl]

end Accounts

section Join

variable [IsStrictOrderedRing Amount] {pot unit} {budget tolerance amount : Amount}
  {name : Name} {account : Account Amount} (sound : pot.Sound unit)
  (positive : 0 < amount) (unitNonneg : 0 ≤ unit) (holds : pot.Holds name account)

omit [LinearOrder Amount] [IsStrictOrderedRing Amount] in
theorem shares_join (holds : pot.Holds name account) :
    (pot.join unit name account amount).shares = pot.shares + amount := by
  unfold shares join
  dsimp only
  rw [holds.total_share]
  ring

include sound positive unitNonneg holds

theorem Sound.join : (pot.join unit name account amount).Sound unit where
  kept_nonneg := add_nonneg sound.kept_nonneg (mul_nonneg unitNonneg positive.le)
  gained_nonneg := sound.gained_nonneg
  filled_nonneg := sound.filled_nonneg
  settled_nonneg := sound.settled_nonneg
  share_pos := by
    intro other stored found
    unfold Pot.join at found
    dsimp only at found
    rcases SortedStore.of_get?_set found with ⟨_, rfl⟩ | ⟨_, found⟩
    · rcases holds with present | ⟨_, rfl⟩
      · exact add_pos (sound.share_pos _ _ present) positive
      · exact add_pos_of_nonneg_of_pos le_rfl positive
    · exact sound.share_pos other stored found
  drawn_le := by
    intro other stored found
    unfold Pot.join at found
    dsimp only at found
    rcases SortedStore.of_get?_set found with ⟨_, rfl⟩ | ⟨_, found⟩
    · have more := mul_nonneg unitNonneg positive.le
      have before : account.drawn ≤ unit * account.share := by
        rcases holds with present | ⟨_, rfl⟩
        · exact sound.drawn_le _ _ present
        · exact (mul_zero unit).ge
      dsimp only
      linarith
    · exact sound.drawn_le other stored found
  shares_le := by
    rw [shares_join holds]
    exact add_le_add_left sound.shares_le amount

theorem Sound.spends_join (whole : pot.shares = pot.total)
    (little : pot.filled ≤ 4 * tolerance) :
    Spends pot (pot.join unit name account amount) unit tolerance := by
  have joined := sound.join positive unitNonneg holds
  have joinedWhole : (pot.join unit name account amount).shares =
      (pot.join unit name account amount).total := by
    rw [shares_join holds, whole]
    rfl
  have rateNonneg := sound.rate_nonneg
  have nextNonneg := joined.rate_nonneg
  have filledBefore := sound.rate_mul_shares_le
  have filledAfter := joined.rate_mul_shares_le
  rw [shares_join holds] at filledAfter
  change _ ≤ pot.filled at filledAfter
  have sharesNonneg := sound.shares_nonneg
  have unfilledNonneg := le_max_right (unit * pot.total - pot.filled) 0
  generalize isNext : (pot.join unit name account amount).rate = next at *
  refine ⟨?_, ?_, ?_⟩
  · rw [sound.rest_eq whole, joined.rest_eq joinedWhole]
    change max (unit * (pot.total + amount) - pot.filled) 0 - (pot.kept + unit * amount) ≤ _
    have unfilled := le_max_left (unit * pot.total - pot.filled) 0
    have kept := le_max_left (max (unit * pot.total - pot.filled) 0 - pot.kept) 0
    have more := mul_nonneg unitNonneg positive.le
    have unfilledNext : max (unit * (pot.total + amount) - pot.filled) 0 ≤
        max (unit * pot.total - pot.filled) 0 + unit * amount :=
      max_le (by linarith) (by linarith)
    have filledNonneg := sound.filled_nonneg
    linarith
  · have shift := sound.dueAt_le_add pot.rate next
    have part := mul_le_mul_of_nonneg_right
      (max_le (sub_le_self next rateNonneg) nextNonneg) sharesNonneg
    have joiner : ({ account with share := account.share + amount } : Account Amount).due
        next ≤ account.due next + next * amount := by
      have due := account.le_due next
      have dueNonneg := account.due_nonneg next
      have more := mul_nonneg nextNonneg positive.le
      exact max_le (by dsimp only; linarith) (by linarith)
    rw [isNext]
    unfold dueAt Pot.join at *
    dsimp only at *
    rw [holds.total_due]
    linarith
  · have shift := sound.excessAt_le_add pot.rate next
    have part := mul_le_mul_of_nonneg_right
      (max_le (sub_le_self pot.rate nextNonneg) rateNonneg) sharesNonneg
    have joiner : ({ account with share := account.share + amount } : Account Amount).excess
        next ≤ account.excess next := by
      have excess := account.le_excess next
      have more := mul_nonneg nextNonneg positive.le
      exact max_le (by dsimp only; linarith) (account.excess_nonneg next)
    rw [isNext]
    unfold excessAt Pot.join at *
    dsimp only at *
    rw [holds.total_excess]
    linarith

theorem Balanced.join (balanced : pot.Balanced unit budget) (nonneg : 0 ≤ budget)
    (tolerant : 0 ≤ tolerance) (whole : pot.shares = pot.total)
    (little : pot.filled ≤ 4 * tolerance) :
    (pot.join unit name account amount).Balanced unit (budget + tolerance) := by
  have spends := sound.spends_join positive unitNonneg holds whole little
  refine balanced.spends spends nonneg ?_
  intro other stored found
  unfold Pot.join at found
  dsimp only at found
  rcases SortedStore.of_get?_set found with ⟨_, rfl⟩ | ⟨_, found⟩
  · rcases holds with present | ⟨_, rfl⟩
    · obtain ⟨unpaidGe, unpaidLe, dueUnpaid⟩ :=
        (balanced.covers _ _ present).spends spends tolerant
      exact ⟨unpaidGe, unpaidLe, dueUnpaid⟩
    · have before := balanced.due
      have change := spends.due
      refine ⟨?_, ?_, ?_⟩
      all_goals
        unfold Account.unpaid
        dsimp only
        linarith
  · exact (balanced.covers other stored found).spends spends tolerant

end Join

section Draw

variable [IsStrictOrderedRing Amount] {pot unit} {budget tolerance drawn value : Amount}
  {name : Name} {account : Account Amount} (sound : pot.Sound unit)
  (found : pot.accounts.get? name = some account)
  (draws : pot.Draws unit tolerance account drawn value) (tolerant : 0 ≤ tolerance)

include draws tolerant in
theorem Draws.due_add_le :
    ({ account with drawn := drawn, paid := account.paid + value } : Account Amount).due
        pot.rate + (drawn - account.drawn) ≤ account.due pot.rate + tolerance / 2 := by
  have due := account.le_due pot.rate
  have dueNonneg := account.due_nonneg pot.rate
  have drawnLe := draws.drawn_le
  unfold Account.due at *
  dsimp only at *
  rcases max_cases (pot.rate * account.share - drawn) 0 with ⟨isMax, _⟩ | ⟨isMax, _⟩ <;>
    rcases max_cases account.drawn (pot.rate * account.share + tolerance / 2)
      with ⟨isLast, _⟩ | ⟨isLast, _⟩ <;>
    linarith

include draws tolerant in
theorem Draws.excess_le :
    ({ account with drawn := drawn, paid := account.paid + value } : Account Amount).excess
        pot.rate ≤ account.excess pot.rate + tolerance / 2 := by
  have excess := account.le_excess pot.rate
  have excessNonneg := account.excess_nonneg pot.rate
  have drawnLe := draws.drawn_le
  refine max_le ?_ (by linarith)
  dsimp only
  rcases max_cases account.drawn (pot.rate * account.share + tolerance / 2)
    with ⟨isLast, _⟩ | ⟨isLast, _⟩ <;>
    linarith

include draws tolerant in
theorem Draws.value_le_due : value ≤ account.due pot.rate + tolerance := by
  have both := draws.due_add_le tolerant
  have dueNonneg := Account.due_nonneg
    ({ account with drawn := drawn, paid := account.paid + value } : Account Amount) pot.rate
  have valueLe := draws.value_le
  linarith

include sound found draws in
theorem Sound.draw : (pot.draw name account drawn value).Sound unit where
  kept_nonneg := sound.kept_nonneg
  gained_nonneg := sub_nonneg.mpr draws.value_le_gained
  filled_nonneg := sound.filled_nonneg
  settled_nonneg := sound.settled_nonneg
  share_pos := by
    intro other stored present
    unfold Pot.draw at present
    dsimp only at present
    rcases SortedStore.of_get?_set present with ⟨_, rfl⟩ | ⟨_, present⟩
    · exact sound.share_pos name account found
    · exact sound.share_pos other stored present
  drawn_le := by
    intro other stored present
    unfold Pot.draw at present
    dsimp only at present
    rcases SortedStore.of_get?_set present with ⟨_, rfl⟩ | ⟨_, present⟩
    · exact draws.drawn_le_unit
    · exact sound.drawn_le other stored present
  shares_le := by
    have before := sound.shares_le
    unfold shares Pot.draw at *
    dsimp only at *
    rw [Holds.total_share (.inl found)]
    dsimp only
    linarith

omit [LinearOrder Amount] [IsStrictOrderedRing Amount] in
theorem rate_draw : (pot.draw name account drawn value).rate = pot.rate := rfl

include found in
omit [LinearOrder Amount] [IsStrictOrderedRing Amount] in
theorem shares_draw : (pot.draw name account drawn value).shares = pot.shares := by
  unfold shares Pot.draw
  dsimp only
  rw [Holds.total_share (.inl found)]
  ring

include found in
omit [IsStrictOrderedRing Amount] in
theorem dueAt_draw (rate : Amount) :
    (pot.draw name account drawn value).dueAt unit rate =
      pot.dueAt unit rate - account.due rate +
        ({ account with drawn := drawn, paid := account.paid + value } :
          Account Amount).due rate := by
  unfold dueAt Pot.draw
  dsimp only
  rw [Holds.total_due (.inl found)]
  ring

include found in
omit [IsStrictOrderedRing Amount] in
theorem excessAt_draw (rate : Amount) :
    (pot.draw name account drawn value).excessAt unit rate =
      pot.excessAt unit rate - account.excess rate +
        ({ account with drawn := drawn, paid := account.paid + value } :
          Account Amount).excess rate := by
  unfold excessAt Pot.draw
  dsimp only
  rw [Holds.total_excess (.inl found)]
  ring

include found draws tolerant

theorem spends_draw : Spends pot (pot.draw name account drawn value) unit tolerance := by
  have valueLe := draws.value_le
  refine ⟨?_, ?_, ?_⟩
  · have kept := le_max_left (pot.shares * max (unit - pot.rate) 0 - pot.kept) 0
    rw [shares_draw found]
    change pot.shares * max (unit - pot.rate) 0 - pot.kept ≤ _
    linarith
  · have due := draws.due_add_le tolerant
    rw [dueAt_draw found, rate_draw]
    change _ - (pot.gained - value) ≤ _
    linarith
  · have excess := draws.excess_le tolerant
    rw [excessAt_draw found, rate_draw]
    linarith

theorem Covers.draw (sound : pot.Sound unit) (covers : pot.Covers unit budget account) :
    (pot.draw name account drawn value).Covers unit (budget + tolerance)
      { account with drawn := drawn, paid := account.paid + value } := by
  have due := draws.due_add_le tolerant
  have dueNonneg := Account.due_nonneg
    ({ account with drawn := drawn, paid := account.paid + value } : Account Amount) pot.rate
  have part := sound.due_le_dueAt found pot.rate
  have valueLe := draws.value_le
  have valueNear := draws.value_near
  have unpaidGe := covers.unpaid_ge
  have unpaidLe := covers.unpaid_le
  have dueUnpaid := covers.due_unpaid
  have unpaid : ({ account with drawn := drawn, paid := account.paid + value } :
      Account Amount).unpaid = account.unpaid + (drawn - account.drawn) - value := by
    unfold Account.unpaid
    ring
  refine ⟨?_, ?_, ?_⟩
  · rw [unpaid]
    linarith
  · rw [unpaid]
    rcases min_cases (drawn - account.drawn - tolerance / 2) pot.gained
      with ⟨isMin, _⟩ | ⟨isMin, _⟩ <;>
      linarith
  · rw [unpaid, dueAt_draw found, rate_draw]
    change _ ≤ pot.gained - value + _
    linarith

theorem Balanced.draw (sound : pot.Sound unit) (balanced : pot.Balanced unit budget)
    (nonneg : 0 ≤ budget) :
    (pot.draw name account drawn value).Balanced unit (budget + tolerance) := by
  have spends := spends_draw found draws tolerant
  refine balanced.spends spends nonneg ?_
  intro other stored present
  unfold Pot.draw at present
  dsimp only at present
  rcases SortedStore.of_get?_set present with ⟨_, rfl⟩ | ⟨_, present⟩
  · exact (balanced.covers name account found).draw found draws tolerant sound
  · exact (balanced.covers other stored present).spends spends tolerant

end Draw

section Settle

variable [IsStrictOrderedRing Amount] {pot unit} {budget tolerance value : Amount}
  {name : Name} {account : Account Amount} (sound : pot.Sound unit)
  (found : pot.accounts.get? name = some account)
  (draws : pot.Draws unit tolerance account (unit * account.share) value)
  (tolerant : 0 ≤ tolerance)

include found in
omit [LinearOrder Amount] [IsStrictOrderedRing Amount] in
theorem shares_settle : (pot.settle name account value).shares = pot.shares := by
  unfold shares Pot.settle
  dsimp only
  rw [SortedStore.total_delete, found]
  change _ - account.share + _ = _
  ring

include sound found in
theorem dueAt_settle (rate : Amount) :
    (pot.settle name account value).dueAt unit rate =
      (pot.draw name account (unit * account.share) value).dueAt unit rate := by
  have share := sound.share_nonneg found
  have due : ({ account with drawn := unit * account.share, paid := account.paid + value } :
      Account Amount).due rate = account.share * max (rate - unit) 0 := by
    unfold Account.due
    rw [mul_max_of_nonneg _ _ share, mul_zero]
    ring_nf
  rw [dueAt_draw found, due]
  unfold dueAt Pot.settle
  dsimp only
  rw [SortedStore.total_delete, found]
  change _ - account.due rate + _ = _
  ring

include sound found in
theorem excessAt_settle (rate : Amount) :
    (pot.settle name account value).excessAt unit rate =
      (pot.draw name account (unit * account.share) value).excessAt unit rate := by
  have share := sound.share_nonneg found
  have excess : ({ account with drawn := unit * account.share, paid := account.paid + value } :
      Account Amount).excess rate = account.share * max (unit - rate) 0 := by
    unfold Account.excess
    rw [mul_max_of_nonneg _ _ share, mul_zero]
    ring_nf
  rw [excessAt_draw found, excess]
  unfold excessAt Pot.settle
  dsimp only
  rw [SortedStore.total_delete, found]
  change _ - account.excess rate + _ = _
  ring

omit [Field Amount] [LinearOrder Amount] [IsStrictOrderedRing Amount] in
theorem get?_of_delete {other : Name} {stored : Account Amount}
    (present : (pot.accounts.delete name).get? other = some stored) :
    pot.accounts.get? other = some stored := by
  exact SortedStore.of_get?_delete present

include sound found draws

theorem Sound.settle : (pot.settle name account value).Sound unit where
  kept_nonneg := sound.kept_nonneg
  gained_nonneg := sub_nonneg.mpr draws.value_le_gained
  filled_nonneg := sound.filled_nonneg
  settled_nonneg := add_nonneg sound.settled_nonneg (sound.share_nonneg found)
  share_pos other stored present := sound.share_pos other stored (get?_of_delete present)
  drawn_le other stored present := sound.drawn_le other stored (get?_of_delete present)
  shares_le := by
    rw [shares_settle found]
    exact sound.shares_le

theorem Balanced.settle (balanced : pot.Balanced unit budget) (nonneg : 0 ≤ budget)
    (tolerant : 0 ≤ tolerance) :
    (pot.settle name account value).Balanced unit (budget + tolerance) := by
  have drawing := spends_draw found draws tolerant
  have spends : Spends pot (pot.settle name account value) unit tolerance := by
    refine ⟨?_, ?_, ?_⟩
    · have rest := drawing.rest
      rw [shares_draw found] at rest
      rw [shares_settle found]
      exact rest
    · rw [dueAt_settle sound found]
      exact drawing.due
    · rw [excessAt_settle sound found]
      exact drawing.excess
  refine balanced.spends spends nonneg ?_
  intro other stored present
  exact (balanced.covers other stored (get?_of_delete present)).spends spends tolerant

end Settle

section Leave

variable [IsStrictOrderedRing Amount] {pot unit}
  {budget tolerance drawn value out filled total : Amount} {name : Name}
  {account : Account Amount} (sound : pot.Sound unit)
  (found : pot.accounts.get? name = some account)
  (draws : pot.Draws unit tolerance account drawn value)
  (returns : pot.Returns unit tolerance account out) (tolerant : 0 ≤ tolerance)

include found in
omit [LinearOrder Amount] [IsStrictOrderedRing Amount] in
theorem shares_leave :
    (pot.leave name out value filled total).shares = pot.shares - account.share := by
  unfold shares Pot.leave
  dsimp only
  rw [SortedStore.total_delete, found]
  change _ - account.share + _ = _
  ring

include found in
omit [IsStrictOrderedRing Amount] in
theorem dueAt_leave (rate : Amount) :
    (pot.leave name out value filled total).dueAt unit rate =
      pot.dueAt unit rate - account.due rate := by
  unfold dueAt Pot.leave
  dsimp only
  rw [SortedStore.total_delete, found]
  change _ - account.due rate + _ = _
  ring

include found in
omit [IsStrictOrderedRing Amount] in
theorem excessAt_leave (rate : Amount) :
    (pot.leave name out value filled total).excessAt unit rate =
      pot.excessAt unit rate - account.excess rate := by
  unfold excessAt Pot.leave
  dsimp only
  rw [SortedStore.total_delete, found]
  change _ - account.excess rate + _ = _
  ring

include sound found draws returns

theorem Sound.leave (filledNonneg : 0 ≤ filled)
    (sharesLe : pot.shares - account.share ≤ total) :
    (pot.leave name out value filled total).Sound unit where
  kept_nonneg := sub_nonneg.mpr returns.le_kept
  gained_nonneg := sub_nonneg.mpr draws.value_le_gained
  filled_nonneg := filledNonneg
  settled_nonneg := sound.settled_nonneg
  share_pos other stored present := sound.share_pos other stored (get?_of_delete present)
  drawn_le other stored present := sound.drawn_le other stored (get?_of_delete present)
  shares_le := by
    rw [shares_leave found]
    exact sharesLe

include tolerant

theorem Sound.spends_leave (left : (pot.leave name out value filled total).Sound unit)
    (falls : max (pot.rate - (pot.leave name out value filled total).rate) 0 *
        (pot.shares - account.share) ≤ account.excess pot.rate + 3 / 2 * tolerance)
    (fallsLittle : max (pot.rate - (pot.leave name out value filled total).rate) 0 *
        (pot.shares - account.share) ≤ 11 / 2 * tolerance)
    (rises : max ((pot.leave name out value filled total).rate - pot.rate) 0 *
        (pot.shares - account.share) ≤
      max (pot.rate * account.share - account.drawn - value + tolerance / 2) 0) :
    Spends pot (pot.leave name out value filled total) unit tolerance := by
  have shares : (pot.leave name out value filled total).shares = _ := shares_leave found
  have due : (pot.leave name out value filled total).dueAt unit pot.rate = _ :=
    dueAt_leave found pot.rate
  have excess : (pot.leave name out value filled total).excessAt unit pot.rate = _ :=
    excessAt_leave found pot.rate
  generalize isNext : (pot.leave name out value filled total).rate = next at *
  refine ⟨?_, ?_, ?_⟩
  · have others : 0 ≤ pot.shares - account.share :=
      sub_nonneg.mpr (sound.share_le_shares found)
    have split : max (unit - next) 0 ≤ max (unit - pot.rate) 0 + max (pot.rate - next) 0 :=
      max_le (by linarith [le_max_left (unit - pot.rate) 0, le_max_left (pot.rate - next) 0])
        (add_nonneg (le_max_right _ _) (le_max_right _ _))
    have rest := mul_le_mul_of_nonneg_left split others
    have kept := le_max_left (pot.shares * max (unit - pot.rate) 0 - pot.kept) 0
    have outLe := returns.le
    rw [isNext, shares]
    change _ - (pot.kept - out) ≤ _
    linarith
  · have shift := left.dueAt_le_add pot.rate next
    have owed := account.le_due pot.rate
    have valueLe := draws.value_le_due tolerant
    rw [due, shares] at shift
    rw [isNext]
    change _ - (pot.gained - value) ≤ _
    rcases max_cases (pot.rate * account.share - account.drawn - value + tolerance / 2) 0
      with ⟨isMax, _⟩ | ⟨isMax, _⟩ <;>
      linarith
  · have shift := left.excessAt_le_add pot.rate next
    rw [excess, shares] at shift
    rw [isNext]
    linarith

omit sound found draws returns in
theorem Balanced.leave (balanced : pot.Balanced unit budget) (nonneg : 0 ≤ budget)
    (spends : Spends pot (pot.leave name out value filled total) unit tolerance) :
    (pot.leave name out value filled total).Balanced unit (budget + tolerance) := by
  refine balanced.spends spends nonneg ?_
  intro other stored present
  exact (balanced.covers other stored (get?_of_delete present)).spends spends tolerant

theorem Sound.spends_depart :
    Spends pot (pot.leave name out value pot.filled pot.total) unit tolerance := by
  have sharesLe : pot.shares - account.share ≤ pot.total := by
    have share := sound.share_nonneg found
    have before := sound.shares_le
    linarith
  have left := sound.leave found draws returns sound.filled_nonneg sharesLe
  have same : (pot.leave name out value pot.filled pot.total).rate = pot.rate := rfl
  have excess := account.excess_nonneg pot.rate
  refine sound.spends_leave found draws returns tolerant left ?_ ?_ ?_
  all_goals
    rw [same, sub_self, max_self, zero_mul]
  · linarith
  · linarith
  · exact le_max_right _ _

theorem Sound.spends_cancel (filledNonneg : 0 ≤ filled)
    (filledGe : pot.filled - (account.drawn + value) - tolerance / 2 ≤ filled)
    (filledLe : filled ≤ pot.filled - (account.drawn + value) + tolerance / 2)
    (little : account.drawn - pot.rate * account.share ≤ 4 * tolerance) :
    Spends pot (pot.leave name out value filled (pot.total - account.share)) unit
      tolerance := by
  have share := sound.share_pos name account found
  have sharesLe : pot.shares - account.share ≤ pot.total - account.share :=
    sub_le_sub_right sound.shares_le _
  have left := sound.leave found draws returns filledNonneg sharesLe
  have others : 0 ≤ pot.shares - account.share :=
    sub_nonneg.mpr (sound.share_le_shares found)
  have positive : 0 < pot.total :=
    lt_of_lt_of_le share (le_trans (sound.share_le_shares found) sound.shares_le)
  have whole : pot.rate * pot.total = pot.filled := div_mul_cancel₀ _ positive.ne'
  have fall := max_sub_div_mul_le others sharesLe filled pot.rate
  have rise := max_div_sub_mul_le others sharesLe filled pot.rate
  have isRate : (pot.leave name out value filled (pot.total - account.share)).rate =
      filled / (pot.total - account.share) := rfl
  rw [← isRate, mul_sub pot.rate, whole] at fall rise
  have excess := account.le_excess pot.rate
  have excessNonneg := account.excess_nonneg pot.rate
  have valueLe := draws.value_le
  have drawnLe := draws.drawn_le
  -- what the fill loses beyond the part of the account
  have lost : pot.filled - pot.rate * account.share - filled ≤
      max (account.drawn - pot.rate * account.share) (tolerance / 2) + tolerance := by
    rcases max_cases account.drawn (pot.rate * account.share + tolerance / 2)
      with ⟨isMax, _⟩ | ⟨isMax, _⟩
    · have most := le_max_left (account.drawn - pot.rate * account.share) (tolerance / 2)
      linarith
    · have most := le_max_right (account.drawn - pot.rate * account.share) (tolerance / 2)
      linarith
  refine sound.spends_leave found draws returns tolerant left ?_ ?_ ?_
  · refine le_trans fall (max_le (le_trans lost ?_) (by linarith))
    have most : max (account.drawn - pot.rate * account.share) (tolerance / 2) ≤
        account.excess pot.rate + tolerance / 2 := max_le (by linarith) (by linarith)
    linarith
  · refine le_trans fall (max_le (le_trans lost ?_) (by linarith))
    have most : max (account.drawn - pot.rate * account.share) (tolerance / 2) ≤
        4 * tolerance := max_le little (by linarith)
    linarith
  · exact le_trans rise (max_le_max (by linarith) le_rfl)

theorem Balanced.paid_near (balanced : pot.Balanced unit budget) (nonneg : 0 ≤ budget) :
    |out + (account.paid + value) - unit * account.share| ≤ 10 * (budget + tolerance) := by
  have covers := balanced.covers name account found
  have unpaidGe := covers.unpaid_ge
  have unpaidLe := covers.unpaid_le
  have dueUnpaid := covers.due_unpaid
  unfold Account.unpaid at unpaidGe unpaidLe dueUnpaid
  have valueLe := draws.value_le
  have valueNear := draws.value_near
  have drawnNear := draws.drawn_near
  have drawnLe := draws.drawn_le
  have drawnUnit := draws.drawn_le_unit
  have due := le_trans (account.le_due pot.rate) (sound.due_le_dueAt found pot.rate)
  have excess := le_trans (le_trans (account.le_excess pot.rate)
    (sound.excess_le_excessAt found pot.rate)) balanced.excess
  have outLe := returns.le
  have outNear := returns.near
  have rest : account.share * max (unit - pot.rate) 0 ≤ pot.kept + 6 * budget :=
    le_trans (mul_le_mul_of_nonneg_right (sound.share_le_shares found) (le_max_right _ _))
      balanced.rest
  have share := sound.share_nonneg found
  have outLower : account.share * max (unit - pot.rate) 0 - 6 * budget - tolerance ≤ out := by
    rcases min_cases (account.share * max (unit - pot.rate) 0 - tolerance) pot.kept
      with ⟨isMin, _⟩ | ⟨isMin, _⟩ <;>
      linarith
  have paidLower : min (unit * account.share) (pot.rate * account.share) -
      4 * budget - 3 / 2 * tolerance ≤ account.paid + value := by
    rcases min_cases (drawn - account.drawn - tolerance / 2) pot.gained
      with ⟨isMin, _⟩ | ⟨isMin, _⟩
    · linarith
    · have part := min_le_right (unit * account.share) (pot.rate * account.share)
      linarith
  have paidUpper : account.paid + value ≤ drawn + budget + tolerance / 2 := by linarith
  rw [abs_le]
  -- the rest of the shares and the part that was filled make up the whole
  rcases le_total pot.rate unit with below | above
  · have part := mul_le_mul_of_nonneg_right below share
    rw [max_eq_left (sub_nonneg.mpr below), mul_sub] at outLe outLower
    rw [min_eq_right part] at paidLower
    constructor
    · linarith
    · rcases max_cases account.drawn (pot.rate * account.share + tolerance / 2)
        with ⟨isMax, _⟩ | ⟨isMax, _⟩ <;>
        linarith
  · have part := mul_le_mul_of_nonneg_right above share
    rw [max_eq_right (sub_nonpos.mpr above), mul_zero] at outLe outLower
    rw [min_eq_left part] at paidLower
    constructor <;> linarith

end Leave

end Pot

end Library.Prorata
