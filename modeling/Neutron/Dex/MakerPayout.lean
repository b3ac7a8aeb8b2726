import Neutron.Dex.TrancheAmounts
import Neutron.Dex.OrderMessages

namespace Neutron.Dex

open Library PrecDec

/-- A tranche is found as it was stored last, and as active only if it is said to be. -/
structure OrderBook.Shelves (book : OrderBook) (tranche : LimitOrderTranche) (active : Bool) :
    Prop where
  found : ∀ other wasFilled, book.findLimitOrderTranche tranche.key = some (other, wasFilled) →
    other = tranche ∧ (wasFilled = false → active = true)
  alone : ∀ other, book.getLimitOrderTranche tranche.key = some other →
    book.getInactiveLimitOrderTranche tranche.key = none

namespace OrderBook

variable {book : OrderBook} {tranche : LimitOrderTranche}

theorem findLimitOrderTranche_active {key : LimitOrderTrancheKey}
    (found : book.getLimitOrderTranche key = some tranche) :
    book.findLimitOrderTranche key = some (tranche, false) := by
  unfold findLimitOrderTranche
  rw [found]

theorem shelves_updateTranche
    (notInactive : book.getInactiveLimitOrderTranche tranche.key = none) :
    (book.writeAll (updateTranche tranche)).Shelves tranche true := by
  constructor
  · intro other wasFilled found
    refine ⟨?_, fun _ => rfl⟩
    rcases findLimitOrderTranche_eq_some found with ⟨_, active⟩ | ⟨_, inactive, _⟩
    · rw [getLimitOrderTranche_updateTranche, if_pos rfl] at active
      split at active
      · exact (Option.some.inj active).symm
      · cases active
    · rw [getInactiveLimitOrderTranche_updateTranche, notInactive] at inactive
      split at inactive
      · exact (Option.some.inj inactive).symm
      · cases inactive
  · intro other active
    rw [getLimitOrderTranche_updateTranche, if_pos rfl] at active
    rw [getInactiveLimitOrderTranche_updateTranche, notInactive, if_neg]
    intro left
    rw [if_neg left.2.1] at active
    cases active

theorem shelves_updateInactiveTranche
    (notActive : book.getLimitOrderTranche tranche.key = none) :
    (book.writeAll (updateInactiveTranche tranche)).Shelves tranche false := by
  have still : (book.writeAll (updateInactiveTranche tranche)).getLimitOrderTranche
      tranche.key = none := by
    unfold getLimitOrderTranche
    rw [tickLiquidity_updateInactiveTranche]
    exact notActive
  constructor
  · intro other wasFilled found
    rcases findLimitOrderTranche_eq_some found with ⟨_, active⟩ | ⟨isFilled, inactive, _⟩
    · rw [still] at active
      cases active
    · rw [getInactiveLimitOrderTranche_updateInactiveTranche, if_pos rfl] at inactive
      split at inactive
      · refine ⟨(Option.some.inj inactive).symm, fun notFilled => ?_⟩
        rw [isFilled] at notFilled
        cases notFilled
      · cases inactive
  · intro other active
    rw [still] at active
    cases active

theorem shelves_archiveTranche :
    (book.writeAll (archiveTranche tranche)).Shelves tranche false := by
  have gone := book.getLimitOrderTranche_archiveTranche tranche tranche.key
  rw [if_pos rfl] at gone
  constructor
  · intro other wasFilled found
    rcases findLimitOrderTranche_eq_some found with ⟨_, active⟩ | ⟨isFilled, inactive, _⟩
    · rw [gone] at active
      cases active
    · rw [getInactiveLimitOrderTranche_archiveTranche, if_pos rfl] at inactive
      refine ⟨(Option.some.inj inactive).symm, fun notFilled => ?_⟩
      rw [isFilled] at notFilled
      cases notFilled
  · intro other active
    rw [gone] at active
    cases active

end OrderBook

/-- A maker was paid the worth of its shares, up to a slack for every operation on a
tranche of a price and a largest size. -/
def Maker.PaidWithin (maker : Maker) (makerPrice : PrecDec) (operations : Nat)
    (largestTotal : Int) : Prop :=
  |maker.makerPaid.value + maker.takerPaid.value / makerPrice.value -
      maker.user.sharesOwned| ≤
    10 * operations * (1 / 10 ^ 27) * (1 + 1 / makerPrice.value + largestTotal)

instance (maker : Maker) (makerPrice : PrecDec) (operations : Nat) (largestTotal : Int) :
    Decidable (maker.PaidWithin makerPrice operations largestTotal) :=
  inferInstanceAs (Decidable (_ ≤ _))

def LimitOrderTranche.Unfilled (tranche : LimitOrderTranche) : Prop :=
  tranche.decTotalTakerDenom.i * takerWorth tranche.makerPrice ≤
    4 * slack tranche.makerPrice tranche.totalMakerDenom

/-- The shares that a user has withdrawn exceed its part of what was filled by no more
than dust. -/
def LimitOrderTrancheUser.WithinPart (user : LimitOrderTrancheUser)
    (tranche : LimitOrderTranche) : Prop :=
  user.decSharesWithdrawn.i -
      tranche.decTotalTakerDenom.i * takerWorth tranche.makerPrice /
        tranche.totalMakerDenom * user.sharesOwned ≤
    4 * slack tranche.makerPrice tranche.totalMakerDenom

instance (tranche : LimitOrderTranche) : Decidable tranche.Unfilled :=
  inferInstanceAs (Decidable (_ ≤ _))

instance (user : LimitOrderTrancheUser) (tranche : LimitOrderTranche) :
    Decidable (user.WithinPart tranche) :=
  inferInstanceAs (Decidable (_ ≤ _))

theorem paidWithin_iff {maker : Maker} {makerPrice : PrecDec} {operations : Nat}
    {largestTotal : Int} (positive : 0 < makerPrice.i) :
    maker.PaidWithin makerPrice operations largestTotal ↔
      |maker.makerPaid.i + maker.takerPaid.i * takerWorth makerPrice -
          precisionReuse * maker.user.sharesOwned| ≤
        10 * (operations * slack makerPrice largestTotal) := by
  have unitPos := precisionReuse_cast_pos
  have pricePos : (0 : ℚ) < makerPrice.i := by exact_mod_cast positive
  have unit : (10 ^ 27 : ℚ) = precisionReuse := by
    unfold precisionReuse
    norm_num
  have scaled : maker.makerPaid.value + maker.takerPaid.value / makerPrice.value -
      maker.user.sharesOwned =
      (maker.makerPaid.i + maker.takerPaid.i * takerWorth makerPrice -
        precisionReuse * maker.user.sharesOwned) / precisionReuse := by
    unfold PrecDec.value takerWorth
    field_simp
  have bound : 10 * operations * (1 / 10 ^ 27) * (1 + 1 / makerPrice.value + largestTotal) =
      10 * (operations * slack makerPrice largestTotal) / precisionReuse := by
    unfold PrecDec.value slack takerWorth
    rw [unit]
    field_simp
  unfold Maker.PaidWithin
  rw [scaled, bound, abs_div, abs_of_pos unitPos, div_le_div_iff_of_pos_right unitPos]

theorem LimitOrderTranche.pot_account {tranche : LimitOrderTranche}
    {makers : SortedStore String Maker} {settled : ℚ} {address : String} {maker : Maker}
    (found : makers.get? address = some maker) :
    (tranche.pot makers settled).accounts.get? address =
      some (maker.account tranche.makerPrice) := by
  unfold pot
  dsimp only
  rw [SortedStore.get?_mapValues, found]
  rfl

/-! The pot of a new tranche is empty. -/

theorem LimitOrderTranche.pot_new_shares (key : LimitOrderTrancheKey)
    (goodTil : Option Time) :
    ((LimitOrderTranche.new key goodTil).pot SortedStore.empty 0).shares =
      (LimitOrderTranche.new key goodTil).totalMakerDenom := by
  unfold Prorata.Pot.shares pot
  dsimp only
  rw [add_zero]
  rfl

theorem LimitOrderTranche.pot_new_sound (key : LimitOrderTrancheKey)
    (goodTil : Option Time) :
    ((LimitOrderTranche.new key goodTil).pot SortedStore.empty 0).Sound precisionReuse where
  kept_nonneg := le_rfl
  gained_nonneg := by simp [pot, LimitOrderTranche.new]
  filled_nonneg := by simp [pot, LimitOrderTranche.new]
  settled_nonneg := le_rfl
  share_pos := fun _ _ impossible => nomatch impossible
  drawn_le := fun _ _ impossible => nomatch impossible
  shares_le := (pot_new_shares key goodTil).le

theorem LimitOrderTranche.pot_new_balanced (key : LimitOrderTrancheKey)
    (goodTil : Option Time) :
    ((LimitOrderTranche.new key goodTil).pot SortedStore.empty 0).Balanced precisionReuse
      0 where
  rest := by
    rw [pot_new_shares]
    simp [pot, LimitOrderTranche.new]
  due := by
    unfold Prorata.Pot.dueAt
    simp [pot, LimitOrderTranche.new, SortedStore.mapValues, SortedStore.total,
      SortedStore.empty, Entries.total]
  excess := by
    unfold Prorata.Pot.excessAt
    simp [pot, SortedStore.mapValues, SortedStore.total, SortedStore.empty, Entries.total]
  covers := fun _ _ impossible => nomatch impossible

namespace TrancheLife

variable {life : TrancheLife}

def makerPrice (life : TrancheLife) : PrecDec := tickPrice life.key.tickIndexTakerToMaker

def budget (life : TrancheLife) : ℚ :=
  life.operations * slack life.makerPrice life.largestTotal

def spent (life : TrancheLife) (next : LimitOrderTranche) : ℚ :=
  slack life.makerPrice (max life.largestTotal next.totalMakerDenom)

/-- Orders join only a tranche that is not filled, and makers cancel only while what they
have withdrawn is their part. -/
def Permits (life : TrancheLife) : TrancheOperation → Prop
  | .join _ _ _ _ => ∀ tranche ∈ life.findActive, tranche.Unfilled
  | .cancel address => ∀ maker ∈ life.makers.get? address, ∀ found ∈ life.find,
      maker.user.WithinPart found.1
  | .swap _ | .withdraw _ | .expire => True

instance (life : TrancheLife) : DecidablePred life.Permits
  | .join _ _ _ _ =>
      inferInstanceAs (Decidable (∀ tranche ∈ life.findActive, tranche.Unfilled))
  | .cancel address => inferInstanceAs (Decidable (∀ maker ∈ life.makers.get? address,
      ∀ found ∈ life.find, maker.user.WithinPart found.1))
  | .swap _ | .withdraw _ | .expire => inferInstanceAs (Decidable True)

structure Tracks (life : TrancheLife) (tranche : LimitOrderTranche) (active : Bool)
    (settled : ℚ) : Prop where
  key : tranche.key = life.key
  sound : tranche.Sound
  total_le : tranche.totalMakerDenom ≤ life.largestTotal
  drawn_nonneg : ∀ address maker, life.makers.get? address = some maker →
    0 ≤ maker.user.decSharesWithdrawn.i
  unreturned : ∀ address maker, life.makers.get? address = some maker →
    maker.makerPaid = zeroPrecDec
  pot : (tranche.pot life.makers settled).Sound precisionReuse
  whole : active = true → (tranche.pot life.makers settled).shares = tranche.totalMakerDenom
  balanced : (tranche.pot life.makers settled).Balanced precisionReuse life.budget

structure Fair (life : TrancheLife) : Prop where
  largest_nonneg : 0 ≤ life.largestTotal
  inRange : ¬ IsTickOutOfRange life.key.tickIndexTakerToMaker
  exits : ∀ maker ∈ life.exits,
    maker.PaidWithin life.makerPrice life.operations life.largestTotal
  alone : ∀ tranche, life.findActive = some tranche →
    life.book.getInactiveLimitOrderTranche life.key = none
  tracks : ∀ tranche wasFilled, life.find = some (tranche, wasFilled) →
    ∃ settled, life.Tracks tranche (!wasFilled) settled

namespace Fair

variable (fair : life.Fair)

include fair

theorem price_pos : 0 < life.makerPrice.i := tickPrice_pos fair.inRange

theorem budget_nonneg : 0 ≤ life.budget := by
  have worth := takerWorth_pos fair.price_pos
  have total : (0 : ℚ) ≤ life.largestTotal := by exact_mod_cast fair.largest_nonneg
  unfold budget slack
  positivity

theorem spent_nonneg (next : LimitOrderTranche) : 0 ≤ life.spent next := by
  have worth := takerWorth_pos fair.price_pos
  have total : (0 : ℚ) ≤ (max life.largestTotal next.totalMakerDenom : ℤ) := by
    exact_mod_cast le_trans fair.largest_nonneg (le_max_left _ _)
  unfold spent slack
  linarith

omit fair in
theorem budget_advance (next : LimitOrderTranche) (writes : List BookWrite)
    (makers : SortedStore String Maker) (exits : List Maker) :
    life.budget + life.spent next ≤ (life.advance next writes makers exits).budget := by
  have grows : slack life.makerPrice life.largestTotal ≤ life.spent next := by
    have larger : (life.largestTotal : ℚ) ≤
        (max life.largestTotal next.totalMakerDenom : ℤ) := by
      exact_mod_cast le_max_left _ _
    unfold spent slack
    linarith
  have all := mul_le_mul_of_nonneg_left grows (Nat.cast_nonneg life.operations)
  have isBudget : (life.advance next writes makers exits).budget =
      (life.operations + 1) * life.spent next := by
    unfold budget advance
    push_cast
    rfl
  rw [isBudget]
  unfold budget
  linarith

theorem advance {next : LimitOrderTranche} {writes : List BookWrite}
    {makers : SortedStore String Maker} {exits : List Maker} {active : Bool} {settled : ℚ}
    (isKey : next.key = life.key) (sound : next.Sound)
    (shelves : (life.book.writeAll writes).Shelves next active)
    (drawnNonneg : ∀ address maker, makers.get? address = some maker →
      0 ≤ maker.user.decSharesWithdrawn.i)
    (unreturned : ∀ address maker, makers.get? address = some maker →
      maker.makerPaid = zeroPrecDec)
    (pot : (next.pot makers settled).Sound precisionReuse)
    (whole : active = true → (next.pot makers settled).shares = next.totalMakerDenom)
    (balanced : (next.pot makers settled).Balanced precisionReuse
      (life.budget + life.spent next))
    (leaves : ∀ maker ∈ exits, maker ∈ life.exits ∨
      |maker.makerPaid.i + maker.takerPaid.i * takerWorth life.makerPrice -
          precisionReuse * maker.user.sharesOwned| ≤
        10 * (life.budget + life.spent next)) :
    (life.advance next writes makers exits).Fair := by
  have spent := @budget_advance life next writes makers exits
  have spentNonneg := fair.spent_nonneg next
  refine {
    largest_nonneg := le_trans fair.largest_nonneg (le_max_left _ _)
    inRange := fair.inRange
    exits := ?_
    alone := ?_
    tracks := ?_ }
  · intro maker left
    refine (paidWithin_iff fair.price_pos).mpr ?_
    refine le_trans ?_ (mul_le_mul_of_nonneg_left spent (by norm_num))
    rcases leaves maker left with earlier | now
    · have before := (paidWithin_iff fair.price_pos).mp (fair.exits maker earlier)
      change _ ≤ 10 * life.budget at before
      linarith
    · exact now
  · intro tranche found
    change (life.book.writeAll writes).getLimitOrderTranche life.key = _ at found
    change (life.book.writeAll writes).getInactiveLimitOrderTranche life.key = _
    rw [← isKey] at found ⊢
    exact shelves.alone tranche found
  · intro tranche wasFilled found
    change (life.book.writeAll writes).findLimitOrderTranche life.key = _ at found
    rw [← isKey] at found
    obtain ⟨rfl, isActive⟩ := shelves.found tranche wasFilled found
    exact ⟨settled, {
      key := isKey
      sound := sound
      total_le := le_max_right _ _
      drawn_nonneg := drawnNonneg
      unreturned := unreturned
      pot := pot
      whole := fun notFilled => whole (isActive (by simpa using notFilled))
      balanced := balanced.mono spent }⟩

theorem tracks_active {tranche : LimitOrderTranche}
    (found : life.findActive = some tranche) :
    ∃ settled, life.Tracks tranche true settled :=
  fair.tracks tranche false (OrderBook.findLimitOrderTranche_active found)

end Fair

namespace Tracks

variable {tranche : LimitOrderTranche} {active : Bool} {settled : ℚ}
  (tracks : life.Tracks tranche active settled)

include tracks

theorem price : tranche.makerPrice = life.makerPrice := by
  rw [tracks.sound.price, tracks.key]
  rfl

theorem slack_le (next : LimitOrderTranche) :
    slack tranche.makerPrice tranche.totalMakerDenom ≤ life.spent next := by
  have larger : (tranche.totalMakerDenom : ℚ) ≤
      (max life.largestTotal next.totalMakerDenom : ℤ) := by
    exact_mod_cast le_trans tracks.total_le (le_max_left _ _)
  unfold spent slack
  rw [tracks.price]
  linarith

theorem total_nonneg : 0 ≤ tranche.totalMakerDenom := by
  have total := tracks.pot.total_nonneg
  change (0 : ℚ) ≤ tranche.totalMakerDenom at total
  exact_mod_cast total

variable {address : String} {maker : Maker}
  (found : life.makers.get? address = some maker)

include found

theorem shares_pos : 0 < maker.user.sharesOwned := by
  have share := tracks.pot.share_pos _ _ (LimitOrderTranche.pot_account found)
  exact Int.cast_pos.mp share

theorem shares_le : maker.user.sharesOwned ≤ tranche.totalMakerDenom := by
  have share := le_trans (tracks.pot.share_le_shares (LimitOrderTranche.pot_account found))
    tracks.pot.shares_le
  exact Int.cast_le.mp share

theorem drawn_le :
    maker.user.decSharesWithdrawn.i ≤ precisionReuse * maker.user.sharesOwned := by
  have drawn := tracks.pot.drawn_le _ _ (LimitOrderTranche.pot_account found)
  change (maker.user.decSharesWithdrawn.i : ℚ) ≤
    precisionReuse * maker.user.sharesOwned at drawn
  exact_mod_cast drawn

theorem draws (next : LimitOrderTranche) {shares takerOut : PrecDec}
    (ok : tranche.calcWithdrawAmount maker.user = .ok (shares, takerOut)) :
    (tranche.pot life.makers settled).Draws precisionReuse (life.spent next)
      (maker.account tranche.makerPrice)
      (maker.user.decSharesWithdrawn.i + shares.i)
      (takerOut.i * takerWorth tranche.makerPrice) :=
  LimitOrderTranche.calcWithdrawAmount_draws tracks.sound (tracks.shares_pos found)
    (tracks.shares_le found) (tracks.slack_le next) (tracks.drawn_le found) ok

theorem returns (next : LimitOrderTranche) {makerOut : PrecDec}
    (removes : tranche.Removes maker.user makerOut) :
    (tranche.pot life.makers settled).Returns precisionReuse (life.spent next)
      (maker.account tranche.makerPrice) makerOut.i :=
  removes.returns tracks.sound (tracks.shares_pos found) (tracks.shares_le found)
    (tracks.slack_le next)

end Tracks

section Steps

variable {next : TrancheLife} (fair : life.Fair)

include fair

theorem Fair.swap {offer : Offer} (ok : life.swap offer = some next) : next.Fair := by
  obtain ⟨tranche, found, ok⟩ := Option.bind_eq_some_iff.mp ok
  obtain ⟨⟨inAmount, outAmount, swapped⟩, isSwapped, ok⟩ := Option.bind_eq_some_iff.mp ok
  cases ok
  have swap := Outcome.toOption_eq_some_iff.mp isSwapped
  obtain ⟨settled, tracks⟩ := fair.tracks_active found
  have sound := tracks.sound
  have near := LimitOrderTranche.swap_near sound offer.in_nonneg offer.out_nonneg swap
  obtain ⟨trade, rfl⟩ :=
    LimitOrderTranche.swap_eq_traded sound offer.in_nonneg offer.out_nonneg swap
  have worth := takerWorth_pos sound.price_pos
  have isPot : (tranche.traded inAmount outAmount).pot life.makers settled =
      (tranche.pot life.makers settled).fill outAmount.i
        (inAmount.i * takerWorth tranche.makerPrice) := by
    unfold LimitOrderTranche.pot LimitOrderTranche.traded Prorata.Pot.fill
    simp only [sub_i, add_i]
    push_cast
    congr 1 <;> ring
  have outLe : (outAmount.i : ℚ) ≤ (tranche.pot life.makers settled).kept :=
    Int.cast_le.mpr trade.out_le
  have valueNonneg : 0 ≤ inAmount.i * takerWorth tranche.makerPrice :=
    mul_nonneg (Int.cast_nonneg trade.in_nonneg) worth.le
  have outNear : (outAmount.i : ℚ) ≤ inAmount.i * takerWorth tranche.makerPrice +
      life.spent (tranche.traded inAmount outAmount) := by
    have slackLe := tracks.slack_le (tranche.traded inAmount outAmount)
    have total : (0 : ℚ) ≤ tranche.totalMakerDenom := Int.cast_nonneg tracks.total_nonneg
    unfold slack at slackLe
    linarith
  have pot := tracks.pot.fill outLe valueNonneg
  have balanced := tracks.balanced.fill tracks.pot outLe valueNonneg fair.budget_nonneg
    (fair.spent_nonneg _) (tracks.whole rfl) outNear
  rw [← isPot] at pot balanced
  have alone := fair.alone tranche found
  rw [← tracks.key] at alone
  exact fair.advance tracks.key (sound.traded trade.in_nonneg trade.out_le)
    (OrderBook.shelves_updateTranche alone) tracks.drawn_nonneg tracks.unreturned pot
    (fun _ => tracks.whole rfl) balanced (fun _ left => .inl left)

theorem Fair.expire (ok : life.expire = some next) : next.Fair := by
  obtain ⟨tranche, found, ok⟩ := Option.bind_eq_some_iff.mp ok
  cases ok
  obtain ⟨settled, tracks⟩ := fair.tracks_active found
  have more := fair.spent_nonneg tranche
  exact fair.advance tracks.key tracks.sound OrderBook.shelves_archiveTranche
    tracks.drawn_nonneg tracks.unreturned tracks.pot (fun impossible => nomatch impossible)
    (tracks.balanced.mono (by linarith)) (fun _ left => .inl left)

omit fair in
theorem forall_set {property : Maker → Prop} {address : String} {maker : Maker}
    (changed : property maker)
    (all : ∀ other stored, life.makers.get? other = some stored → property stored) :
    ∀ other stored, (life.makers.set address maker).get? other = some stored →
      property stored := by
  intro other stored present
  rw [SortedStore.get?_set] at present
  split at present
  · exact Option.some.inj present ▸ changed
  · exact all other stored present

omit fair in
theorem holds_maker (tranche : LimitOrderTranche) (settled : ℚ) (address : String)
    (orderType : LimitOrderType) :
    (tranche.pot life.makers settled).Holds address
      ((life.maker address orderType).account tranche.makerPrice) := by
  unfold maker
  cases found : life.makers.get? address with
  | none =>
      right
      unfold LimitOrderTranche.pot
      dsimp only
      rw [SortedStore.get?_mapValues, found]
      refine ⟨rfl, ?_⟩
      simp [Maker.account]
  | some maker => exact .inl (LimitOrderTranche.pot_account found)

omit fair in
theorem Tracks.maker {tranche : LimitOrderTranche} {active : Bool} {settled : ℚ}
    (tracks : life.Tracks tranche active settled) (address : String)
    (orderType : LimitOrderType) :
    0 ≤ (life.maker address orderType).user.decSharesWithdrawn.i ∧
      (life.maker address orderType).user.decSharesWithdrawn.i ≤
        precisionReuse * (life.maker address orderType).user.sharesOwned ∧
      (life.maker address orderType).makerPaid = zeroPrecDec := by
  unfold TrancheLife.maker
  cases found : life.makers.get? address with
  | none => exact ⟨le_rfl, le_rfl, rfl⟩
  | some maker =>
      exact ⟨tracks.drawn_nonneg _ _ found, tracks.drawn_le found,
        tracks.unreturned _ _ found⟩

theorem Fair.place {tranche : LimitOrderTranche} {settled : ℚ}
    (tracks : life.Tracks tranche true settled)
    (alone : life.book.getInactiveLimitOrderTranche tranche.key = none)
    (unfilled : tranche.Unfilled) {address : String} {orderType : LimitOrderType}
    {amount : Int} (positive : 0 < amount)
    (ok : life.place tranche address orderType amount = some next) : next.Fair := by
  obtain ⟨placed, isPlaced, ok⟩ := Option.bind_eq_some_iff.mp ok
  cases ok
  obtain rfl := placeMakerLimitOrder_eq_ok (Outcome.toOption_eq_some_iff.mp isPlaced)
  obtain ⟨drawnNonneg, drawnLe, unreturned⟩ := tracks.maker address orderType
  have holds := @holds_maker life tranche settled address orderType
  generalize life.maker address orderType = maker at *
  have amountPos : (0 : ℚ) < amount := Int.cast_pos.mpr positive
  have notEmpty : ¬ ({ maker.user with
      sharesOwned := maker.user.sharesOwned + amount } : LimitOrderTrancheUser).IsEmpty := by
    intro empty
    have withdrawn := congrArg PrecDec.i empty
    have more := Int.mul_pos positive (Int.natCast_pos.mpr precisionReuse_pos)
    simp only [newPrecDecFromInt_i, add_mul] at withdrawn
    linarith
  have isPot : (tranche.placed amount).pot (life.makers.set address { maker with
        user := { maker.user with sharesOwned := maker.user.sharesOwned + amount } }) settled =
      (tranche.pot life.makers settled).join precisionReuse address
        (maker.account tranche.makerPrice) amount := by
    unfold LimitOrderTranche.pot LimitOrderTranche.placed Prorata.Pot.join
    simp only [add_i, newPrecDecFromInt_i, SortedStore.mapValues_set, Maker.account]
    push_cast
    congr 1
    ring
  have little : (tranche.pot life.makers settled).filled ≤
      4 * life.spent (tranche.placed amount) :=
    le_trans unfilled
      (mul_le_mul_of_nonneg_left (tracks.slack_le (tranche.placed amount)) (by norm_num))
  have unitNonneg := precisionReuse_cast_pos.le
  have pot := tracks.pot.join amountPos unitNonneg holds
  have whole : ((tranche.pot life.makers settled).join precisionReuse address
      (maker.account tranche.makerPrice) amount).shares = _ := Prorata.Pot.shares_join holds
  have balanced := tracks.balanced.join tracks.pot amountPos unitNonneg holds
    fair.budget_nonneg (fair.spent_nonneg _) (tracks.whole rfl) little
  rw [← isPot] at pot whole balanced
  have sound : (tranche.placed amount).Sound := {
    maker := by
      have reserves := tracks.sound.maker
      have more := Int.mul_pos positive (Int.natCast_pos.mpr precisionReuse_pos)
      simp only [LimitOrderTranche.placed, add_i, newPrecDecFromInt_i]
      omega
    taker := tracks.sound.taker
    totalTaker := tracks.sound.totalTaker
    price := tracks.sound.price
    inRange := tracks.sound.inRange }
  unfold updateMaker
  rw [if_neg notEmpty]
  refine fair.advance tracks.key sound (OrderBook.shelves_updateTranche alone)
    (forall_set drawnNonneg tracks.drawn_nonneg) (forall_set unreturned tracks.unreturned)
    pot (fun _ => ?_) balanced (fun _ left => .inl left)
  rw [whole, tracks.whole rfl]
  unfold LimitOrderTranche.placed
  push_cast
  rfl

theorem Fair.join {address : String} {orderType : LimitOrderType} {amount : Int}
    (positive : 0 < amount) (unfilled : ∀ tranche ∈ life.findActive, tranche.Unfilled)
    (ok : life.join address orderType amount = some next) : next.Fair := by
  obtain ⟨tranche, found, ok⟩ := Option.bind_eq_some_iff.mp ok
  obtain ⟨settled, tracks⟩ := fair.tracks_active found
  have alone := fair.alone tranche found
  rw [← tracks.key] at alone
  split at ok
  · exact fair.place tracks alone (unfilled tranche found) positive ok
  · cases ok

omit fair in
theorem forall_delete {property : Maker → Prop} {address : String}
    (all : ∀ other stored, life.makers.get? other = some stored → property stored) :
    ∀ other stored, (life.makers.delete address).get? other = some stored →
      property stored := by
  intro other stored present
  exact all other stored (SortedStore.of_get?_delete present)

omit fair in
theorem updateMaker_exited (address : String) (maker : Maker) (makerOut takerOut : PrecDec) :
    life.updateMaker address (paid maker maker.user.exited makerOut takerOut) =
      life.makers.delete address :=
  if_pos rfl

section Exit

variable {tranche : LimitOrderTranche} {active : Bool} {settled : ℚ}
  (tracks : life.Tracks tranche active settled) {address : String} {maker : Maker}
  (found : life.makers.get? address = some maker)

include tracks found

theorem Fair.leaves {after : LimitOrderTranche} {shares takerOut makerOut : PrecDec}
    (user : LimitOrderTrancheUser) (isOwned : user.sharesOwned = maker.user.sharesOwned)
    (withdraw : tranche.calcWithdrawAmount maker.user = .ok (shares, takerOut))
    (remove : tranche.Removes maker.user makerOut) :
    |((paid maker user makerOut takerOut).makerPaid.i : ℚ) +
          (paid maker user makerOut takerOut).takerPaid.i * takerWorth life.makerPrice -
        precisionReuse * (paid maker user makerOut takerOut).user.sharesOwned| ≤
      10 * (life.budget + life.spent after) := by
  have near := tracks.balanced.paid_near tracks.pot (LimitOrderTranche.pot_account found)
    (tracks.draws found after withdraw) (tracks.returns found after remove)
    (fair.spent_nonneg after) fair.budget_nonneg
  have none := tracks.unreturned _ _ found
  rw [tracks.price] at near
  unfold paid
  rw [none, isOwned]
  simp only [add_i, zeroPrecDec_i, zero_add]
  push_cast
  rw [add_mul]
  exact near

end Exit

theorem Fair.withdraw_inactive {tranche withdrawn removed : LimitOrderTranche} {settled : ℚ}
    (tracks : life.Tracks tranche false settled)
    (notActive : life.book.getLimitOrderTranche tranche.key = none)
    {address : String} {maker : Maker} (found : life.makers.get? address = some maker)
    {shares takerOut makerOut : PrecDec}
    (withdraw : tranche.withdraw maker.user = .ok (shares, takerOut, withdrawn))
    (remove : withdrawn.removeTokenIn maker.user = .ok (makerOut, removed)) :
    (life.advance tranche (updateInactiveTranche removed) (life.makers.delete address)
      (paid maker maker.user.exited makerOut takerOut :: life.exits)).Fair := by
  obtain ⟨calculated, taker, rfl⟩ := LimitOrderTranche.withdraw_eq_ok withdraw
  have returned := LimitOrderTranche.removeTokenIn_removes remove
  change tranche.Removes maker.user makerOut at returned
  obtain ⟨kept, rfl⟩ := LimitOrderTranche.removeTokenIn_eq_ok remove
  have account := @LimitOrderTranche.pot_account tranche _ settled _ _ found
  have draws := tracks.draws found (tranche.paidOut makerOut takerOut) calculated
  have returns := tracks.returns found (tranche.paidOut makerOut takerOut) returned
  have isPot : (tranche.paidOut makerOut takerOut).pot (life.makers.delete address) settled =
      (tranche.pot life.makers settled).leave address makerOut.i
        (takerOut.i * takerWorth tranche.makerPrice)
        (tranche.pot life.makers settled).filled
        (tranche.pot life.makers settled).total := by
    unfold LimitOrderTranche.pot LimitOrderTranche.paidOut Prorata.Pot.leave
    simp only [sub_i, SortedStore.mapValues_delete]
    push_cast
    congr 1
    ring
  have sharesLe : (tranche.pot life.makers settled).shares -
      (maker.account tranche.makerPrice).share ≤ (tranche.pot life.makers settled).total := by
    have share := tracks.pot.share_nonneg account
    have before := tracks.pot.shares_le
    linarith
  have pot := tracks.pot.leave account draws returns tracks.pot.filled_nonneg sharesLe
  have balanced := tracks.balanced.leave (fair.spent_nonneg _) fair.budget_nonneg
    (tracks.pot.spends_depart account draws returns (fair.spent_nonneg _))
  rw [← isPot] at pot balanced
  refine @Fair.advance life fair (tranche.paidOut makerOut takerOut) _ _ _ _ _ tracks.key
    (tracks.sound.paidOut kept taker)
    (OrderBook.shelves_updateInactiveTranche notActive) (forall_delete tracks.drawn_nonneg)
    (forall_delete tracks.unreturned) pot (fun impossible => nomatch impossible) balanced ?_
  intro left isLeft
  rcases List.mem_cons.mp isLeft with rfl | earlier
  · exact .inr (fair.leaves tracks found maker.user.exited rfl calculated returned)
  · exact .inl earlier

theorem Fair.withdraw_active {tranche withdrawn : LimitOrderTranche} {settled : ℚ}
    (tracks : life.Tracks tranche true settled)
    (alone : life.book.getInactiveLimitOrderTranche tranche.key = none)
    {address : String} {maker : Maker} (found : life.makers.get? address = some maker)
    {shares takerOut : PrecDec}
    (withdraw : tranche.withdraw maker.user = .ok (shares, takerOut, withdrawn)) :
    (life.advance tranche (updateTranche withdrawn)
      (life.updateMaker address (paid maker { maker.user with
        decSharesWithdrawn := maker.user.decSharesWithdrawn + shares } zeroPrecDec takerOut))
      life.exits).Fair := by
  obtain ⟨calculated, taker, rfl⟩ := LimitOrderTranche.withdraw_eq_ok withdraw
  have account := @LimitOrderTranche.pot_account tranche _ settled _ _ found
  have draws := tracks.draws found tranche calculated
  have sound := tracks.sound.of_withdraw withdraw
  have unreturned := tracks.unreturned _ _ found
  have drawnNonneg : 0 ≤ maker.user.decSharesWithdrawn.i + shares.i := by
    have more := draws.drawn_ge
    have before : (0 : ℚ) ≤ maker.user.decSharesWithdrawn.i :=
      Int.cast_nonneg (tracks.drawn_nonneg _ _ found)
    have after := le_trans before more
    exact_mod_cast after
  have tolerant := fair.spent_nonneg tranche
  have shelves := @OrderBook.shelves_updateTranche life.book
    { tranche with decReservesTakerDenom := tranche.decReservesTakerDenom - takerOut } alone
  unfold updateMaker
  split
  · rename_i empty
    -- all shares are withdrawn, and the record of the maker is deleted
    have all : (maker.user.decSharesWithdrawn.i : ℚ) + shares.i =
        precisionReuse * (maker.account tranche.makerPrice).share := by
      have withdrawn := congrArg PrecDec.i empty
      simp only [paid, add_i, newPrecDecFromInt_i] at withdrawn
      change (maker.user.decSharesWithdrawn.i : ℚ) + shares.i =
        precisionReuse * maker.user.sharesOwned
      rw [mul_comm]
      exact_mod_cast withdrawn
    rw [all] at draws
    have isPot : LimitOrderTranche.pot { tranche with
          decReservesTakerDenom := tranche.decReservesTakerDenom - takerOut }
          (life.makers.delete address) (settled + (maker.account tranche.makerPrice).share) =
        (tranche.pot life.makers settled).settle address (maker.account tranche.makerPrice)
          (takerOut.i * takerWorth tranche.makerPrice) := by
      unfold LimitOrderTranche.pot Prorata.Pot.settle
      simp only [sub_i, SortedStore.mapValues_delete]
      push_cast
      congr 1
      ring
    have pot := tracks.pot.settle account draws
    have whole : ((tranche.pot life.makers settled).settle address
      (maker.account tranche.makerPrice)
      (takerOut.i * takerWorth tranche.makerPrice)).shares = _ :=
        Prorata.Pot.shares_settle account
    have balanced := tracks.balanced.settle tracks.pot account draws fair.budget_nonneg
      tolerant
    rw [← isPot] at pot whole balanced
    exact @Fair.advance life fair { tranche with
        decReservesTakerDenom := tranche.decReservesTakerDenom - takerOut } _ _ _ _ _
      tracks.key sound.1 shelves (forall_delete tracks.drawn_nonneg)
      (forall_delete tracks.unreturned) pot (fun _ => whole.trans (tracks.whole rfl))
      balanced (fun _ left => .inl left)
  · have isPot : LimitOrderTranche.pot { tranche with
          decReservesTakerDenom := tranche.decReservesTakerDenom - takerOut }
          (life.makers.set address (paid maker { maker.user with
            decSharesWithdrawn := maker.user.decSharesWithdrawn + shares } zeroPrecDec
              takerOut)) settled =
        (tranche.pot life.makers settled).draw address (maker.account tranche.makerPrice)
          (maker.user.decSharesWithdrawn.i + shares.i)
          (takerOut.i * takerWorth tranche.makerPrice) := by
      unfold LimitOrderTranche.pot Prorata.Pot.draw paid
      simp only [sub_i, add_i, SortedStore.mapValues_set, Maker.account]
      push_cast
      rw [add_mul, sub_mul]
    have pot := tracks.pot.draw account draws
    have whole : ((tranche.pot life.makers settled).draw address
      (maker.account tranche.makerPrice) (maker.user.decSharesWithdrawn.i + shares.i)
      (takerOut.i * takerWorth tranche.makerPrice)).shares = _ :=
        Prorata.Pot.shares_draw account
    have balanced := tracks.balanced.draw account draws tolerant tracks.pot
      fair.budget_nonneg
    rw [← isPot] at pot whole balanced
    refine @Fair.advance life fair { tranche with
        decReservesTakerDenom := tranche.decReservesTakerDenom - takerOut } _ _ _ _ _
      tracks.key sound.1 shelves ?_ ?_ pot (fun _ => whole.trans (tracks.whole rfl))
      balanced (fun _ left => .inl left)
    · exact forall_set drawnNonneg tracks.drawn_nonneg
    · refine forall_set ?_ tracks.unreturned
      unfold paid
      rw [unreturned]
      rfl

theorem Fair.cancelled {tranche cancelled : LimitOrderTranche} {active : Bool} {settled : ℚ}
    (tracks : life.Tracks tranche active settled) {writes : List BookWrite}
    (shelves : (life.book.writeAll writes).Shelves cancelled active)
    {address : String} {maker : Maker} (found : life.makers.get? address = some maker)
    (within : maker.user.WithinPart tranche) {takerOut makerOut : PrecDec}
    (cancel : cancelInTranche tranche maker.user = .ok (makerOut, takerOut, cancelled)) :
    (life.advance cancelled writes (life.makers.delete address)
      (paid maker maker.user.exited makerOut takerOut :: life.exits)).Fair := by
  have cancels := cancelInTranche_cancels cancel
  obtain ⟨⟨returned, removed⟩, remove, cancel⟩ := of_bind cancel
  obtain ⟨⟨shares, taken, withdrawn⟩, withdraw, cancel⟩ := of_bind cancel
  obtain ⟨final, _, cancel⟩ := of_bind cancel
  cases cancel
  obtain ⟨_, rfl⟩ := LimitOrderTranche.removeTokenIn_eq_ok remove
  have calculated : tranche.calcWithdrawAmount maker.user = .ok (shares, takerOut) :=
    (LimitOrderTranche.withdraw_eq_ok withdraw).1
  have account := @LimitOrderTranche.pot_account tranche _ settled _ _ found
  have draws := tracks.draws found cancelled calculated
  have returns := tracks.returns found cancelled
    (LimitOrderTranche.removeTokenIn_removes remove)
  have tolerant := fair.spent_nonneg cancelled
  have sound := cancels.sound tracks.sound
  have isCancelled := cancels.eq_cancelled
  have worth := takerWorth_pos tracks.sound.price_pos
  have drawnNonneg := tracks.drawn_nonneg _ _ found
  have upper := mul_worth_le drawnNonneg tracks.sound.price_pos
  have lower := le_mul_worth drawnNonneg tracks.sound.price_pos
  have slackLe := tracks.slack_le cancelled
  have total : (0 : ℚ) ≤ tranche.totalMakerDenom := Int.cast_nonneg tracks.total_nonneg
  unfold slack at slackLe
  have isPot : cancelled.pot (life.makers.delete address) settled =
      (tranche.pot life.makers settled).leave address makerOut.i
        (takerOut.i * takerWorth tranche.makerPrice)
        (cancelled.decTotalTakerDenom.i * takerWorth tranche.makerPrice)
        ((tranche.pot life.makers settled).total -
          (maker.account tranche.makerPrice).share) := by
    rw [isCancelled]
    unfold LimitOrderTranche.pot LimitOrderTranche.cancelled LimitOrderTranche.paidOut
      Prorata.Pot.leave Maker.account
    simp only [sub_i, add_i, SortedStore.mapValues_delete]
    push_cast
    rw [sub_mul]
  have isFilled : cancelled.decTotalTakerDenom.i * takerWorth tranche.makerPrice =
      (tranche.pot life.makers settled).filled -
        ((maker.user.decSharesWithdrawn.mul tranche.makerPrice).i *
          takerWorth tranche.makerPrice + takerOut.i * takerWorth tranche.makerPrice) := by
    rw [isCancelled]
    unfold LimitOrderTranche.pot LimitOrderTranche.cancelled
    simp only [sub_i, add_i]
    push_cast
    ring
  have filledNonneg : 0 ≤ cancelled.decTotalTakerDenom.i * takerWorth tranche.makerPrice :=
    mul_nonneg (Int.cast_nonneg cancels.totalTaker) worth.le
  have filledGe : (tranche.pot life.makers settled).filled -
      ((maker.account tranche.makerPrice).drawn +
        takerOut.i * takerWorth tranche.makerPrice) - life.spent cancelled / 2 ≤
      cancelled.decTotalTakerDenom.i * takerWorth tranche.makerPrice := by
    rw [isFilled]
    change _ - ((maker.user.decSharesWithdrawn.i : ℚ) + _) - _ ≤ _
    linarith
  have filledLe : cancelled.decTotalTakerDenom.i * takerWorth tranche.makerPrice ≤
      (tranche.pot life.makers settled).filled -
        ((maker.account tranche.makerPrice).drawn +
          takerOut.i * takerWorth tranche.makerPrice) + life.spent cancelled / 2 := by
    rw [isFilled]
    change _ ≤ _ - ((maker.user.decSharesWithdrawn.i : ℚ) + _) + _
    linarith
  have little : (maker.account tranche.makerPrice).drawn -
      (tranche.pot life.makers settled).rate * (maker.account tranche.makerPrice).share ≤
      4 * life.spent cancelled :=
    le_trans within (mul_le_mul_of_nonneg_left (tracks.slack_le cancelled) (by norm_num))
  have sharesLe := sub_le_sub_right tracks.pot.shares_le
    (maker.account tranche.makerPrice).share
  have pot := tracks.pot.leave account draws returns filledNonneg sharesLe
  have whole : ((tranche.pot life.makers settled).leave address makerOut.i
    (takerOut.i * takerWorth tranche.makerPrice)
    (cancelled.decTotalTakerDenom.i * takerWorth tranche.makerPrice)
    ((tranche.pot life.makers settled).total -
      (maker.account tranche.makerPrice).share)).shares = _ :=
        Prorata.Pot.shares_leave account
  have balanced := tracks.balanced.leave tolerant fair.budget_nonneg
    (tracks.pot.spends_cancel account draws returns tolerant filledNonneg filledGe filledLe
      little)
  rw [← isPot] at pot whole balanced
  refine fair.advance (cancels.key.trans tracks.key) sound shelves
    (forall_delete tracks.drawn_nonneg) (forall_delete tracks.unreturned) pot ?_ balanced ?_
  · intro isActive
    rw [whole, tracks.whole isActive, isCancelled]
    unfold LimitOrderTranche.cancelled Maker.account
    push_cast
    rfl
  · intro left isLeft
    rcases List.mem_cons.mp isLeft with rfl | earlier
    · exact .inr (fair.leaves tracks found maker.user.exited rfl calculated
        (LimitOrderTranche.removeTokenIn_removes remove))
    · exact .inl earlier

theorem Fair.withdraw {address : String} (ok : life.withdraw address = some next) :
    next.Fair := by
  obtain ⟨maker, isMaker, ok⟩ := Option.bind_eq_some_iff.mp ok
  obtain ⟨⟨tranche, wasFilled⟩, found, ok⟩ := Option.bind_eq_some_iff.mp ok
  obtain ⟨withdrawal, isWithdrawal, ok⟩ := Option.bind_eq_some_iff.mp ok
  have withdraws := Outcome.toOption_eq_some_iff.mp isWithdrawal
  obtain ⟨settled, tracks⟩ := fair.tracks tranche wasFilled found
  obtain ⟨⟨shares, takerOut, withdrawn⟩, withdraw, withdraws⟩ := of_bind withdraws
  split at ok
  · cases ok
  · cases ok
    rcases OrderBook.findLimitOrderTranche_eq_some found with
      ⟨rfl, active⟩ | ⟨rfl, _, notActive⟩
    · have alone := fair.alone tranche active
      rw [← tracks.key] at alone
      cases withdraws
      exact fair.withdraw_active tracks alone isMaker withdraw
    · obtain ⟨⟨makerOut, removed⟩, remove, withdraws⟩ := of_bind withdraws
      rw [← tracks.key] at notActive
      cases withdraws
      have fairNext := fair.withdraw_inactive tracks notActive isMaker withdraw remove
      rw [← updateMaker_exited address maker makerOut takerOut] at fairNext
      exact fairNext

theorem Fair.cancel {address : String}
    (within : ∀ maker ∈ life.makers.get? address, ∀ found ∈ life.find,
      maker.user.WithinPart found.1)
    (ok : life.cancel address = some next) : next.Fair := by
  obtain ⟨maker, isMaker, ok⟩ := Option.bind_eq_some_iff.mp ok
  obtain ⟨⟨tranche, wasFilled⟩, found, ok⟩ := Option.bind_eq_some_iff.mp ok
  obtain ⟨⟨makerOut, takerOut, cancelled⟩, isCancelled, ok⟩ :=
    Option.bind_eq_some_iff.mp ok
  have cancel := Outcome.toOption_eq_some_iff.mp isCancelled
  have isPart := within maker isMaker (tranche, wasFilled) found
  have sameKey := (cancelInTranche_cancels cancel).key
  obtain ⟨settled, tracks⟩ := fair.tracks tranche wasFilled found
  dsimp only at ok
  split at ok
  · cases ok
  · cases ok
    have shelves : (life.book.writeAll (if wasFilled then updateInactiveTranche cancelled
        else updateTranche cancelled)).Shelves cancelled !wasFilled := by
      rcases OrderBook.findLimitOrderTranche_eq_some found with
        ⟨rfl, active⟩ | ⟨rfl, _, notActive⟩
      · have alone := fair.alone tranche active
        rw [← tracks.key, ← sameKey] at alone
        exact OrderBook.shelves_updateTranche alone
      · rw [← tracks.key, ← sameKey] at notActive
        exact OrderBook.shelves_updateInactiveTranche notActive
    have fairNext := fair.cancelled tracks shelves isMaker isPart cancel
    rw [← updateMaker_exited address maker makerOut takerOut] at fairNext
    exact fairNext

theorem Fair.step {operation : TrancheOperation} (permits : life.Permits operation) :
    (life.step operation).Fair := by
  unfold TrancheLife.step
  cases ok : life.perform operation with
  | none => exact fair
  | some next =>
      cases operation with
      | join address orderType amount positive => exact fair.join positive permits ok
      | swap offer => exact fair.swap ok
      | withdraw address => exact fair.withdraw ok
      | cancel address => exact fair.cancel permits ok
      | expire => exact fair.expire ok

end Steps

theorem opened_fair {key : LimitOrderTrancheKey} {goodTil : Option Time} {address : String}
    {orderType : LimitOrderType} {amount : Int} (positive : 0 < amount)
    (opens : opened key goodTil address orderType amount = some life) : life.Fair := by
  obtain ⟨tranche, isNew, placed⟩ := Option.bind_eq_some_iff.mp opens
  obtain ⟨price, isPrice, isTranche⟩ := of_bind (Outcome.toOption_eq_some_iff.mp isNew)
  obtain ⟨inRange, rfl⟩ := calcPrice_eq_ok_iff.mp isPrice
  cases isTranche
  have fair : (unborn key).Fair := {
    largest_nonneg := le_rfl
    inRange := inRange
    exits := fun _ impossible => nomatch impossible
    alone := fun _ _ => rfl
    tracks := fun _ _ impossible => nomatch impossible }
  have tracks : (unborn key).Tracks (LimitOrderTranche.new key goodTil) true 0 := {
    key := rfl
    sound := ⟨le_rfl, le_rfl, le_rfl, rfl, inRange⟩
    total_le := le_rfl
    drawn_nonneg := fun _ _ impossible => nomatch impossible
    unreturned := fun _ _ impossible => nomatch impossible
    pot := LimitOrderTranche.pot_new_sound key goodTil
    whole := fun _ => LimitOrderTranche.pot_new_shares key goodTil
    balanced := by
      have zero : (unborn key).budget = 0 := by
        unfold budget unborn
        simp
      rw [zero]
      exact LimitOrderTranche.pot_new_balanced key goodTil }
  have unfilled : (LimitOrderTranche.new key goodTil).Unfilled := by
    have worth := takerWorth_pos tracks.sound.price_pos
    unfold LimitOrderTranche.Unfilled slack
    simp only [LimitOrderTranche.new, zeroPrecDec_i, Int.cast_zero, zero_mul] at worth ⊢
    linarith
  exact fair.place tracks rfl unfilled positive placed

/-- Every maker who leaves a tranche, by a cancel or from the inactive tranche, was paid
the worth of its shares, whoever withdraws or cancels first. -/
theorem makers_paid_worth {key : LimitOrderTrancheKey} {goodTil : Option Time}
    {address : String} {orderType : LimitOrderType} {amount : Int} {start : TrancheLife}
    (positive : 0 < amount)
    (opens : opened key goodTil address orderType amount = some start)
    (operations : List TrancheOperation)
    (permitted : Machine.Allowed step Permits start operations) :
    ∀ maker ∈ (Machine.run step start operations).exits,
      maker.PaidWithin (Machine.run step start operations).makerPrice
        (Machine.run step start operations).operations
        (Machine.run step start operations).largestTotal := by
  have fair : (Machine.run step start operations).Fair :=
    Machine.Allowed.invariant (fun _ _ fair permits => fair.step permits)
      (opened_fair positive opens) permitted
  exact fair.exits

def evenKey : LimitOrderTrancheKey :=
  ⟨⟨"uatom", "untrn", uatom_ne_untrn⟩, 0, "tk-0"⟩

def dustOffer (units : Nat) : Offer :=
  ⟨⟨units⟩, none, Int.natCast_nonneg units, fun _ impossible => nomatch impossible⟩

/-- One order fills half of the tranche; one maker cancels and the other one withdraws
after the expiration. -/
def halfFilled : List TrancheOperation :=
  [.join "bob" .goodTilCancelled 1 (by decide), .swap (dustOffer precisionReuse),
    .withdraw "alice", .cancel "alice", .expire, .withdraw "bob"]

theorem makers_paid_worth_halfFilled :
    ∃ start, opened evenKey none "alice" .goodTilCancelled 1 = some start ∧
      (Machine.run step start halfFilled).exits.length = 2 ∧
      ∀ maker ∈ (Machine.run step start halfFilled).exits,
        maker.PaidWithin (Machine.run step start halfFilled).makerPrice
          (Machine.run step start halfFilled).operations
          (Machine.run step start halfFilled).largestTotal := by
  have run : ∃ start ∈ opened evenKey none "alice" .goodTilCancelled 1,
      (Machine.run step start halfFilled).exits.length = 2 ∧
        Machine.Allowed step Permits start halfFilled := by
    decide +kernel
  obtain ⟨start, opens, exits, permitted⟩ := run
  exact ⟨start, opens, exits, makers_paid_worth (by decide) opens halfFilled permitted⟩

def dustFills : List TrancheOperation :=
  let joinAndCancel : List TrancheOperation := [.withdraw "bob",
    .join "carol" .goodTilCancelled 5 (by decide), .cancel "carol"]
  [.join "alice" .goodTilCancelled 1 (by decide), .swap (dustOffer 1), .cancel "alice"] ++
    [1, 2, 4, 7, 13, 24, 44, 80, 147, 270, 495, 907, 1663, 3049].flatMap
      (fun units => joinAndCancel ++ [.swap (dustOffer units)]) ++
    joinAndCancel

/-- A maker who joins a tranche that was filled in part, and cancels, pays for the fill
of the others. -/
theorem maker_paid_less :
    ∃ start ∈ opened evenKey none "bob" .goodTilCancelled 1,
      (Machine.run step start dustFills).operations = 63 ∧
      ∃ maker ∈ (Machine.run step start dustFills).exits,
        ¬ maker.PaidWithin (Machine.run step start dustFills).makerPrice
          (Machine.run step start dustFills).operations
          (Machine.run step start dustFills).largestTotal := by
  decide +kernel

end TrancheLife

end Neutron.Dex
