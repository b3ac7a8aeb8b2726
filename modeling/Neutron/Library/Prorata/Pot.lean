import Mathlib.Algebra.Order.Field.Basic
import Mathlib.Tactic.FieldSimp
import Mathlib.Tactic.Linarith
import Mathlib.Tactic.Ring
import Neutron.Library.SortedStore

namespace Library

universe u v

section Field

variable {Amount : Type v} [Field Amount] [LinearOrder Amount] [IsStrictOrderedRing Amount]

theorem mul_part_le {part total change bound : Amount} (nonneg : 0 ≤ part)
    (le : part ≤ total) (boundNonneg : 0 ≤ bound) (whole : change * total ≤ bound) :
    change * part ≤ bound := by
  rcases le_total change 0 with falls | rises
  · exact le_trans (mul_nonpos_of_nonpos_of_nonneg falls nonneg) boundNonneg
  · exact le_trans (mul_le_mul_of_nonneg_left le rises) whole

theorem max_div_sub_mul_le {part total : Amount} (nonneg : 0 ≤ part) (le : part ≤ total)
    (filled rate : Amount) :
    max (filled / total - rate) 0 * part ≤ max (filled - rate * total) 0 := by
  rcases eq_or_lt_of_le (le_trans nonneg le) with zero | positive
  · have none : part = 0 := le_antisymm (le_of_le_of_eq le zero.symm) nonneg
    rw [none, mul_zero]
    exact le_max_right _ _
  · have change : (filled / total - rate) * total = filled - rate * total := by
      field_simp
    rw [← change, ← zero_mul total, ← max_mul_of_nonneg _ _ positive.le, zero_mul]
    exact mul_le_mul_of_nonneg_left le (le_max_right _ _)

theorem max_sub_div_mul_le {part total : Amount} (nonneg : 0 ≤ part) (le : part ≤ total)
    (filled rate : Amount) :
    max (rate - filled / total) 0 * part ≤ max (rate * total - filled) 0 := by
  have change := max_div_sub_mul_le nonneg le (-filled) (-rate)
  have quotient : -filled / total - -rate = rate - filled / total := by
    rw [neg_div]
    ring
  have product : -filled - -rate * total = rate * total - filled := by ring
  rwa [quotient, product] at change

end Field

theorem SortedStore.total_le_add_mul {Key : Type u} {Value : Type*} [LinearOrder Key]
    {Amount : Type v} [Field Amount] [LinearOrder Amount] [IsStrictOrderedRing Amount]
    (store : SortedStore Key Value) {measure first second : Key → Value → Amount}
    {factor : Amount}
    (le : ∀ key value, store.get? key = some value →
      measure key value ≤ first key value + factor * second key value) :
    store.total measure ≤ store.total first + factor * store.total second := by
  have linear : store.total (fun key value =>
      first key value + factor * second key value - measure key value) =
      store.total first + factor * store.total second - store.total measure := by
    unfold SortedStore.total Entries.total
    induction store.entries with
    | nil => simp
    | cons entry rest ih =>
        simp only [List.map_cons, List.sum_cons, ih]
        ring
  have nonneg := store.total_nonneg fun key value found => sub_nonneg.mpr (le key value found)
  rw [linear] at nonneg
  exact sub_nonneg.mp nonneg

/-! A pot that is shared pro rata.  Accounts put shares into it, each of the worth of a
unit; the pot is filled from outside, share by share alike, and an account may draw its
part of the fill at any time and leave with the rest of its shares.  All amounts are only
known up to a tolerance, which is spent anew by every operation. -/

namespace Prorata

variable {Amount : Type v} [Field Amount] [LinearOrder Amount]

/-- Shares of a pot, the part of their fill that counts as drawn, and what was paid. -/
structure Account (Amount : Type v) where
  share : Amount
  drawn : Amount
  paid : Amount

namespace Account

variable (account : Account Amount) (rate : Amount)

def due : Amount := max (rate * account.share - account.drawn) 0

def excess : Amount := max (account.drawn - rate * account.share) 0

def unpaid : Amount := account.drawn - account.paid

theorem due_nonneg : 0 ≤ account.due rate := le_max_right _ _

theorem excess_nonneg : 0 ≤ account.excess rate := le_max_right _ _

theorem le_due : rate * account.share - account.drawn ≤ account.due rate :=
  le_max_left _ _

theorem le_excess : account.drawn - rate * account.share ≤ account.excess rate :=
  le_max_left _ _

variable [IsStrictOrderedRing Amount] {account} (nonneg : 0 ≤ account.share)
  (next : Amount)

include nonneg

theorem due_le_add :
    account.due next ≤ account.due rate + max (next - rate) 0 * account.share := by
  have shift := mul_le_mul_of_nonneg_right (le_max_left (next - rate) 0) nonneg
  have shiftNonneg := mul_nonneg (le_max_right (next - rate) 0) nonneg
  have due := account.le_due rate
  have dueNonneg := account.due_nonneg rate
  exact max_le (by linarith) (by linarith)

theorem excess_le_add :
    account.excess next ≤ account.excess rate + max (rate - next) 0 * account.share := by
  have shift := mul_le_mul_of_nonneg_right (le_max_left (rate - next) 0) nonneg
  have shiftNonneg := mul_nonneg (le_max_right (rate - next) 0) nonneg
  have excess := account.le_excess rate
  have excessNonneg := account.excess_nonneg rate
  exact max_le (by linarith) (by linarith)

end Account

variable {Name : Type u} [LinearOrder Name]

/-- A pot: what is kept of the shares, what was gained for the fill, how much was filled
so far, and the shares that were filled alike.  Accounts that have drawn all their shares
are settled; their shares still count. -/
structure Pot (Name : Type u) (Amount : Type v) [LinearOrder Name] where
  kept : Amount
  gained : Amount
  filled : Amount
  total : Amount
  settled : Amount
  accounts : SortedStore Name (Account Amount)

namespace Pot

variable (pot : Pot Name Amount)

def rate : Amount := pot.filled / pot.total

def shares : Amount := pot.accounts.total (fun _ account => account.share) + pot.settled

variable (unit rate : Amount)

def dueAt : Amount :=
  pot.accounts.total (fun _ account => account.due rate) +
    pot.settled * max (rate - unit) 0

def excessAt : Amount :=
  pot.accounts.total (fun _ account => account.excess rate) +
    pot.settled * max (unit - rate) 0

structure Sound : Prop where
  kept_nonneg : 0 ≤ pot.kept
  gained_nonneg : 0 ≤ pot.gained
  filled_nonneg : 0 ≤ pot.filled
  settled_nonneg : 0 ≤ pot.settled
  share_pos : ∀ name account, pot.accounts.get? name = some account → 0 < account.share
  drawn_le : ∀ name account, pot.accounts.get? name = some account →
    account.drawn ≤ unit * account.share
  shares_le : pot.shares ≤ pot.total

/-- What an account was not paid is within a budget, also together with what the pot
lacks for all that is due. -/
structure Covers (budget : Amount) (account : Account Amount) : Prop where
  unpaid_ge : -budget ≤ account.unpaid
  unpaid_le : account.unpaid ≤ 4 * budget
  due_unpaid : pot.dueAt unit pot.rate + account.unpaid ≤ pot.gained + 4 * budget

/-- A pot falls short of what it owes by no more than a budget allows: in what is kept
for the shares, in what was gained for the fill, and in what its accounts have drawn. -/
structure Balanced (budget : Amount) : Prop where
  rest : pot.shares * max (unit - pot.rate) 0 ≤ pot.kept + 6 * budget
  due : pot.dueAt unit pot.rate ≤ pot.gained + 4 * budget
  excess : pot.excessAt unit pot.rate ≤ 4 * budget
  covers : ∀ name account, pot.accounts.get? name = some account →
    pot.Covers unit budget account

/-- A drawing of an account, up to a tolerance: what counts as drawn afterwards and the
value that is paid. -/
structure Draws (tolerance : Amount) (account : Account Amount) (drawn value : Amount) :
    Prop where
  drawn_ge : account.drawn ≤ drawn
  drawn_le_unit : drawn ≤ unit * account.share
  drawn_le : drawn ≤ max account.drawn (pot.rate * account.share + tolerance / 2)
  drawn_near : min (unit * account.share) (pot.rate * account.share) - tolerance ≤ drawn
  value_nonneg : 0 ≤ value
  value_le_gained : value ≤ pot.gained
  value_le : value ≤ drawn - account.drawn + tolerance / 2
  value_near : min (drawn - account.drawn - tolerance / 2) pot.gained ≤ value

/-- A return of what was not filled of the shares of an account, up to a tolerance. -/
structure Returns (tolerance : Amount) (account : Account Amount) (out : Amount) : Prop where
  nonneg : 0 ≤ out
  le_kept : out ≤ pot.kept
  le : out ≤ account.share * max (unit - pot.rate) 0 + tolerance / 2
  near : min (account.share * max (unit - pot.rate) 0 - tolerance) pot.kept ≤ out

def join (name : Name) (account : Account Amount) (amount : Amount) : Pot Name Amount :=
  { pot with
    kept := pot.kept + unit * amount
    total := pot.total + amount
    accounts := pot.accounts.set name { account with share := account.share + amount } }

def fill (out value : Amount) : Pot Name Amount :=
  { pot with
    kept := pot.kept - out
    gained := pot.gained + value
    filled := pot.filled + value }

def draw (name : Name) (account : Account Amount) (drawn value : Amount) :
    Pot Name Amount :=
  { pot with
    gained := pot.gained - value
    accounts := pot.accounts.set name
      { account with drawn := drawn, paid := account.paid + value } }

def settle (name : Name) (account : Account Amount) (value : Amount) : Pot Name Amount :=
  { pot with
    gained := pot.gained - value
    settled := pot.settled + account.share
    accounts := pot.accounts.delete name }

def leave (name : Name) (out value filled total : Amount) : Pot Name Amount :=
  { pot with
    kept := pot.kept - out
    gained := pot.gained - value
    filled := filled
    total := total
    accounts := pot.accounts.delete name }

section Changes

variable [IsStrictOrderedRing Amount] {pot unit} {next : Pot Name Amount}
  {budget tolerance : Amount}

structure Spends (pot next : Pot Name Amount) (unit tolerance : Amount) : Prop where
  rest : next.shares * max (unit - next.rate) 0 - next.kept ≤
    max (pot.shares * max (unit - pot.rate) 0 - pot.kept) 0 + 6 * tolerance
  due : next.dueAt unit next.rate - next.gained ≤
    pot.dueAt unit pot.rate - pot.gained + 4 * tolerance
  excess : next.excessAt unit next.rate ≤ pot.excessAt unit pot.rate + 4 * tolerance

theorem Covers.spends {account : Account Amount} (covers : pot.Covers unit budget account)
    (spends : Spends pot next unit tolerance) (tolerant : 0 ≤ tolerance) :
    next.Covers unit (budget + tolerance) account where
  unpaid_ge := le_trans (by linarith) covers.unpaid_ge
  unpaid_le := le_trans covers.unpaid_le (by linarith)
  due_unpaid := by
    have before := covers.due_unpaid
    have change := spends.due
    linarith

theorem Balanced.spends (balanced : pot.Balanced unit budget)
    (spends : Spends pot next unit tolerance) (nonneg : 0 ≤ budget)
    (covers : ∀ name account, next.accounts.get? name = some account →
      next.Covers unit (budget + tolerance) account) :
    next.Balanced unit (budget + tolerance) where
  rest := by
    have change := spends.rest
    have before : max (pot.shares * max (unit - pot.rate) 0 - pot.kept) 0 ≤ 6 * budget :=
      max_le (by linarith [balanced.rest]) (by linarith)
    linarith
  due := by
    have before := balanced.due
    have change := spends.due
    linarith
  excess := by
    have before := balanced.excess
    have change := spends.excess
    linarith
  covers := covers

theorem Balanced.mono {more : Amount} (balanced : pot.Balanced unit budget)
    (le : budget ≤ more) : pot.Balanced unit more where
  rest := le_trans balanced.rest (by linarith)
  due := le_trans balanced.due (by linarith)
  excess := le_trans balanced.excess (by linarith)
  covers := by
    intro name account found
    obtain ⟨unpaidGe, unpaidLe, dueUnpaid⟩ := balanced.covers name account found
    exact ⟨by linarith, by linarith, by linarith⟩

end Changes

namespace Sound

variable {pot unit} (sound : pot.Sound unit)

include sound

theorem share_nonneg {name : Name} {account : Account Amount}
    (found : pot.accounts.get? name = some account) : 0 ≤ account.share :=
  le_of_lt (sound.share_pos name account found)

variable [IsStrictOrderedRing Amount]

theorem shares_nonneg : 0 ≤ pot.shares :=
  add_nonneg (pot.accounts.total_nonneg fun _ _ found => sound.share_nonneg found)
    sound.settled_nonneg

theorem total_nonneg : 0 ≤ pot.total := le_trans sound.shares_nonneg sound.shares_le

theorem rate_nonneg : 0 ≤ pot.rate := div_nonneg sound.filled_nonneg sound.total_nonneg

theorem share_le_shares {name : Name} {account : Account Amount}
    (found : pot.accounts.get? name = some account) : account.share ≤ pot.shares := by
  have part := pot.accounts.le_total (fun _ _ stored => sound.share_nonneg stored) found
  exact le_trans part (le_add_of_nonneg_right sound.settled_nonneg)

theorem due_le_dueAt {name : Name} {account : Account Amount}
    (found : pot.accounts.get? name = some account) (rate : Amount) :
    account.due rate ≤ pot.dueAt unit rate := by
  have part := pot.accounts.le_total
    (fun _ (stored : Account Amount) _ => stored.due_nonneg rate) found
  exact le_trans part (le_add_of_nonneg_right
    (mul_nonneg sound.settled_nonneg (le_max_right _ _)))

theorem excess_le_excessAt {name : Name} {account : Account Amount}
    (found : pot.accounts.get? name = some account) (rate : Amount) :
    account.excess rate ≤ pot.excessAt unit rate := by
  have part := pot.accounts.le_total
    (fun _ (stored : Account Amount) _ => stored.excess_nonneg rate) found
  exact le_trans part (le_add_of_nonneg_right
    (mul_nonneg sound.settled_nonneg (le_max_right _ _)))

theorem dueAt_le_add (rate next : Amount) :
    pot.dueAt unit next ≤ pot.dueAt unit rate + max (next - rate) 0 * pot.shares := by
  have accounts := pot.accounts.total_le_add_mul fun _ account found =>
    Account.due_le_add rate (sound.share_nonneg found) next
  have shift : max (next - unit) 0 ≤ max (rate - unit) 0 + max (next - rate) 0 :=
    max_le (by linarith [le_max_left (rate - unit) 0, le_max_left (next - rate) 0])
      (add_nonneg (le_max_right _ _) (le_max_right _ _))
  have settled := mul_le_mul_of_nonneg_left shift sound.settled_nonneg
  unfold dueAt shares
  linarith

theorem excessAt_le_add (rate next : Amount) :
    pot.excessAt unit next ≤
      pot.excessAt unit rate + max (rate - next) 0 * pot.shares := by
  have accounts := pot.accounts.total_le_add_mul fun _ account found =>
    Account.excess_le_add rate (sound.share_nonneg found) next
  have shift : max (unit - next) 0 ≤ max (unit - rate) 0 + max (rate - next) 0 :=
    max_le (by linarith [le_max_left (unit - rate) 0, le_max_left (rate - next) 0])
      (add_nonneg (le_max_right _ _) (le_max_right _ _))
  have settled := mul_le_mul_of_nonneg_left shift sound.settled_nonneg
  unfold excessAt shares
  linarith

theorem rest_eq (whole : pot.shares = pot.total) :
    pot.shares * max (unit - pot.rate) 0 = max (unit * pot.total - pot.filled) 0 := by
  rw [whole]
  rcases eq_or_lt_of_le sound.total_nonneg with zero | positive
  · rw [← zero, zero_mul, mul_zero, zero_sub]
    exact (max_eq_right (neg_nonpos.mpr sound.filled_nonneg)).symm
  · have rest : pot.total * (unit - pot.rate) = unit * pot.total - pot.filled := by
      unfold rate
      field_simp
    rw [mul_max_of_nonneg _ _ positive.le, rest, mul_zero]

theorem rate_mul_shares_le : pot.rate * pot.shares ≤ pot.filled := by
  have part := mul_le_mul_of_nonneg_left sound.shares_le sound.rate_nonneg
  rcases eq_or_lt_of_le sound.total_nonneg with zero | positive
  · rw [← zero, mul_zero] at part
    exact le_trans part sound.filled_nonneg
  · exact le_of_le_of_eq part (div_mul_cancel₀ _ positive.ne')

end Sound

end Pot

end Prorata

end Library
