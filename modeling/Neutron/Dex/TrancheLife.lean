import Mathlib.Algebra.Order.Field.Rat
import Neutron.Library.Machine
import Neutron.Dex.BookUpdate
import Neutron.Dex.LimitOrder

namespace Neutron.Dex

open Library PrecDec

/-! The life of one tranche: makers join it, takers fill it, makers withdraw what was
filled or cancel, and it may expire.  What every maker is paid is recorded. -/

structure Maker where
  user : LimitOrderTrancheUser
  makerPaid : PrecDec
  takerPaid : PrecDec
  deriving DecidableEq

structure TrancheLife where
  key : LimitOrderTrancheKey
  book : OrderBook
  makers : SortedStore String Maker
  exits : List Maker
  operations : Nat
  largestTotal : Int

structure Offer where
  maxAmountTakerIn : PrecDec
  maxAmountMakerOut : Option PrecDec
  in_nonneg : 0 ≤ maxAmountTakerIn.i
  out_nonneg : ∀ limit ∈ maxAmountMakerOut, 0 ≤ limit.i

inductive TrancheOperation where
  | join (address : String) (orderType : LimitOrderType) (amount : Int)
      (positive : 0 < amount)
  | swap (offer : Offer)
  | withdraw (address : String)
  | cancel (address : String)
  | expire

namespace TrancheLife

variable (life : TrancheLife)

def find : Option (LimitOrderTranche × Bool) :=
  life.book.findLimitOrderTranche life.key

def findActive : Option LimitOrderTranche := life.book.getLimitOrderTranche life.key

/-- The record of a maker, as `GetOrInitLimitOrderTrancheUser` finds it. -/
def maker (address : String) (orderType : LimitOrderType) : Maker :=
  (life.makers.get? address).getD
    ⟨⟨life.key.tradePairID, life.key.tickIndexTakerToMaker, life.key.trancheKey, address, 0,
      zeroPrecDec, orderType⟩, zeroPrecDec, zeroPrecDec⟩

/-- `UpdateTrancheUser` for a maker. -/
def updateMaker (address : String) (maker : Maker) : SortedStore String Maker :=
  if maker.user.IsEmpty then
    life.makers.delete address
  else
    life.makers.set address maker

/-- One more operation, which leaves a tranche and its makers behind. -/
def advance (tranche : LimitOrderTranche) (writes : List BookWrite)
    (makers : SortedStore String Maker) (exits : List Maker) : TrancheLife :=
  { life with
    book := life.book.writeAll writes
    makers := makers
    exits := exits
    operations := life.operations + 1
    largestTotal := max life.largestTotal tranche.totalMakerDenom }

def place (tranche : LimitOrderTranche) (address : String) (orderType : LimitOrderType)
    (amount : Int) : Option TrancheLife := do
  let placed ← (tranche.placeMakerLimitOrder amount).toOption
  let maker := life.maker address orderType
  let joined := { maker with
    user := { maker.user with sharesOwned := maker.user.sharesOwned + amount } }
  pure (life.advance placed (updateTranche placed) (life.updateMaker address joined)
    life.exits)

def join (address : String) (orderType : LimitOrderType) (amount : Int) :
    Option TrancheLife := do
  let tranche ← life.findActive
  if tranche.IsPlaceTranche then
    life.place tranche address orderType amount
  else
    none

def swap (offer : Offer) : Option TrancheLife := do
  let tranche ← life.findActive
  let (_, _, swapped) ← (tranche.swap offer.maxAmountTakerIn
    offer.maxAmountMakerOut).toOption
  pure (life.advance swapped (updateTranche swapped) life.makers life.exits)

def paid (maker : Maker) (user : LimitOrderTrancheUser) (makerOut takerOut : PrecDec) :
    Maker :=
  ⟨user, maker.makerPaid + makerOut, maker.takerPaid + takerOut⟩

/-- `ExecuteWithdrawFilledLimitOrder`; whoever withdraws from the inactive tranche has
left it. -/
def withdraw (address : String) : Option TrancheLife := do
  let maker ← life.makers.get? address
  let (tranche, wasFilled) ← life.find
  let withdrawal ← (withdrawFromTranche tranche wasFilled maker.user).toOption
  if ¬ withdrawal.amountOutTokenOut.IsPositive ∧
      ¬ withdrawal.remainingTokenIn.IsPositive then
    none
  else
    let paid := paid maker withdrawal.trancheUser withdrawal.remainingTokenIn
      withdrawal.amountOutTokenOut
    pure (life.advance tranche withdrawal.writes (life.updateMaker address paid)
      (if wasFilled then paid :: life.exits else life.exits))

/-- `ExecuteCancelLimitOrder`. -/
def cancel (address : String) : Option TrancheLife := do
  let maker ← life.makers.get? address
  let (tranche, wasFilled) ← life.find
  let (makerOut, takerOut, cancelled) ← (cancelInTranche tranche maker.user).toOption
  if ¬ makerOut.IsPositive ∧ ¬ takerOut.IsPositive then
    none
  else
    let exited := { maker.user with
      decSharesWithdrawn := newPrecDecFromInt maker.user.sharesOwned }
    let paid := paid maker exited makerOut takerOut
    let writes :=
      if wasFilled then updateInactiveTranche cancelled else updateTranche cancelled
    pure (life.advance cancelled writes (life.updateMaker address paid)
      (paid :: life.exits))

/-- The tranche is archived by `PurgeExpiredLimitOrders`. -/
def expire : Option TrancheLife := do
  let tranche ← life.findActive
  pure (life.advance tranche (archiveTranche tranche) life.makers life.exits)

def perform : TrancheOperation → Option TrancheLife
  | .join address orderType amount _ => life.join address orderType amount
  | .swap offer => life.swap offer
  | .withdraw address => life.withdraw address
  | .cancel address => life.cancel address
  | .expire => life.expire

def step (operation : TrancheOperation) : TrancheLife :=
  (life.perform operation).getD life

def unborn (key : LimitOrderTrancheKey) : TrancheLife where
  key := key
  book := OrderBook.empty
  makers := SortedStore.empty
  exits := []
  operations := 0
  largestTotal := 0

def opened (key : LimitOrderTrancheKey) (goodTil : Option Time) (address : String)
    (orderType : LimitOrderType) (amount : Int) : Option TrancheLife := do
  let tranche ← (newLimitOrderTranche key goodTil).toOption
  (unborn key).place tranche address orderType amount

end TrancheLife

end Neutron.Dex
