import Neutron.Dex.SwapLoop
import Neutron.Dex.PoolRegistry
import Neutron.Dex.LimitOrder

namespace Neutron.Dex

open Library PrecDec

/-! The module as a transition system.  Every message and every purge is a
sequence of the moves below, and what holds in all reachable states is proved
move by move.  A move is labelled with what it adds to the reserves. -/

/-- What the moves of a message are held to: the block time, which withdrawals
from active tranches and which cancellations in them are made, and which pools
are given shares for. -/
structure Rules where
  now : Time
  pays : LimitOrderTranche → LimitOrderTrancheUser → Prop
  cancels : LimitOrderTranche → LimitOrderTrancheUser → Prop
  funded : Nat → Prop

def Pool.withReserves (pool : Pool) (reserves0 reserves1 : PrecDec) : Pool :=
  { pool with
    lowerTick0 := { pool.lowerTick0 with decReservesMakerDenom := reserves0 }
    upperTick1 := { pool.upperTick1 with decReservesMakerDenom := reserves1 } }

def LimitOrderTranche.placed (tranche : LimitOrderTranche) (amount : Int) :
    LimitOrderTranche :=
  { tranche with
    decReservesMakerDenom := tranche.decReservesMakerDenom + newPrecDecFromInt amount
    totalMakerDenom := tranche.totalMakerDenom + amount }

def LimitOrderTranche.new (key : LimitOrderTrancheKey) (goodTil : Option Time) :
    LimitOrderTranche where
  key := key
  decReservesMakerDenom := zeroPrecDec
  decReservesTakerDenom := zeroPrecDec
  totalMakerDenom := 0
  decTotalTakerDenom := zeroPrecDec
  expirationTime := goodTil
  makerPrice := tickPrice key.tickIndexTakerToMaker

def Timely (now expirationTime : Time) : Prop :=
  expirationTime = jitGoodTilTime ∨
    (now < expirationTime ∧ expirationTime < 253402300800 * 10 ^ 9)

/-- The tranche an order is placed in: one on the book that does not expire, or
a new one under the next tranche key. -/
inductive Opened (now : Time) (dex : DexState) :
    LimitOrderTranche → DexState → Prop
  | existing {tranche : LimitOrderTranche}
      (stored : dex.book.getLimitOrderTranche tranche.key = some tranche)
      (permanent : tranche.expirationTime = none) (place : tranche.IsPlaceTranche) :
      Opened now dex tranche dex
  | fresh {tradePairID : TradePairID} {tickIndex : Int} {goodTil : Option Time}
      (inRange : ¬ IsTickOutOfRange tickIndex)
      (timely : ∀ expirationTime ∈ goodTil, Timely now expirationTime) :
      Opened now dex
        (.new ⟨tradePairID, tickIndex, trancheKeyText dex.trancheCount⟩ goodTil)
        { dex with trancheCount := dex.trancheCount + 1 }

/-- The record of an account's shares in a tranche, before an order is added. -/
inductive Holder (dex : DexState) (key : LimitOrderTrancheKey) (address : String) :
    LimitOrderTrancheUser → Prop
  | existing {user : LimitOrderTrancheUser}
      (stored : dex.getLimitOrderTrancheUser address key.trancheKey = some user)
      (sameKey : user.limitOrderTrancheKey = key) : Holder dex key address user
  | fresh {orderType : LimitOrderType}
      (absent : dex.getLimitOrderTrancheUser address key.trancheKey = none) :
      Holder dex key address ⟨key.tradePairID, key.tickIndexTakerToMaker,
        key.trancheKey, address, 0, zeroPrecDec, orderType⟩

def DexState.recordExpirationOf (dex : DexState) (tranche : LimitOrderTranche) :
    DexState :=
  match tranche.expirationTime with
  | none => dex
  | some expirationTime => dex.setLimitOrderExpiration ⟨tranche.key, expirationTime⟩

def LimitOrderTrancheUser.exited (user : LimitOrderTrancheUser) :
    LimitOrderTrancheUser :=
  { user with decSharesWithdrawn := newPrecDecFromInt user.sharesOwned }

inductive Move (rules : Rules) (dex : DexState) : Flow → DexState → Prop
  | visit {tradePairID : TradePairID} {inAmount outAmount : PrecDec}
      {book : OrderBook}
      (visit : Visit rules.now tradePairID dex.book inAmount outAmount book) :
      Move rules dex (Flow.coin tradePairID.takerDenom inAmount -
        Flow.coin tradePairID.makerDenom outAmount) { dex with book := book }
  | registerPool {pairID : PairID} {center : Int} {fee : Nat}
      (absent : dex.poolIDs.get? ⟨pairID, center, fee⟩ = none)
      (upperInRange : ¬ IsTickOutOfRange (center + fee))
      (lowerInRange : ¬ IsTickOutOfRange (-center + fee)) :
      Move rules dex 0 ((dex.initializePoolMetadata pairID center fee).2.storePoolIDRef
        dex.poolCount pairID center fee)
  | deposit {key : PoolIDKey} {pool : Pool} {inAmount0 inAmount1 : PrecDec}
      (registered : dex.poolIDs.get? key = some pool.id) (funded : rules.funded pool.id)
      (readAt : pool.ReadAt dex.book key)
      (nonneg0 : 0 ≤ inAmount0.i) (nonneg1 : 0 ≤ inAmount1.i)
      (clear : ¬ IsPoolBehindEnemyLines dex.book rules.now key.pairID
        key.centerTickIndexNormalized key.fee inAmount0 inAmount1) :
      Move rules dex (Flow.coin key.pairID.token0 inAmount0 +
        Flow.coin key.pairID.token1 inAmount1)
        (dex.updateBook (updatePool (pool.withReserves
          (pool.lowerTick0.decReservesMakerDenom + inAmount0)
          (pool.upperTick1.decReservesMakerDenom + inAmount1))))
  | withdraw {key : PoolIDKey} {pool : Pool} {outAmount0 outAmount1 : PrecDec}
      (registered : dex.poolIDs.get? key = some pool.id)
      (readAt : pool.ReadAt dex.book key)
      (nonneg0 : 0 ≤ outAmount0.i) (nonneg1 : 0 ≤ outAmount1.i)
      (within0 : outAmount0.i ≤ pool.lowerTick0.decReservesMakerDenom.i)
      (within1 : outAmount1.i ≤ pool.upperTick1.decReservesMakerDenom.i) :
      Move rules dex (-(Flow.coin key.pairID.token0 outAmount0 +
        Flow.coin key.pairID.token1 outAmount1))
        (dex.updateBook (updatePool (pool.withReserves
          (pool.lowerTick0.decReservesMakerDenom - outAmount0)
          (pool.upperTick1.decReservesMakerDenom - outAmount1))))
  | issueTrancheKey :
      Move rules dex 0 { dex with trancheCount := dex.trancheCount + 1 }
  | place {tranche : LimitOrderTranche} {opened : DexState} {address : String}
      {user : LimitOrderTrancheUser} {amount : Int}
      (opens : Opened rules.now dex tranche opened)
      (holder : Holder dex tranche.key address user) (positive : 0 < amount)
      (uncrossed : NoneBelow rules.now dex.book tranche.key.tradePairID.reversed
        (-tranche.key.tickIndexTakerToMaker)) :
      Move rules dex (Flow.coin tranche.key.tradePairID.makerDenom
        (newPrecDecFromInt amount))
        (((opened.recordExpirationOf (tranche.placed amount)).updateBook
          (updateTranche (tranche.placed amount))).updateTrancheUser
            { user with sharesOwned := user.sharesOwned + amount })
  | cancelActive {address trancheKey : String} {user : LimitOrderTrancheUser}
      {tranche cancelled : LimitOrderTranche} {makerOut takerOut : PrecDec}
      (holder : dex.getLimitOrderTrancheUser address trancheKey = some user)
      (stored : dex.book.getLimitOrderTranche user.limitOrderTrancheKey = some tranche)
      (cancel : cancelInTranche tranche user = .ok (makerOut, takerOut, cancelled))
      (cancels : rules.cancels tranche user) :
      Move rules dex (-(Flow.coin user.tradePairID.makerDenom makerOut +
        Flow.coin user.tradePairID.takerDenom takerOut))
        (dropExpiration ((dex.updateTrancheUser user.exited).updateBook
          (updateTranche cancelled)) cancelled)
  | cancelInactive {address trancheKey : String} {user : LimitOrderTrancheUser}
      {tranche cancelled : LimitOrderTranche} {makerOut takerOut : PrecDec}
      (holder : dex.getLimitOrderTrancheUser address trancheKey = some user)
      (stored : dex.book.getInactiveLimitOrderTranche user.limitOrderTrancheKey =
        some tranche)
      (notActive : dex.book.getLimitOrderTranche user.limitOrderTrancheKey = none)
      (cancel : cancelInTranche tranche user = .ok (makerOut, takerOut, cancelled)) :
      Move rules dex (-(Flow.coin user.tradePairID.makerDenom makerOut +
        Flow.coin user.tradePairID.takerDenom takerOut))
        (dropExpiration ((dex.updateTrancheUser user.exited).updateBook
          (updateInactiveTranche cancelled)) cancelled)
  | withdrawActive {address trancheKey : String} {user : LimitOrderTrancheUser}
      {tranche withdrawn : LimitOrderTranche} {shares takerOut : PrecDec}
      (holder : dex.getLimitOrderTrancheUser address trancheKey = some user)
      (stored : dex.book.getLimitOrderTranche user.limitOrderTrancheKey = some tranche)
      (withdraw : tranche.withdraw user = .ok (shares, takerOut, withdrawn))
      (positive : 0 < takerOut.i) (pays : rules.pays tranche user) :
      Move rules dex (-(Flow.coin user.tradePairID.takerDenom takerOut))
        ((dex.updateBook (updateTranche withdrawn)).updateTrancheUser
          { user with decSharesWithdrawn := user.decSharesWithdrawn + shares })
  | withdrawInactive {address trancheKey : String} {user : LimitOrderTrancheUser}
      {tranche withdrawn removed : LimitOrderTranche}
      {shares takerOut makerOut : PrecDec}
      (holder : dex.getLimitOrderTrancheUser address trancheKey = some user)
      (stored : dex.book.getInactiveLimitOrderTranche user.limitOrderTrancheKey =
        some tranche)
      (notActive : dex.book.getLimitOrderTranche user.limitOrderTrancheKey = none)
      (withdraw : tranche.withdraw user = .ok (shares, takerOut, withdrawn))
      (remove : withdrawn.removeTokenIn user = .ok (makerOut, removed)) :
      Move rules dex (-(Flow.coin user.tradePairID.makerDenom makerOut +
        Flow.coin user.tradePairID.takerDenom takerOut))
        ((dex.updateBook (updateInactiveTranche removed)).updateTrancheUser user.exited)
  | dropRecord {record : LimitOrderExpiration}
      (gone : dex.book.getLimitOrderTranche record.trancheRef = none) :
      Move rules dex 0
        { dex with expirations := dex.expirations.delete record.key }
  | archive {record : LimitOrderExpiration} {tranche : LimitOrderTranche}
      (stored : dex.book.getLimitOrderTranche record.trancheRef = some tranche) :
      Move rules dex 0
        { dex.updateBook (archiveTranche tranche) with
          expirations := dex.expirations.delete record.key }
  | countJITs (jitsInBlock : Nat) :
      Move rules dex 0 { dex with jitsInBlock := jitsInBlock }
  | setParams (params : Params) : Move rules dex 0 { dex with params := params }

inductive Moves (rules : Rules) : DexState → Flow → DexState → Prop
  | nil (dex : DexState) : Moves rules dex 0 dex
  | cons {dex middle final : DexState} {first rest : Flow}
      (move : Move rules dex first middle) (moves : Moves rules middle rest final) :
      Moves rules dex (first + rest) final

namespace Moves

variable {rules : Rules} {dex middle final : DexState} {first rest flow : Flow}

theorem single (move : Move rules dex flow final) : Moves rules dex flow final := by
  have moves := Moves.cons move (.nil final)
  rwa [add_zero] at moves

theorem append (left : Moves rules dex first middle)
    (right : Moves rules middle rest final) : Moves rules dex (first + rest) final := by
  induction left with
  | nil dex =>
      rw [zero_add]
      exact right
  | cons move _ ih =>
      rw [add_assoc]
      exact .cons move (ih right)

theorem invariant {invariant : DexState → Prop}
    (kept : ∀ {dex flow next}, invariant dex → Move rules dex flow next →
      invariant next)
    (moves : Moves rules dex flow final) (start : invariant dex) :
    invariant final := by
  induction moves with
  | nil dex => exact start
  | cons move _ ih => exact ih (kept start move)

theorem ofVisits {tradePairID : TradePairID} {inAmount outAmount : PrecDec}
    {book : OrderBook}
    (visits : Visits rules.now tradePairID dex.book inAmount outAmount book) :
    Moves rules dex (Flow.coin tradePairID.takerDenom inAmount -
      Flow.coin tradePairID.makerDenom outAmount) { dex with book := book } := by
  generalize start : dex.book = before at visits
  induction visits generalizing dex with
  | nil book =>
      subst start
      have zero : (0 : PrecDec) = zeroPrecDec := rfl
      rw [zero, Flow.coin_zero, Flow.coin_zero, sub_zero]
      exact .nil dex
  | @cons _ middle final firstIn firstOut restIn restOut first _ ih =>
      subst start
      have moves := Moves.cons (Move.visit first)
        (@ih { dex with book := middle } rfl)
      have flow : Flow.coin tradePairID.takerDenom (firstIn + restIn) -
          Flow.coin tradePairID.makerDenom (firstOut + restOut) =
          (Flow.coin tradePairID.takerDenom firstIn -
            Flow.coin tradePairID.makerDenom firstOut) +
          (Flow.coin tradePairID.takerDenom restIn -
            Flow.coin tradePairID.makerDenom restOut) := by
        rw [Flow.coin_add, Flow.coin_add]
        abel
      rw [flow]
      exact moves

end Moves

end Neutron.Dex
