import Neutron.Dex.State

namespace Neutron.Dex

open Library

/-! The pool registry (`x/dex/keeper/pool.go`, `pool_metadata.go`). -/

/-- `getPoolByPoolID`: a missing side is rebuilt empty from the other one, a pool
with no stored side from its parameters. -/
def getPoolByPoolID (book : OrderBook) (poolID : Nat) (pairID : PairID)
    (centerTickIndexNormalized : Int) (fee : Nat) : Outcome Pool :=
  let id0To1 := upperTickKey pairID centerTickIndexNormalized fee
  match book.getPoolReserves id0To1.counterpart, book.getPoolReserves id0To1 with
  | some lowerTick, some upperTick => pure ⟨lowerTick, upperTick, poolID⟩
  | none, some upperTick => do
      let lowerTick ← newPoolReservesFromCounterpart upperTick
      pure ⟨lowerTick, upperTick, poolID⟩
  | some lowerTick, none => do
      let upperTick ← newPoolReservesFromCounterpart lowerTick
      pure ⟨lowerTick, upperTick, poolID⟩
  | none, none =>
      -- `MustNewPool`
      match newPool pairID centerTickIndexNormalized fee poolID with
      | .ok pool => pure pool
      | .error _ => abort .tickOutsideRange

namespace DexState

variable (dex : DexState)

def getPoolIDByParams (pairID : PairID) (centerTickIndexNormalized : Int)
    (fee : Nat) : Option Nat :=
  dex.poolIDs.get? ⟨pairID, centerTickIndexNormalized, fee⟩

def getPool (pairID : PairID) (centerTickIndexNormalized : Int) (fee : Nat) :
    Outcome (Option Pool) :=
  match dex.getPoolIDByParams pairID centerTickIndexNormalized fee with
  | none => pure none
  | some poolID => do
      let pool ← getPoolByPoolID dex.book poolID pairID centerTickIndexNormalized fee
      pure (some pool)

def getPoolByID (poolID : Nat) : Outcome (Option Pool) :=
  match dex.poolMetadata.get? poolID with
  | none => pure none
  | some poolMetadata => do
      let pool ← getPoolByPoolID dex.book poolID poolMetadata.pairID
        poolMetadata.tick poolMetadata.fee
      pure (some pool)

def storePoolIDRef (poolID : Nat) (pairID : PairID)
    (centerTickIndexNormalized : Int) (fee : Nat) : DexState :=
  { dex with poolIDs :=
      dex.poolIDs.set ⟨pairID, centerTickIndexNormalized, fee⟩ poolID }

/-- `initializePoolMetadata`; the new pool gets the running count as its id. -/
def initializePoolMetadata (pairID : PairID) (centerTickIndexNormalized : Int)
    (fee : Nat) : Nat × DexState :=
  let poolID := dex.poolCount
  let poolMetadata : PoolMetadata := ⟨poolID, pairID, centerTickIndexNormalized, fee⟩
  (poolID, { dex with
    poolMetadata := dex.poolMetadata.set poolMetadata
    poolCount := dex.poolCount + 1 })

def initPool (pairID : PairID) (centerTickIndexNormalized : Int) (fee : Nat) :
    Outcome (Pool × DexState) := do
  let (poolID, registered) :=
    dex.initializePoolMetadata pairID centerTickIndexNormalized fee
  let referenced :=
    registered.storePoolIDRef poolID pairID centerTickIndexNormalized fee
  let pool ← newPool pairID centerTickIndexNormalized fee poolID
  pure (pool, referenced)

def getOrInitPool (pairID : PairID) (centerTickIndexNormalized : Int) (fee : Nat) :
    Outcome (Pool × DexState) := do
  match ← dex.getPool pairID centerTickIndexNormalized fee with
  | some pool => pure (pool, dex)
  | none => dex.initPool pairID centerTickIndexNormalized fee

end DexState

end Neutron.Dex
