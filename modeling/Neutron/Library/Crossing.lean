import Mathlib.Algebra.Order.Group.Unbundled.Basic
import Mathlib.Order.Bounds.Basic

namespace Library

universe u v

/-! Books with offers on opposite sides.  Each offer stands at a tick, and two
offers of opposite sides cross if their ticks add up to less than nothing. -/

namespace Crossing

variable {Side : Type u} {Tick : Type v} [AddCommGroup Tick] [LinearOrder Tick]
  (opposite : Side → Side)

def Uncrossed (offers : Side → Set Tick) : Prop :=
  ∀ side, ∀ low ∈ offers side, ∀ high ∈ offers (opposite side), 0 ≤ low + high

def Clear (offers : Side → Set Tick) (side : Side) (tick : Tick) : Prop :=
  ∀ high ∈ offers (opposite side), -tick ≤ high

variable {opposite} {offers added next : Side → Set Tick}

theorem Uncrossed.mono (uncrossed : Uncrossed opposite offers)
    (fewer : ∀ side, next side ⊆ offers side) : Uncrossed opposite next :=
  fun side low isLow high isHigh =>
    uncrossed side low (fewer side isLow) high (fewer _ isHigh)

theorem Uncrossed.clear [AddLeftMono Tick] (uncrossed : Uncrossed opposite offers)
    {side : Side} {tick : Tick} (offered : tick ∈ offers side) :
    Clear opposite offers side tick :=
  fun high isHigh => neg_le_iff_add_nonneg'.mpr (uncrossed side tick offered high isHigh)

theorem Uncrossed.add [AddLeftMono Tick] (involutive : Function.Involutive opposite)
    (uncrossed : Uncrossed opposite offers) (apart : Uncrossed opposite added)
    (clear : ∀ side, ∀ tick ∈ added side, Clear opposite offers side tick)
    (grown : ∀ side, next side ⊆ offers side ∪ added side) : Uncrossed opposite next := by
  intro side low isLow high isHigh
  rcases grown side isLow with oldLow | newLow
  · rcases grown _ isHigh with oldHigh | newHigh
    · exact uncrossed side low oldLow high oldHigh
    · have above := clear _ high newHigh low (by rwa [involutive side])
      rw [add_comm]
      exact neg_le_iff_add_nonneg'.mp above
  · rcases grown _ isHigh with oldHigh | newHigh
    · exact neg_le_iff_add_nonneg'.mp (clear side low newLow high oldHigh)
    · exact apart side low newLow high newHigh

theorem Uncrossed.of_isLeast (uncrossed : Uncrossed opposite offers) {side : Side}
    {low high : Tick} (isLow : IsLeast (offers side) low)
    (isHigh : IsLeast (offers (opposite side)) high) : 0 ≤ low + high :=
  uncrossed side low isLow.1 high isHigh.1

end Crossing

end Library
