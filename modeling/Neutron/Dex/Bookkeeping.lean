import Neutron.Dex.Solvency

namespace Neutron.Dex

open Library PrecDec

def World.Reachable (world : World) : Prop :=
  ∃ params bank blockTime authority actions,
    world = Machine.run step (World.initial params bank blockTime authority) actions

variable {world : World}

theorem World.Reachable.sound (reachable : world.Reachable) :
    world.Sound := by
  obtain ⟨params, bank, blockTime, authority, actions, rfl⟩ := reachable
  exact @Machine.run_invariant _ _ step World.Sound
    (fun _ action sound => step_sound sound action) _
    (World.sound_initial params bank blockTime authority) actions

/-- The pools are numbered from zero, each under parameters of its own, and every lookup
finds the same pool. -/
theorem pool_lookups_agree (reachable : world.Reachable) :
    (∀ id, id < world.dex.poolCount ↔ ∃ key, world.dex.poolIDs.get? key = some id) ∧
    ∀ {key id}, world.dex.poolIDs.get? key = some id →
      (∀ other, world.dex.poolIDs.get? other = some id → other = key) ∧
      ∃ pool, world.dex.getPoolByID id = .ok (some pool) ∧
        world.dex.getPool key.pairID key.centerTickIndexNormalized key.fee =
          .ok (some pool) ∧
        world.dex.getOrInitPool key.pairID key.centerTickIndexNormalized key.fee =
          .ok (pool, world.dex) := by
  have registry := reachable.sound.wellFormed.registry
  refine ⟨fun id => ?_, fun {key id} found => ?_⟩
  · rw [← registry.ids]
    constructor
    · rintro ⟨metadata, stored⟩
      exact ⟨_, registry.referenced stored⟩
    · rintro ⟨key, found⟩
      exact ⟨_, registry.described found⟩
  · have stored := registry.described found
    obtain ⟨upperInRange, lowerInRange⟩ := registry.inRange found
    obtain ⟨pool, read⟩ := @getPoolByPoolID_total world.dex.book key id upperInRange
      lowerInRange
    refine ⟨fun other same => ?_, pool, ?_⟩
    · have unique := Option.some.inj ((registry.described same).symm.trans stored)
      cases key
      cases other
      cases unique
      rfl
    · simp only [DexState.getOrInitPool, DexState.getPool, DexState.getPoolByID,
        DexState.getPoolIDByParams, found, stored, read]
      exact ⟨rfl, rfl, rfl⟩

theorem pool_lookups_agree_deposited : ∃ pool,
    (step openWorld (.message (.deposit evenDeposit))).dex.getPoolByID 0 =
      .ok (some pool) := by
  have agree := @pool_lookups_agree (step openWorld (.message (.deposit evenDeposit)))
    ⟨defaultParams, tenEach, 5, "gov", [.message (.deposit evenDeposit)], rfl⟩
  obtain ⟨_, found⟩ := (agree.1 0).mp (by decide +kernel)
  obtain ⟨_, pool, byID, _⟩ := agree.2 found
  exact ⟨pool, byID⟩

variable {invariant : DexState → Prop}

theorem step_dex_invariant {rules : Time → Rules} {invariant : DexState → Prop}
    (kept : ∀ {now dex flow next}, dex.WellFormed → invariant dex →
      Move (rules now) dex flow next → invariant next)
    (settled : ∀ {dex} balances, invariant dex →
      invariant { dex with fractionalBalances := balances })
    {world : World} (action : Action)
    (permits : ∀ {msg prepared}, action = .message msg →
      (rules world.blockTime).Permits world msg prepared)
    (before : world.dex.WellFormed ∧ invariant world.dex) :
    (step world action).dex.WellFormed ∧ invariant (step world action).dex := by
  have moved : ∀ {now dex flow next}, dex.WellFormed ∧ invariant dex →
      Move (rules now) dex flow next → next.WellFormed ∧ invariant next :=
    fun inv move => ⟨(move.keeps inv.1).wellFormed, kept inv.1 inv.2 move⟩
  cases action with
  | message msg =>
      unfold step
      dsimp only
      cases delivered : deliver world msg with
      | error failure => exact before
      | ok final =>
          have delivers := deliver_delivers before.1 (fun _ => permits rfl) delivered
          exact delivers.invariant moved
            (fun balances inv => ⟨inv.1.settled balances, settled balances inv.2⟩) before
  | purge curTime gasAtStart gasConsumed =>
      exact (@purgeExpiredLimitOrders_moves (rules curTime) world.dex curTime gasAtStart
        gasConsumed).invariant moved before
  | nextBlock blockTime =>
      exact (@Moves.single (rules blockTime) world.dex _ _ (.countJITs 0)).invariant moved
        before

theorem dex_invariant_of_allowed {rules : Time → Rules} {invariant : DexState → Prop}
    {allowed : World → Action → Prop}
    (kept : ∀ {now dex flow next}, dex.WellFormed → invariant dex →
      Move (rules now) dex flow next → invariant next)
    (settled : ∀ {dex} balances, invariant dex →
      invariant { dex with fractionalBalances := balances })
    (empty : ∀ params, invariant (DexState.empty params))
    (permits : ∀ {world msg prepared}, allowed world (.message msg) →
      (rules world.blockTime).Permits world msg prepared)
    {params : Params} {bank : Bank} {blockTime : Time} {authority : String}
    {actions : List Action}
    (permitted : Machine.Allowed step allowed
      (World.initial params bank blockTime authority) actions) :
    invariant (Machine.run step (World.initial params bank blockTime authority)
      actions).dex := by
  refine (@Machine.Allowed.invariant _ _ step allowed
    (fun world => world.dex.WellFormed ∧ invariant world.dex) ?_ _ _
    ⟨(World.sound_initial params bank blockTime authority).wellFormed, empty params⟩
    permitted).2
  rintro world action before isAllowed
  refine @step_dex_invariant rules _ kept settled _ action ?_ before
  rintro msg prepared rfl
  exact permits isAllowed

theorem World.Reachable.dex_invariant
    (kept : ∀ {rules dex flow next}, dex.WellFormed → invariant dex →
      Move rules dex flow next → invariant next)
    (settled : ∀ {dex} balances, invariant dex →
      invariant { dex with fractionalBalances := balances })
    (empty : ∀ params, invariant (DexState.empty params))
    (reachable : world.Reachable) : invariant world.dex := by
  obtain ⟨params, bank, blockTime, authority, actions, rfl⟩ := reachable
  exact @dex_invariant_of_allowed .free _ (fun _ _ => True) kept settled empty
    (fun {world msg _} _ => Rules.free_permits world msg _) _ _ _ _ _
    (@Machine.allowed_of_forall _ _ step (fun _ => True) _ (fun _ _ => trivial) _)

/-- Tranches, their keys and the accounts that hold shares of them. -/
structure DexState.OrdersKept (dex : DexState) : Prop where
  exclusive : ∀ {activeKey inactiveKey active inactive},
    dex.book.getLimitOrderTranche activeKey = some active →
    dex.book.getInactiveLimitOrderTranche inactiveKey = some inactive →
      activeKey.trancheKey ≠ inactiveKey.trancheKey
  active_pos : ∀ {key tranche}, dex.book.getLimitOrderTranche key = some tranche →
    0 < tranche.decReservesMakerDenom.i
  inactive_pos : ∀ {key tranche},
    dex.book.getInactiveLimitOrderTranche key = some tranche →
      0 < tranche.decReservesMakerDenom.i ∨ 0 < tranche.decReservesTakerDenom.i
  issued : ∀ {key tranche},
    dex.book.getLimitOrderTranche key = some tranche ∨
      dex.book.getInactiveLimitOrderTranche key = some tranche →
    ∃ index < dex.trancheCount, key.trancheKey = trancheKeyText index
  shares_le : ∀ {key tranche},
    dex.book.getLimitOrderTranche key = some tranche ∨
      dex.book.getInactiveLimitOrderTranche key = some tranche →
    sharesOwned dex.trancheUsers key.trancheKey ≤ tranche.totalMakerDenom
  users : ∀ {key user}, dex.trancheUsers.get? key = some user →
    0 < user.sharesOwned ∧ 0 ≤ user.decSharesWithdrawn.i ∧
      user.decSharesWithdrawn < newPrecDecFromInt user.sharesOwned

theorem OrderBook.holds_of_found {book : OrderBook} {key : LimitOrderTrancheKey}
    {tranche : LimitOrderTranche}
    (found : book.getLimitOrderTranche key = some tranche ∨
      book.getInactiveLimitOrderTranche key = some tranche) :
    book.Holds tranche ∧ tranche.key = key := by
  rcases found with active | inactive
  · exact ⟨.of_active active, getLimitOrderTranche_key active⟩
  · exact ⟨.of_inactive inactive, book.inactiveTranches.keyOf_eq inactive⟩

theorem DexState.WellFormed.ordersKept {dex : DexState} (wellFormed : dex.WellFormed) :
    dex.OrdersKept where
  exclusive {_ _ _ _} isActive isInactive sameText := by
    obtain ⟨activeHeld, activeKey⟩ := OrderBook.holds_of_found (.inl isActive)
    obtain ⟨inactiveHeld, inactiveKey⟩ := OrderBook.holds_of_found (.inr isInactive)
    rw [← activeKey, ← inactiveKey] at sameText
    have sameKey := wellFormed.orders.unique activeHeld inactiveHeld sameText
    rw [activeKey, inactiveKey] at sameKey
    rw [← sameKey, wellFormed.book.exclusive isActive] at isInactive
    cases isInactive
  active_pos isActive := (wellFormed.book.active isActive).1
  inactive_pos isInactive := (wellFormed.book.inactive isInactive).1
  issued found := by
    obtain ⟨held, rfl⟩ := OrderBook.holds_of_found found
    exact wellFormed.orders.issued held
  shares_le found := by
    obtain ⟨held, rfl⟩ := OrderBook.holds_of_found found
    exact wellFormed.orders.shares held
  users stored := by
    have sound := wellFormed.orders.userSound stored
    exact ⟨sound.owned, sound.withdrawn, sound.remaining⟩

/-- The books of limit orders are kept in every run from an empty dex. -/
theorem orders_kept (params : Params) (bank : Bank) (blockTime : Time) (authority : String)
    (actions : List Action) :
    (Machine.run step (World.initial params bank blockTime authority)
      actions).dex.OrdersKept :=
  World.Reachable.sound ⟨params, bank, blockTime, authority, actions, rfl⟩ |>.wellFormed
    |>.ordersKept

end Neutron.Dex
