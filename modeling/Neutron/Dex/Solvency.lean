import Neutron.Dex.MessageMoves

namespace Neutron.Dex

open Library PrecDec

def Rules.free (now : Time) : Rules :=
  ⟨now, fun _ _ => True, fun _ _ => True, fun _ => True⟩

theorem Rules.free_permits (world : World) (msg : Msg) (prepared : Prepared) :
    (Rules.free world.blockTime).Permits world msg prepared where
  now := rfl
  pays _ _ _ := trivial
  cancels _ _ _ := trivial
  funded _ _ := trivial

/-- What the module account has of each denom is at least what is in pools and tranches,
and what accounts are owed in fractions. -/
def World.Solvent (world : World) : Prop :=
  ∀ denom, world.dex.book.owed denom + world.dex.fractionalBalances.owed denom ≤
    world.bank.balance moduleName denom * precisionReuse

theorem World.solvent_iff (world : World) :
    world.Solvent ↔ world.dex.book.owed ≤ world.held :=
  forall_congr' fun _ => le_sub_iff_add_le.symm

structure World.Sound (world : World) : Prop where
  wellFormed : world.dex.WellFormed
  covered : world.dex.book.owed ≤ world.held

theorem World.sound_initial (params : Params) (bank : Bank) (blockTime : Time)
    (authority : String) : (World.initial params bank blockTime authority).Sound where
  wellFormed := DexState.wellFormed_empty params
  covered denom := by
    have owed : (DexState.empty params).book.owed denom = 0 := rfl
    have fractions : (DexState.empty params).fractionalBalances.owed denom = 0 := rfl
    unfold World.held World.initial
    rw [owed, fractions]
    rw [sub_zero]
    exact Int.mul_nonneg (Int.natCast_nonneg _) (by decide)

theorem DexState.WellFormed.settled {dex : DexState} (wellFormed : dex.WellFormed)
    (balances : FractionalBalances) :
    DexState.WellFormed { dex with fractionalBalances := balances } :=
  ⟨wellFormed.book, wellFormed.registry, wellFormed.pools, wellFormed.orders⟩

section Step

variable {rules : Rules} {world final : World}

theorem Delivers.sound (delivers : Delivers rules world final) (sound : world.Sound) :
    final.Sound := by
  obtain ⟨flow, dex, moves, settled, held⟩ := delivers.moved
  have keeps := moves.keeps sound.wellFormed
  refine ⟨settled ▸ keeps.wellFormed.settled _, ?_⟩
  have book : final.dex.book = dex.book := by rw [settled]
  rw [book, keeps.owed]
  exact fun denom => (Int.add_le_add_right (sound.covered denom) _).trans (held denom)

theorem World.Sound.of_moves (sound : world.Sound) {dex : DexState}
    (moves : Moves rules world.dex 0 dex) (blockTime : Time) :
    World.Sound { world with dex := dex, blockTime := blockTime } := by
  have keeps := moves.keeps sound.wellFormed
  refine ⟨keeps.wellFormed, ?_⟩
  have held : World.held { world with dex := dex, blockTime := blockTime } =
      world.held := by
    unfold World.held
    simp only [moves.fractionalBalances]
  rw [held, keeps.owed, add_zero]
  exact sound.covered

theorem step_sound (sound : world.Sound) (action : Action) : (step world action).Sound := by
  cases action with
  | message msg =>
      unfold step
      dsimp only
      cases delivered : deliver world msg with
      | error failure => exact sound
      | ok final =>
          exact (deliver_delivers sound.wellFormed
            (fun _ => Rules.free_permits world msg _) delivered).sound sound
  | purge curTime gasAtStart gasConsumed =>
      exact sound.of_moves (@purgeExpiredLimitOrders_moves (.free curTime) _ curTime
        gasAtStart gasConsumed) world.blockTime
  | nextBlock blockTime =>
      exact sound.of_moves (@Moves.single (.free blockTime) _ _ _ (.countJITs 0)) blockTime

end Step

/-- In every run from an empty dex, whoever sends which messages and whenever expired
orders are purged, the module account covers what the dex owes. -/
theorem dex_solvent (params : Params) (bank : Bank) (blockTime : Time) (authority : String)
    (actions : List Action) :
    (Machine.run step (World.initial params bank blockTime authority) actions).Solvent := by
  have sound := @Machine.run_invariant _ _ step World.Sound
    (fun _ action sound => step_sound sound action) _
    (World.sound_initial params bank blockTime authority) actions
  exact (World.solvent_iff _).mpr sound.covered

end Neutron.Dex
