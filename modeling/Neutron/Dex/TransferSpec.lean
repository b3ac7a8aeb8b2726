import Neutron.Dex.Banker

namespace Neutron.Dex

open Library PrecDec

/-! Transfers as payments. -/

/-- A payment: only balances and supplies change, and what is held changes by `flow`. -/
structure Pays (world : World) (flow issued : Flow) (final : World) : Prop where
  dex : final.dex = { world.dex with
    fractionalBalances := final.dex.fractionalBalances }
  held : final.held = world.held + flow
  supply : ∀ denom, (final.bank.supply denom : Int) =
    world.bank.supply denom + issued denom
  blockTime : final.blockTime = world.blockTime
  authority : final.authority = world.authority

namespace Pays

variable {world middle final : World} {first rest issuedFirst issuedRest : Flow}

theorem refl (world : World) : Pays world 0 0 world :=
  ⟨rfl, (add_zero _).symm, fun _ => (add_zero _).symm, rfl, rfl⟩

theorem trans (left : Pays world first issuedFirst middle)
    (right : Pays middle rest issuedRest final) :
    Pays world (first + rest) (issuedFirst + issuedRest) final where
  dex := by rw [right.dex, left.dex]
  held := by rw [right.held, left.held, add_assoc]
  supply denom := by rw [right.supply, left.supply, add_assoc, Pi.add_apply]
  blockTime := right.blockTime.trans left.blockTime
  authority := right.authority.trans left.authority

end Pays

namespace Transfer

def due : Transfer → Flow
  | .payIn _ tokens => tokens.flow
  | .payOut _ tokens => -tokens.flow
  | .mintShares _ _ | .burnShares _ _ => 0

def issued : Transfer → Flow
  | .payIn _ _ | .payOut _ _ => 0
  | .mintShares _ shares => Tally.amountOf shares
  | .burnShares _ shares => -Tally.amountOf shares

def Sound : Transfer → Prop
  | .payIn address _ | .burnShares address _ => address ≠ moduleName
  | .payOut _ tokens => ∀ denom, 0 ≤ (Tally.amountOf tokens denom).i
  | .mintShares _ _ => True

end Transfer

namespace Pending

def due : Pending → Flow
  | .payIn _ tokens _ => tokens.flow
  | .payOut _ tokens _ => -tokens.flow
  | .sendShares _ shares => -shares.flow
  | .collectShares _ _ => 0

def issued : Pending → Flow
  | .payIn _ _ _ | .payOut _ _ _ | .sendShares _ _ => 0
  | .collectShares _ shares => -Tally.amountOf shares

def Sound : Pending → Prop
  | .payIn address tokens quote =>
      address ≠ moduleName ∧ quote.Settles tokens quote.coins.flow tokens.flow
  | .payOut _ tokens quote => quote.Settles tokens (-quote.coins.flow) (-tokens.flow)
  | .sendShares _ _ => True
  | .collectShares address _ => address ≠ moduleName

def Reads (balances : FractionalBalances) : Pending → Prop
  | .payIn address _ quote | .payOut address _ quote => quote.Reads balances address
  | .sendShares _ _ | .collectShares _ _ => True

def Unspent (balances : FractionalBalances) : Pending → Prop
  | .payIn address tokens quote | .payOut address tokens quote =>
      quote.Unspent balances address tokens
  | .sendShares _ _ | .collectShares _ _ => True

instance (balances : FractionalBalances) :
    (pending : Pending) → Decidable (pending.Unspent balances)
  | .payIn address tokens quote | .payOut address tokens quote =>
      inferInstanceAs (Decidable (quote.Unspent balances address tokens))
  | .sendShares _ _ | .collectShares _ _ => .isTrue trivial

structure Finishes (pending : Pending) (world final : World) : Prop where
  dex : final.dex = { world.dex with
    fractionalBalances := final.dex.fractionalBalances }
  held_of_reads : pending.Reads world.dex.fractionalBalances →
    final.held = world.held + pending.due
  held_of_unspent : pending.Unspent world.dex.fractionalBalances →
    world.held + pending.due ≤ final.held
  supply : ∀ denom, (final.bank.supply denom : Int) =
    world.bank.supply denom + pending.issued denom
  blockTime : final.blockTime = world.blockTime
  authority : final.authority = world.authority

theorem finishes_of_bank {pending : Pending} {world : World} {bank : Bank}
    (held : World.held { world with bank := bank } = world.held + pending.due)
    (supply : ∀ denom, (bank.supply denom : Int) =
      world.bank.supply denom + pending.issued denom) :
    pending.Finishes world { world with bank := bank } where
  dex := rfl
  held_of_reads _ := held
  held_of_unspent _ := held.ge
  supply := supply
  blockTime := rfl
  authority := rfl

theorem finish_eq_ok {pending : Pending} {world final : World} (sound : pending.Sound)
    (ok : pending.finish world = .ok final) : pending.Finishes world final := by
  cases pending with
  | payIn address tokens quote =>
      obtain ⟨bank, send, ok⟩ := of_bind ok
      cases ok
      obtain ⟨supply, moved⟩ := Bank.of_unlessEmpty_payIn sound.1 send
      have credited (denom : String) : (bank.balance moduleName denom * precisionReuse : Int) =
          world.bank.balance moduleName denom * precisionReuse + quote.coins.flow denom := by
        rw [moved, Int.add_mul, Coins.flow]
      exact {
        dex := rfl
        held_of_reads := fun reads => sound.2.held_of_reads reads credited
        held_of_unspent := fun unspent => sound.2.held_of_unspent unspent credited
        supply := fun denom => by rw [supply, issued, Pi.zero_apply, add_zero]
        blockTime := rfl
        authority := rfl }
  | payOut address tokens quote =>
      obtain ⟨bank, send, ok⟩ := of_bind ok
      cases ok
      obtain ⟨supply, moved⟩ := Bank.of_unlessEmpty_payOut send
      have credited (denom : String) : (bank.balance moduleName denom * precisionReuse : Int) =
          world.bank.balance moduleName denom * precisionReuse +
            (-quote.coins.flow) denom := by
        rw [moved, Int.sub_mul, Pi.neg_apply, Coins.flow, sub_eq_add_neg]
      exact {
        dex := rfl
        held_of_reads := fun reads => Quote.Settles.held_of_reads sound reads credited
        held_of_unspent := fun unspent => Quote.Settles.held_of_unspent sound unspent credited
        supply := fun denom => by rw [supply, issued, Pi.zero_apply, add_zero]
        blockTime := rfl
        authority := rfl }
  | sendShares address shares =>
      obtain ⟨bank, send, ok⟩ := of_bind ok
      cases ok
      obtain ⟨external, sent⟩ := Bank.sendCoinsFromModuleToAccount_eq_ok send
      refine finishes_of_bank ?_ fun denom => ?_
      · funext denom
        have balance := Bank.sendCoins_balance sent moduleName denom
        rw [if_pos rfl, if_neg external.symm, add_zero] at balance
        simp only [World.held, due, Pi.add_apply, Pi.neg_apply, Coins.flow]
        rw [balance, Int.sub_mul]
        omega
      · rw [(Bank.sendCoins_supply sent).1, issued, Pi.zero_apply, add_zero]
  | collectShares address shares =>
      obtain ⟨bank, burn, ok⟩ := of_bind ok
      cases ok
      obtain ⟨balance, supply⟩ := burnShares_eq_ok sound burn
      refine finishes_of_bank ?_ fun denom => ?_
      · funext denom
        simp only [World.held, due, balance, Pi.add_apply, Pi.zero_apply, add_zero]
      · rw [supply, issued, Pi.neg_apply, sub_eq_add_neg]

end Pending

namespace Transfer

structure Begins (transfer : Transfer) (world : World) (pending : Pending) (begun : World) :
    Prop where
  sound : pending.Sound
  reads : pending.Reads begun.dex.fractionalBalances
  dex : begun.dex = world.dex
  held : begun.held + pending.due = world.held + transfer.due
  supply : ∀ denom, (begun.bank.supply denom : Int) + pending.issued denom =
    world.bank.supply denom + transfer.issued denom
  blockTime : begun.blockTime = world.blockTime
  authority : begun.authority = world.authority

theorem begin_eq_ok {transfer : Transfer} {world begun : World} {pending : Pending}
    (sound : transfer.Sound) (ok : transfer.begin world = .ok (pending, begun)) :
    transfer.Begins world pending begun := by
  cases transfer with
  | payIn address tokens =>
      obtain ⟨quote, quoted, ok⟩ := of_bind ok
      cases ok
      obtain ⟨settles, reads⟩ := quoteIn_settles quoted
      exact ⟨⟨sound, settles⟩, reads, rfl, rfl, fun _ => rfl, rfl, rfl⟩
  | payOut address tokens =>
      obtain ⟨quote, quoted, ok⟩ := of_bind ok
      cases ok
      obtain ⟨settles, reads⟩ := quoteOut_settles sound quoted
      exact ⟨settles, reads, rfl, rfl, fun _ => rfl, rfl, rfl⟩
  | mintShares address shares =>
      obtain ⟨bank, minted, ok⟩ := of_bind ok
      cases ok
      obtain ⟨_, balance, supply⟩ := Bank.mintCoins_eq_ok minted
      refine ⟨trivial, trivial, rfl, ?_, fun denom => ?_, rfl, rfl⟩
      · funext denom
        have credited := balance moduleName denom
        rw [if_pos rfl] at credited
        simp only [World.held, Pending.due, due, Pi.add_apply, Pi.neg_apply, Pi.zero_apply,
          Coins.flow]
        rw [credited, Int.add_mul]
        omega
      · rw [supply, Pending.issued, issued, Pi.zero_apply, add_zero]
  | burnShares address shares =>
      cases ok
      exact ⟨sound, trivial, rfl, rfl, fun _ => rfl, rfl, rfl⟩

theorem run_pays {transfer : Transfer} {world final : World} (sound : transfer.Sound)
    (ok : transfer.run world = .ok final) :
    Pays world transfer.due transfer.issued final := by
  obtain ⟨⟨pending, begun⟩, beganOk, ok⟩ := of_bind ok
  have began := begin_eq_ok sound beganOk
  have finished := Pending.finish_eq_ok began.sound ok
  exact {
    dex := by rw [finished.dex, began.dex]
    held := by rw [finished.held_of_reads began.reads, began.held]
    supply := fun denom => (finished.supply denom).trans (began.supply denom)
    blockTime := finished.blockTime.trans began.blockTime
    authority := finished.authority.trans began.authority }

end Transfer

theorem settle_pays {transfers : List Transfer} {world final : World}
    (sound : ∀ transfer ∈ transfers, transfer.Sound)
    (ok : settle world transfers = .ok final) :
    Pays world (transfers.map Transfer.due).sum (transfers.map Transfer.issued).sum
      final := by
  induction transfers generalizing world with
  | nil =>
      cases ok
      exact .refl final
  | cons transfer rest ih =>
      obtain ⟨middle, first, ok⟩ := of_bind ok
      rw [List.map_cons, List.map_cons, List.sum_cons, List.sum_cons]
      exact (Transfer.run_pays (sound transfer List.mem_cons_self) first).trans
        (ih (fun other member => sound other (List.mem_cons_of_mem _ member)) ok)

theorem PrecDecCoins.flow_of_entries {tokens : PrecDecCoins} (empty : tokens.entries = []) :
    tokens.flow = 0 := by
  funext denom
  rw [PrecDecCoins.flow, ← Tally.listed_entries, empty]
  rfl

theorem single_nonneg {coin : PrecDecCoin} (nonneg : 0 ≤ coin.amount.i) (denom : String) :
    0 ≤ (Tally.amountOf (PrecDecCoins.single coin) denom).i := by
  have flow := congrFun (flow_single coin) denom
  rw [PrecDecCoins.flow] at flow
  rw [flow]
  exact Flow.coin_nonneg nonneg _ _

/-- What a message does: moves of the dex, and payments that cover what the moves
add to the reserves. -/
structure Delivers (rules : Rules) (world final : World) : Prop where
  moved : ∃ flow dex, Moves rules world.dex flow dex ∧
    final.dex = { dex with fractionalBalances := final.dex.fractionalBalances } ∧
    world.held + flow ≤ final.held
  blockTime : final.blockTime = world.blockTime
  authority : final.authority = world.authority

namespace Delivers

variable {rules : Rules} {world final : World} {dex : DexState} {flow paid : Flow}

theorem of_pays (moves : Moves rules world.dex flow dex) {issued : Flow}
    (pays : Pays { world with dex := dex } paid issued final) (covers : flow ≤ paid) :
    Delivers rules world final where
  moved := by
    have held : World.held { world with dex := dex } = world.held := by
      unfold World.held
      simp only [moves.fractionalBalances]
    refine ⟨flow, dex, moves, pays.dex, ?_⟩
    rw [pays.held, held]
    exact fun denom => Int.add_le_add_left (covers denom) _
  blockTime := pays.blockTime
  authority := pays.authority

theorem invariant {invariant : DexState → Prop} (delivers : Delivers rules world final)
    (kept : ∀ {dex flow next}, invariant dex → Move rules dex flow next → invariant next)
    (settled : ∀ {dex} balances, invariant dex →
      invariant { dex with fractionalBalances := balances })
    (start : invariant world.dex) : invariant final.dex := by
  obtain ⟨flow, dex, moves, isFinal, _⟩ := delivers.moved
  rw [isFinal]
  exact settled _ (moves.invariant kept start)

end Delivers

end Neutron.Dex
