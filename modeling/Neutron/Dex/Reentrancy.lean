import Neutron.Dex.Solvency

namespace Neutron.Dex

open Library PrecDec

/-! Solvency when hooks send messages to the dex.  While messages are under way, what is
held covers the reserves up to what the pending transfers are due to add. -/

def Frame.due (frame : Frame) : Flow :=
  frame.pending.due + (frame.rest.map Transfer.due).sum

structure Frame.Sound (frame : Frame) : Prop where
  pending : frame.pending.Sound
  rest : ∀ transfer ∈ frame.rest, transfer.Sound

structure World.SoundIn (world : World) (frames : List Frame) : Prop where
  wellFormed : world.dex.WellFormed
  each : ∀ frame ∈ frames, frame.Sound
  covered : world.dex.book.owed ≤ world.held + (frames.map Frame.due).sum

namespace World.SoundIn

variable {world : World} {frames : List Frame}

theorem sound (soundIn : world.SoundIn []) : world.Sound where
  wellFormed := soundIn.wellFormed
  covered := by
    have covered := soundIn.covered
    rwa [List.map_nil, List.sum_nil, add_zero] at covered

theorem of_sound (sound : world.Sound) : world.SoundIn [] where
  wellFormed := sound.wellFormed
  each _ member := nomatch member
  covered := by
    rw [List.map_nil, List.sum_nil, add_zero]
    exact sound.covered

end World.SoundIn

variable {world begun : World} {frames : List Frame} {next : Option Frame}

theorem beginNext_soundIn
    {transfers : List Transfer} (wellFormed : world.dex.WellFormed)
    (sound : ∀ frame ∈ frames, frame.Sound)
    (soundTransfers : ∀ transfer ∈ transfers, transfer.Sound)
    (covered : world.dex.book.owed ≤
      world.held + (transfers.map Transfer.due).sum + (frames.map Frame.due).sum)
    (ok : beginNext world transfers = .ok (next, begun)) :
    begun.SoundIn (next.toList ++ frames) := by
  cases transfers with
  | nil =>
      cases ok
      refine ⟨wellFormed, sound, ?_⟩
      rwa [List.map_nil, List.sum_nil, add_zero] at covered
  | cons transfer rest =>
      obtain ⟨⟨pending, after⟩, beganOk, ok⟩ := of_bind ok
      cases ok
      rw [List.forall_mem_cons] at soundTransfers
      have began := Transfer.begin_eq_ok soundTransfers.1 beganOk
      refine ⟨began.dex ▸ wellFormed, ?_, ?_⟩
      · rw [Option.toList_some, List.singleton_append, List.forall_mem_cons]
        exact ⟨⟨began.sound, soundTransfers.2⟩, sound⟩
      · rw [began.dex]
        refine covered.trans (le_of_eq ?_)
        simp only [Option.toList_some, List.singleton_append, List.map_cons, List.sum_cons,
          Frame.due, ← add_assoc, began.held]

/-- No fraction that a payment has read before its hooks is larger than the one stored
when it goes on. -/
def HookedWorld.Unspent (state : HookedWorld) : HookedAction → Prop
  | .proceed => ∀ frame ∈ state.frames.head?,
      frame.pending.Unspent state.world.dex.fractionalBalances
  | _ => True

instance (state : HookedWorld) :
    (action : HookedAction) → Decidable (state.Unspent action)
  | .proceed => inferInstanceAs (Decidable (∀ frame ∈ state.frames.head?, _))
  | .message _ | .fail | .purge _ _ _ | .nextBlock _ => .isTrue trivial

abbrev HookedWorld.Sound (state : HookedWorld) : Prop :=
  Nested.Keeps World.SoundIn state.world state.stack

section Step

variable {state : HookedWorld}

theorem prepare_soundIn {msg : Msg}
    {prepared : Prepared} (sound : world.SoundIn frames)
    (isPrepared : prepare world msg = .ok prepared)
    (ok : beginNext { world with dex := prepared.dex } prepared.transfers =
      .ok (next, begun)) :
    begun.SoundIn (next.toList ++ frames) := by
  have moved := prepare_moved sound.wellFormed (Rules.free_permits world msg prepared)
    isPrepared
  obtain ⟨flow, moves, covers⟩ := moved.moves
  have keeps := moves.keeps sound.wellFormed
  refine beginNext_soundIn keeps.wellFormed sound.each moved.sound ?_ ok
  have held : World.held { world with dex := prepared.dex } = world.held := by
    unfold World.held
    simp only [moves.fractionalBalances]
  rw [held, keeps.owed]
  intro denom
  have covered := sound.covered denom
  have flowCovers : flow denom ≤ (prepared.transfers.map Transfer.due).sum denom :=
    covers denom
  simp only [Pi.add_apply] at covered ⊢
  omega

variable {frame : Frame}

theorem finish_soundIn {finished : World}
    (sound : world.SoundIn (frame :: frames))
    (unspent : frame.pending.Unspent world.dex.fractionalBalances)
    (isFinished : frame.pending.finish world = .ok finished)
    (ok : beginNext finished frame.rest = .ok (next, begun)) :
    begun.SoundIn (next.toList ++ frames) := by
  have each := List.forall_mem_cons.mp sound.each
  have finishes := Pending.finish_eq_ok each.1.pending isFinished
  have wellFormed : finished.dex.WellFormed :=
    finishes.dex ▸ sound.wellFormed.settled _
  have book : finished.dex.book = world.dex.book := by rw [finishes.dex]
  refine beginNext_soundIn wellFormed each.2 each.1.rest ?_ ok
  rw [book]
  intro denom
  have covered := sound.covered denom
  have held := finishes.held_of_unspent unspent denom
  simp only [List.map_cons, List.sum_cons, Frame.due, Pi.add_apply] at covered held ⊢
  omega

theorem HookedWorld.Sound.receive (sound : state.Sound) (msg : Msg) :
    (state.receive msg).Sound := by
  unfold HookedWorld.receive
  dsimp only
  split
  · exact sound
  · rename_i world ok
    obtain ⟨prepared, isPrepared, ok⟩ := of_bind ok
    exact Nested.Keeps.update sound (prepare_soundIn (Nested.Keeps.now sound) isPrepared ok)
  · rename_i frame world ok
    obtain ⟨prepared, isPrepared, ok⟩ := of_bind ok
    exact Nested.Keeps.enter sound (prepare_soundIn (Nested.Keeps.now sound) isPrepared ok)

theorem HookedWorld.Sound.proceed (sound : state.Sound)
    (isTop : state.frames.head? = some frame)
    (unspent : frame.pending.Unspent state.world.dex.fractionalBalances) :
    (state.proceed frame).Sound := by
  have now : state.world.SoundIn (frame :: state.frames.tail) := by
    rw [List.cons_head?_tail isTop]
    exact Nested.Keeps.now sound
  unfold HookedWorld.proceed
  dsimp only
  split
  · exact Nested.Keeps.revert sound
  · rename_i world ok
    obtain ⟨finished, isFinished, ok⟩ := of_bind ok
    exact Nested.Keeps.leave sound (finish_soundIn now unspent isFinished ok)
  · rename_i next world ok
    obtain ⟨finished, isFinished, ok⟩ := of_bind ok
    exact Nested.Keeps.advance sound (finish_soundIn now unspent isFinished ok)

theorem HookedWorld.Sound.between (sound : state.Sound) (idle : state.frames = [])
    (kept : state.world.Sound → world.Sound) :
    HookedWorld.Sound (state.update world) := by
  have now := Nested.Keeps.now sound
  rw [idle] at now
  refine Nested.Keeps.update sound ?_
  rw [idle]
  exact .of_sound (kept now.sound)

theorem hookedStep_sound (sound : state.Sound) {action : HookedAction}
    (unspent : state.Unspent action) : (hookedStep state action).Sound := by
  cases action with
  | message msg =>
      unfold hookedStep
      dsimp only
      split
      · exact sound.receive msg
      · exact sound
  | proceed =>
      unfold hookedStep
      dsimp only
      cases isTop : state.frames.head? with
      | none => exact sound
      | some frame => exact sound.proceed isTop (unspent frame isTop)
  | fail => exact Nested.Keeps.revert sound
  | purge curTime gasAtStart gasConsumed =>
      unfold hookedStep
      dsimp only
      split
      · rename_i idle
        exact sound.between idle fun between =>
          step_sound between (.purge curTime gasAtStart gasConsumed)
      · exact sound
  | nextBlock blockTime =>
      unfold hookedStep
      dsimp only
      split
      · rename_i idle
        exact sound.between idle fun between => step_sound between (.nextBlock blockTime)
      · exact sound

end Step

/-- In every run in which no payment goes on after its hooks have used up a fraction that
it has read, the module account covers what the dex owes whenever no message is under way,
whatever messages the hooks send and however deep. -/
theorem dex_solvent_with_hooks (params : Params) (bank : Bank) (blockTime : Time)
    (authority : String) (actions : List HookedAction)
    (unspent : Machine.Allowed hookedStep HookedWorld.Unspent
      (Nested.idle (World.initial params bank blockTime authority)) actions)
    (idle : (Machine.run hookedStep
      (Nested.idle (World.initial params bank blockTime authority)) actions).frames = []) :
    (Machine.run hookedStep (Nested.idle (World.initial params bank blockTime authority))
      actions).world.Solvent := by
  have start : HookedWorld.Sound
      (Nested.idle (World.initial params bank blockTime authority)) :=
    .of_sound (World.sound_initial params bank blockTime authority)
  have sound := @Machine.Allowed.invariant _ _ hookedStep HookedWorld.Unspent
    HookedWorld.Sound (fun _ _ kept permitted => hookedStep_sound kept permitted) _ _ start
    unspent
  have now := Nested.Keeps.now sound
  rw [idle] at now
  exact (World.solvent_iff _).mpr now.sound.covered

section Examples

def unevenDeposit : Msg :=
  .deposit ⟨alice, "alice", "uatom", "untrn", [1], [2], [0], [1], [none]⟩

def shareWithdrawal : Msg :=
  .withdrawal ⟨alice, "alice", "uatom", "untrn", [1], [0], [1]⟩

/-- The second of three shares is withdrawn with a hook that runs before its `untrn`
move. -/
def withdrawals (hook : List HookedAction) : List HookedAction :=
  [.message unevenDeposit, .proceed, .proceed, .message shareWithdrawal, .proceed, .proceed,
    .message shareWithdrawal, .proceed] ++ hook ++ [.proceed]

/-- A hook that withdraws the third share is paid two thirds of an `untrn` which the
payment it interrupts has read and pays again: a third is owed that nobody holds. -/
theorem dex_insolvent_after_hook :
    let start := Nested.idle (World.initial defaultParams twoDenoms 5 "gov")
    let final := Machine.run hookedStep start
      (withdrawals [.message shareWithdrawal, .proceed, .proceed])
    final.frames = [] ∧ ¬ final.world.Solvent := by
  intro start final
  have ended : final.frames.length = 0 := by decide +kernel
  have short : final.world.bank.balance moduleName "untrn" * precisionReuse <
      final.world.dex.book.owed "untrn" +
        final.world.dex.fractionalBalances.owed "untrn" := by decide +kernel
  exact ⟨List.eq_nil_of_length_eq_zero ended, fun solvent => not_le.mpr short (solvent "untrn")⟩

theorem dex_solvent_with_hooks_deposit :
    let actions := withdrawals [.message unevenDeposit, .proceed, .proceed]
    (Machine.run hookedStep (Nested.idle (World.initial defaultParams twoDenoms 5 "gov"))
      actions).world.Solvent := by
  intro actions
  refine dex_solvent_with_hooks defaultParams twoDenoms 5 "gov" actions ?_
    (List.eq_nil_of_length_eq_zero ?_)
  · decide +kernel
  · decide +kernel

end Examples

end Neutron.Dex
