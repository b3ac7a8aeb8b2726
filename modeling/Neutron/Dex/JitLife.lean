import Neutron.Dex.JitCap
import Neutron.Dex.KeyBytes
import Neutron.Dex.Purge

namespace Neutron.Dex

open Library

/-! How long a JIT order lives.  Its record is stored under second zero, before those of
all orders that expire at a time, and a purge does not count gas until it is past it. -/

variable {dex next : DexState} {record : LimitOrderExpiration}

theorem dropExpiration_expiration {tranche : LimitOrderTranche}
    {key : LimitOrderExpirationKey}
    (stored : (dropExpiration dex tranche).expirations.get? key = some record) :
    dex.expirations.get? key = some record := by
  unfold dropExpiration at stored
  split at stored
  · exact stored
  · split at stored
    · exact stored
    · exact (IndexedStore.get?_of_get?_delete _ stored).2

theorem Move.expiration {rules : Rules} {flow : Flow} (move : Move rules dex flow next)
    {key : LimitOrderExpirationKey}
    (stored : next.expirations.get? key = some record) :
    dex.expirations.get? key = some record ∨ Timely rules.now record.expirationTime := by
  cases move with
  | @place tranche _ _ _ amount opens _ _ _ =>
      rw [DexState.updateTrancheUser_eq] at stored
      cases opens with
      | existing _ permanent _ =>
          rw [DexState.recordExpirationOf, LimitOrderTranche.placed, permanent] at stored
          exact .inl stored
      | @fresh _ _ goodTil _ timely =>
          cases goodTil with
          | none => exact .inl stored
          | some expirationTime =>
              rcases IndexedStore.get?_of_get?_set _ stored with rfl | ⟨_, before⟩
              · exact .inr (timely _ rfl)
              · exact .inl before
  | cancelActive _ _ _ _ | cancelInactive _ _ _ _ =>
      rw [DexState.updateTrancheUser_eq] at stored
      have kept := dropExpiration_expiration stored
      exact .inl kept
  | withdrawActive _ _ _ _ _ | withdrawInactive _ _ _ _ _ =>
      rw [DexState.updateTrancheUser_eq] at stored
      exact .inl stored
  | dropRecord _ | archive _ =>
      exact .inl (IndexedStore.get?_of_get?_delete _ stored).2
  | _ => exact .inl stored

theorem key_lt_of_jit {later : LimitOrderExpiration}
    (isJIT : record.expirationTime = jitGoodTilTime)
    (timely : Timely (10 ^ 9) later.expirationTime)
    (goodTil : later.expirationTime ≠ jitGoodTilTime) : record.key < later.key := by
  obtain ⟨modern, bounded⟩ := timely.resolve_left goodTil
  refine Prod.Lex.left _ _ ?_
  unfold timeBytes
  dsimp only
  rw [if_pos isJIT, if_neg goodTil]
  unfold unixSeconds
  have positive : ∀ time : Int, 10 ^ 9 < time → time < 253402300800 * 10 ^ 9 →
      0 < (time / 10 ^ 9 % 2 ^ 64).toNat := by omega
  exact uint64ToSortableString_lt (positive _ modern bounded) (by omega)

/-- A purge removes the first of the records, and leaves no JIT order for the gas. -/
theorem purgeLoop_removes_first {curTime : Time} {gasCutoff : Nat}
    {gasConsumed : Nat → Nat} (started : jitGoodTilTime ≤ curTime)
    (records : List LimitOrderExpiration) (turn : Nat) {state : PurgeState}
    (archived : state.Archived) :
    ∃ removed rest, records = removed ++ rest ∧
      Removes removed state.dex
        (purgeLoop curTime gasCutoff gasConsumed records turn state).dex ∧
      (state.inGoodTilSegment = false →
        (∀ record ∈ removed, record.expirationTime = jitGoodTilTime) →
          ∀ record ∈ rest.head?, record.expirationTime ≠ jitGoodTilTime) := by
  induction records generalizing turn state with
  | nil =>
      refine ⟨[], [], rfl, .nil _, ?_⟩
      intro _ _ record isFirst
      cases isFirst
  | cons first records ih =>
      unfold purgeLoop
      dsimp only
      split
      · rename_i later
        refine ⟨[], _, rfl, .nil _, ?_⟩
        intro _ _ record isFirst
        cases isFirst
        exact (started.trans_lt later).ne'
      · split
        · rename_i cut
          refine ⟨[], _, rfl, .nil _, ?_⟩
          intro counting _ record isFirst isJIT
          cases isFirst
          rw [counting, isJIT] at cut
          exact absurd cut.1 (by decide)
        · have entered : PurgeState.Archived ⟨state.dex, state.inGoodTilSegment ||
              decide (first.expirationTime ≠ jitGoodTilTime), state.archivedTranches⟩ :=
            archived
          obtain ⟨removed, rest, split, removes, stops⟩ := ih (turn + 1)
            (@purgeRecord_moves (.free curTime) _ entered first).2
          have taken := purgeRecord_getLimitOrderTranche entered first
          refine ⟨first :: removed, rest, congrArg _ split,
            .cons (by exact purgeRecord_expirations _ _) taken removes, ?_⟩
          intro counting jits
          obtain ⟨isJIT, others⟩ := List.forall_mem_cons.mp jits
          refine stops ?_ others
          rw [purgeRecord_inGoodTilSegment, counting, isJIT]
          rfl

/-- Messages are delivered in blocks of the second after the epoch and later. -/
def Modern (world : World) (action : Action) : Prop :=
  ∀ msg, action = .message msg → 10 ^ 9 ≤ world.blockTime

variable {params : Params} {bank : Bank} {blockTime : Time} {authority : String}
  {actions : List Action}

theorem run_timely
    (modern : Machine.Allowed step Modern (World.initial params bank blockTime authority)
      actions) : ∀ key record,
    (Machine.run step (World.initial params bank blockTime authority)
      actions).dex.expirations.get? key = some record →
        Timely (10 ^ 9) record.expirationTime := by
  refine @dex_invariant_of_allowed (fun now => .free (max (10 ^ 9) now)) (fun dex => ∀ key
    record, dex.expirations.get? key = some record → Timely (10 ^ 9) record.expirationTime)
    Modern ?_ (fun _ kept => kept) ?_ ?_ _ _ _ _ _ modern
  · intro now dex flow next _ kept move key record stored
    rcases move.expiration stored with before | isJIT | ⟨later, bounded⟩
    · exact kept key record before
    · exact .inl isJIT
    · exact .inr ⟨(le_max_left _ _).trans_lt later, bounded⟩
  · intro _ key record stored
    cases stored
  · intro world msg prepared isModern
    rw [max_eq_right (isModern msg rfl)]
    exact Rules.free_permits world msg prepared

/-- Whatever gas a purge consumes, no JIT order is on the book after it. -/
theorem purge_removes_jits
    (modern : Machine.Allowed step Modern (World.initial params bank blockTime authority)
      actions) {curTime : Time} (started : jitGoodTilTime ≤ curTime) (gasAtStart : Nat)
    (gasConsumed : Nat → Nat) {key : LimitOrderTrancheKey} {tranche : LimitOrderTranche}
    (active : (purgeExpiredLimitOrders
      (Machine.run step (World.initial params bank blockTime authority) actions).dex curTime
        gasAtStart gasConsumed).book.getLimitOrderTranche key = some tranche) :
    ¬ tranche.IsJIT := by
  intro isJIT
  have timely := run_timely modern
  have linked := World.Reachable.expirationsLinked ⟨params, bank, blockTime, authority,
    actions, rfl⟩
  generalize (Machine.run step _ actions).dex = dex at *
  have start : PurgeState.Archived ⟨dex, false, []⟩ := by rintro key ⟨⟩
  unfold purgeExpiredLimitOrders at active
  obtain ⟨removed, rest, values, removes, stops⟩ :=
    purgeLoop_removes_first started dex.expirations.values 0 start
  have untouched : ∀ record ∈ removed, record.trancheRef ≠ key := by
    rintro record member rfl
    rw [removes.archived record member] at active
    cases active
  rw [removes.active key untouched] at active
  have member := (dex.expirations.mem_values_iff _).mpr (linked.recorded active isJIT)
  have earlier : ∀ other ∈ dex.expirations.values,
      other.key < LimitOrderExpiration.key ⟨key, jitGoodTilTime⟩ →
        other.expirationTime = jitGoodTilTime := by
    intro other stored below
    by_contra goodTil
    exact lt_asymm below (key_lt_of_jit rfl
      (timely _ _ ((dex.expirations.mem_values_iff other).mp stored)) goodTil)
  have increasing := dex.expirations.values_increasing
  rw [values] at member earlier increasing
  obtain ⟨_, restIncreasing, apart⟩ := List.pairwise_append.mp increasing
  have inRest := (List.mem_append.mp member).resolve_left
    fun isRemoved => untouched _ isRemoved rfl
  cases rest with
  | nil => cases inRest
  | cons first rest =>
      refine stops rfl (fun record isRemoved => earlier record
        (List.mem_append_left _ isRemoved) (apart record isRemoved _ inRest)) first rfl ?_
      rcases List.mem_cons.mp inRest with rfl | isLater
      · rfl
      · exact earlier first (List.mem_append_right _ List.mem_cons_self)
          ((List.pairwise_cons.mp restIncreasing).1 _ isLater)

theorem purge_removes_jits_placed :
    let dex := (Machine.run step (World.initial defaultParams tenEach (10 ^ 9) "gov")
      [.message (.placeLimitOrder jitOrder),
        .message (.placeLimitOrder { jitOrder with orderType := .goodTilCancelled })]).dex
    let purged := purgeExpiredLimitOrders dex 0 0 fun _ => 10 ^ 18
    let key : LimitOrderTrancheKey := ⟨⟨"untrn", "uatom", by decide⟩, 0, "tk-1"⟩
    dex.expirations.values.length = 1 ∧
      ∃ tranche, purged.book.getLimitOrderTranche key = some tranche ∧ ¬ tranche.IsJIT := by
  intro dex purged key
  have present : (purged.book.getLimitOrderTranche key).isSome := by decide +kernel
  obtain ⟨tranche, active⟩ := Option.isSome_iff_exists.mp present
  refine ⟨by decide +kernel, tranche, active, ?_⟩
  refine purge_removes_jits ?_ (by decide) 0 _ active
  exact ⟨fun _ _ => le_rfl, fun _ _ => by decide +kernel, trivial⟩

end Neutron.Dex
