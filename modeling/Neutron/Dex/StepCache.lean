import Neutron.Dex.Route

namespace Neutron.Dex

open Library PrecDec

/-! The step cache of multi-hop swaps is transparent.  An amount's pointer stands
for the order book and the coin it was computed with, so a hit in the cache is a
hop that was swapped from the very same position. -/

abbrev Heap := Nat → OrderBook × PrecDecCoin

structure MultihopMemory.Allocated (memory : MultihopMemory) (ctx : Branch) : Prop where
  ordered : ctx.Ordered
  inUse : ctx.buffer < memory.buffers.next

/-- A coin at a pointer that stands for a position with an order book. -/
structure Heap.Holds (heap : Heap) (memory : MultihopMemory) (book : OrderBook)
    (coin : PrecDecCoin) (stored : HeapCoin) : Prop where
  value : stored.coin = coin
  known : stored.pointer < memory.nextPointer
  origin : heap stored.pointer = (book, coin)

def Heap.HoldsCoins (heap : Heap) (memory : MultihopMemory) (book : OrderBook)
    (coins : PrecDecCoin × PrecDecCoin) (stored : PrecDecCoin × HeapCoin) : Prop :=
  stored.1 = coins.1 ∧ heap.Holds memory book coins.2 stored.2

/-- A cache entry is the result of a hop from the position its pointer stands for. -/
structure Cached (env : MultihopEnv) (heap : Heap) (memory : MultihopMemory)
    (key : MultihopCacheKey) (stored : StepResult) : Prop where
  ctx : memory.Allocated stored.ctx
  known : key.inAmount < memory.nextPointer
  run : ∀ tradePairID : TradePairID, tradePairID.takerDenom = key.tokenIn →
    tradePairID.makerDenom = key.tokenOut → ∃ writes result,
      swapFullAmountIn (heap key.inAmount).1 env.blockTime tradePairID
        (heap key.inAmount).2.amount = .ok (writes, result) ∧
      memory.view env.book stored.ctx = (heap key.inAmount).1.writeAll writes ∧
      Outcome.Agree (heap.HoldsCoins memory ((heap key.inAmount).1.writeAll writes))
        result stored.result

structure Coherent (env : MultihopEnv) (heap : Heap) (memory : MultihopMemory) : Prop where
  initial : heap.Holds memory env.book env.initialInCoin.coin env.initialInCoin
  cached : ∀ {key stored}, (key, stored) ∈ memory.stepCache →
    Cached env heap memory key stored

/-- A later memory, in which pointers stand for what they stood for. -/
structure Heap.Extends (heap : Heap) (memory : MultihopMemory) (later : Heap)
    (laterMemory : MultihopMemory) : Prop where
  pointers : memory.nextPointer ≤ laterMemory.nextPointer
  origin : ∀ pointer < memory.nextPointer, later pointer = heap pointer
  buffers : memory.buffers.next ≤ laterMemory.buffers.next

section Extends

variable {env : MultihopEnv} {heap later : Heap} {memory laterMemory : MultihopMemory}

theorem Heap.Holds.mono {book : OrderBook} {coin : PrecDecCoin} {stored : HeapCoin}
    (holds : heap.Holds memory book coin stored)
    (grows : heap.Extends memory later laterMemory) :
    later.Holds laterMemory book coin stored :=
  ⟨holds.value, lt_of_lt_of_le holds.known grows.pointers,
    (grows.origin _ holds.known).trans holds.origin⟩

theorem MultihopMemory.Allocated.mono {ctx : Branch} (allocated : memory.Allocated ctx)
    (grows : heap.Extends memory later laterMemory) : laterMemory.Allocated ctx :=
  ⟨allocated.ordered, lt_of_lt_of_le allocated.inUse grows.buffers⟩

theorem Cached.mono {key : MultihopCacheKey} {stored : StepResult}
    (cached : Cached env heap memory key stored)
    (grows : heap.Extends memory later laterMemory)
    (sameView : laterMemory.view env.book stored.ctx = memory.view env.book stored.ctx) :
    Cached env later laterMemory key stored where
  ctx := cached.ctx.mono grows
  known := lt_of_lt_of_le cached.known grows.pointers
  run tradePairID taker maker := by
    obtain ⟨writes, result, swap, view, agree⟩ := cached.run tradePairID taker maker
    rw [grows.origin _ cached.known]
    refine ⟨writes, result, swap, sameView.trans view, agree.mono ?_⟩
    intro coins storedCoins holds
    exact ⟨holds.1, holds.2.mono grows⟩

end Extends

structure RouteState.At (env : MultihopEnv) (heap : Heap) (memory : MultihopMemory)
    (state : RouteState) (position : RoutePosition) : Prop where
  price : state.currentPrice = position.currentPrice
  dust : state.dustAcc = position.dustAcc
  coin : heap.Holds memory position.book position.coin state.coin
  ctx : memory.Allocated state.ctx
  view : memory.view env.book state.ctx = position.book
  fresh : ∀ {key stored}, (key, stored) ∈ memory.stepCache →
    state.ctx.buffer ∉ stored.ctx.buffers

structure StepOutput.Hop (env : MultihopEnv) (heap : Heap) (memory : MultihopMemory)
    (book : OrderBook) (output : StepOutput) (coins : PrecDecCoin × PrecDecCoin) : Prop where
  dust : output.dust = coins.1
  coin : heap.Holds memory book coins.2 output.coinOut
  ctx : memory.Allocated output.ctx
  view : memory.view env.book output.ctx = book
  fresh : ∀ {key stored}, (key, stored) ∈ memory.stepCache →
    output.ctx.buffer ∉ stored.ctx.buffers

/-- The memory after code that leaves the buffers in `kept` alone. -/
structure Wrote (env : MultihopEnv) (heap : Heap) (memory : MultihopMemory)
    (kept : Set Nat) (later : Heap) (laterMemory : MultihopMemory) : Prop where
  coherent : Coherent env later laterMemory
  grows : heap.Extends memory later laterMemory
  frame : ∀ index ∈ kept, laterMemory.buffers.log index = memory.buffers.log index

variable {laterMemory : MultihopMemory}

section Memory

variable {env : MultihopEnv} {heap : Heap} {memory : MultihopMemory} {ctx : Branch}

theorem Heap.Extends.refl (heap : Heap) (memory : MultihopMemory) :
    heap.Extends memory heap memory :=
  ⟨le_refl _, fun _ _ => rfl, le_refl _⟩

variable {middle : Heap} {middleMemory : MultihopMemory}

theorem Heap.Extends.trans {later : Heap}
    (first : heap.Extends memory middle middleMemory)
    (rest : middle.Extends middleMemory later laterMemory) :
    heap.Extends memory later laterMemory :=
  ⟨first.pointers.trans rest.pointers,
    fun pointer known => (rest.origin pointer
      (lt_of_lt_of_le known first.pointers)).trans (first.origin pointer known),
    first.buffers.trans rest.buffers⟩

variable {kept : Set Nat}

theorem Wrote.trans {later : Heap}
    (first : Wrote env heap memory kept middle middleMemory)
    (rest : Wrote env middle middleMemory kept later laterMemory) :
    Wrote env heap memory kept later laterMemory :=
  ⟨rest.coherent, first.grows.trans rest.grows,
    fun index isKept => (rest.frame index isKept).trans (first.frame index isKept)⟩

theorem Wrote.mono {fewer : Set Nat} {later : Heap}
    (wrote : Wrote env heap memory kept later laterMemory) (subset : fewer ⊆ kept) :
    Wrote env heap memory fewer later laterMemory :=
  ⟨wrote.coherent, wrote.grows, fun index member => wrote.frame index (subset member)⟩

theorem Wrote.view {later : Heap}
    (wrote : Wrote env heap memory kept later laterMemory)
    (allocated : memory.Allocated ctx) (isKept : Set.Iic ctx.buffer ⊆ kept)
    (book : OrderBook) : laterMemory.view book ctx = memory.view book ctx :=
  Buffers.view_congr fun index member => wrote.frame index
    (isKept (allocated.ordered.le_buffer member))

theorem branch_spec (coherent : Coherent env heap memory) (allocated : memory.Allocated ctx) :
    Coherent env heap (memory.branch ctx).2 ∧
      heap.Extends memory heap (memory.branch ctx).2 ∧
      (memory.branch ctx).2.Allocated (memory.branch ctx).1 ∧
      (memory.branch ctx).2.view env.book (memory.branch ctx).1 =
        memory.view env.book ctx ∧
      ∀ {key stored}, (key, stored) ∈ (memory.branch ctx).2.stepCache →
        (memory.branch ctx).1.buffer ∉ stored.ctx.buffers := by
  have grows : heap.Extends memory heap (memory.branch ctx).2 :=
    ⟨le_refl _, fun _ _ => rfl, Nat.le_succ _⟩
  refine ⟨⟨coherent.initial.mono grows, fun member =>
    (coherent.cached member).mono grows (Buffers.view_congr fun _ _ => rfl)⟩, grows, ⟨⟨allocated.inUse, allocated.ordered⟩, Nat.lt_succ_self _⟩,
    Buffers.view_fork _ _ _, ?_⟩
  intro key stored member inside
  have old := (coherent.cached member).ctx
  exact absurd (old.ordered.le_buffer inside) (Nat.not_le.mpr old.inUse)

theorem newBranchableCache_spec (coherent : Coherent env heap memory) :
    Coherent env heap memory.newBranchableCache.2 ∧
      heap.Extends memory heap memory.newBranchableCache.2 ∧
      memory.newBranchableCache.2.Allocated memory.newBranchableCache.1 ∧
      memory.newBranchableCache.2.view env.book memory.newBranchableCache.1 = env.book ∧
      ∀ {key stored}, (key, stored) ∈ memory.newBranchableCache.2.stepCache →
        memory.newBranchableCache.1.buffer ∉ stored.ctx.buffers := by
  have grows : heap.Extends memory heap memory.newBranchableCache.2 :=
    ⟨le_refl _, fun _ _ => rfl, Nat.le_succ _⟩
  refine ⟨⟨coherent.initial.mono grows, fun member =>
    (coherent.cached member).mono grows (Buffers.view_congr fun _ _ => rfl)⟩, grows, ⟨trivial, Nat.lt_succ_self _⟩,
    Buffers.view_newRoot _ _, ?_⟩
  intro key stored member inside
  have old := (coherent.cached member).ctx
  exact absurd (old.ordered.le_buffer inside) (Nat.not_le.mpr old.inUse)

end Memory

section Store

variable {env : MultihopEnv} {heap : Heap} {memory : MultihopMemory} {ctx : Branch}
  {book : OrderBook} {coin : PrecDecCoin} {inCoin : HeapCoin} {tradePairID : TradePairID}
  {writes : List BookWrite} {result : Except DexError (PrecDecCoin × PrecDecCoin)}

def Heap.allocate (heap : Heap) (pointer : Nat) (book : OrderBook) :
    Except DexError (PrecDecCoin × PrecDecCoin) → Heap
  | .ok coins => Function.update heap pointer (book, coins.2)
  | .error _ => heap

theorem Heap.allocate_of_ne {pointer other : Nat} (different : other ≠ pointer) :
    heap.allocate pointer book result other = heap other := by
  cases result with
  | ok coins => exact Function.update_of_ne different _ _
  | error cause => rfl

theorem store_spec (coherent : Coherent env heap memory)
    (allocated : memory.Allocated ctx)
    (fresh : ∀ {key stored}, (key, stored) ∈ memory.stepCache →
      ctx.buffer ∉ stored.ctx.buffers)
    (holds : heap.Holds memory book coin inCoin)
    (view : memory.view env.book ctx = book)
    (swapped : swapFullAmountIn book env.blockTime tradePairID coin.amount =
      .ok (writes, result)) :
    let later := heap.allocate memory.nextPointer (book.writeAll writes) result
    let key := ⟨tradePairID.takerDenom, tradePairID.makerDenom, inCoin.pointer⟩
    let stored := memory.store key ctx writes result
    Wrote env heap memory {ctx.buffer}ᶜ later stored.2 ∧
      stored.2.view env.book ctx = book.writeAll writes ∧
      Outcome.Agree (later.HoldsCoins stored.2 (book.writeAll writes)) result
        stored.1.result := by
  intro later key stored
  have grows : heap.Extends memory later stored.2 :=
    ⟨Nat.le_succ _, fun _ known => Heap.allocate_of_ne (Nat.ne_of_lt known),
      le_max_left _ _⟩
  have viewed : stored.2.view env.book ctx = book.writeAll writes := by
    rw [← view]
    exact Buffers.view_record_buffer writes allocated.ordered
  have agree : Outcome.Agree (later.HoldsCoins stored.2 (book.writeAll writes)) result
      stored.1.result := by
    cases result with
    | ok coins =>
        exact .ok ⟨rfl, rfl, Nat.lt_succ_self _, Function.update_self _ _ _⟩
    | error cause => exact .error cause
  have own : Cached env later stored.2 key stored.1 := by
    have origin : later key.inAmount = (book, coin) :=
      (grows.origin _ holds.known).trans holds.origin
    refine ⟨allocated.mono grows, lt_of_lt_of_le holds.known grows.pointers, ?_⟩
    intro otherID taker maker
    have same : otherID = tradePairID := TradePairID.ext taker maker
    rw [same, origin]
    exact ⟨writes, result, swapped, viewed, agree⟩
  refine ⟨⟨⟨coherent.initial.mono grows, ?_⟩, grows, ?_⟩, viewed, agree⟩
  · intro otherKey other member
    rcases List.mem_cons.mp member with isOwn | isOld
    · cases isOwn
      exact own
    · exact (coherent.cached isOld).mono grows
        (Buffers.view_record_of_notMem writes (fresh isOld))
  · intro index different
    exact Function.update_of_ne different _ _

end Store

section Step

variable {env : MultihopEnv} {heap : Heap} {memory : MultihopMemory}
  {state : RouteState} {position : RoutePosition}

theorem mem_of_lookup_eq_some {key : MultihopCacheKey} {found : StepResult}
    (hit : memory.lookup key = some found) : (key, found) ∈ memory.stepCache := by
  obtain ⟨entry, isEntry, isFound⟩ := Option.map_eq_some_iff.mp hit
  have sameKey := List.find?_some isEntry
  have member := List.mem_of_find?_eq_some isEntry
  rw [decide_eq_true_iff] at sameKey
  rw [← sameKey, ← isFound]
  exact member

def Stepped (env : MultihopEnv) (heap : Heap) (memory : MultihopMemory) (written : Nat)
    (book : OrderBook) (done : Except DexError StepOutput × MultihopMemory)
    (swapped : List BookWrite × Except DexError (PrecDecCoin × PrecDecCoin)) : Prop :=
  ∃ later, Wrote env heap memory {written}ᶜ later done.2 ∧
    Outcome.Agree (fun output coins =>
      output.Hop env later done.2 (book.writeAll swapped.1) coins ∧
        memory.buffers.next ≤ output.ctx.buffer) done.1 swapped.2

theorem stepped_branch {written : Nat} {book : OrderBook} {writes : List BookWrite}
    {result : Except DexError (PrecDecCoin × PrecDecCoin)} {later : Heap}
    {stored : StepResult}
    (wrote : Wrote env heap memory {written}ᶜ later laterMemory)
    (allocated : laterMemory.Allocated stored.ctx)
    (view : laterMemory.view env.book stored.ctx = book.writeAll writes)
    (agree : Outcome.Agree (later.HoldsCoins laterMemory (book.writeAll writes)) result
      stored.result) :
    Stepped env heap memory written book
      (stored.result.map fun coins => ⟨coins.1, coins.2, (laterMemory.branch stored.ctx).1⟩,
        (laterMemory.branch stored.ctx).2)
      (writes, result) := by
  obtain ⟨coherent, grows, childAllocated, childView, fresh⟩ :=
    branch_spec wrote.coherent allocated
  refine ⟨later, ⟨coherent, wrote.grows.trans grows, wrote.frame⟩, ?_⟩
  revert agree
  rcases stored with ⟨storedCtx, storedResult⟩
  intro agree
  cases agree with
  | ok holds =>
      exact .ok ⟨⟨holds.1, holds.2.mono grows, childAllocated, childView.trans view,
        fresh⟩, wrote.grows.buffers⟩
  | error cause => exact .error cause

theorem multihopStep_agree (coherent : Coherent env heap memory)
    (isAt : state.At env heap memory position) (step : MultihopStep) :
    Outcome.Agree (Stepped env heap memory state.ctx.buffer position.book)
      (multihopStep env state.ctx step state.coin memory)
      (swapFullAmountIn position.book env.blockTime step.tradePairID
        position.coin.amount) := by
  unfold multihopStep
  dsimp only
  split
  · rename_i found hit
    have cached := coherent.cached (mem_of_lookup_eq_some hit)
    obtain ⟨writes, result, swapped, view, agree⟩ := cached.run step.tradePairID rfl rfl
    dsimp only at swapped view agree
    rw [isAt.coin.origin] at swapped view agree
    rw [swapped]
    exact .ok (stepped_branch ⟨coherent, Heap.Extends.refl _ _, fun _ _ => rfl⟩
      cached.ctx view agree)
  · rw [isAt.view, isAt.coin.value]
    cases swapped : swapFullAmountIn position.book env.blockTime step.tradePairID
        position.coin.amount with
    | error failure => exact .error failure
    | ok done =>
        obtain ⟨wrote, view, agree⟩ := store_spec coherent isAt.ctx isAt.fresh isAt.coin
          isAt.view swapped
        exact .ok (stepped_branch wrote (isAt.ctx.mono wrote.grows) view agree)

def Routed (env : MultihopEnv) (heap : Heap) (memory : MultihopMemory) (base : Nat)
    (done : Except DexError RouteState × MultihopMemory)
    (result : Except DexError RoutePosition) : Prop :=
  ∃ later, Wrote env heap memory (Set.Iio base) later done.2 ∧
    Outcome.Agree (RouteState.At env later done.2) done.1 result

theorem runMultihopSteps_agree (steps : List MultihopStep)
    (coherent : Coherent env heap memory) (isAt : state.At env heap memory position)
    {base : Nat} (started : base ≤ state.ctx.buffer) :
    Outcome.Agree (Routed env heap memory base) (runMultihopSteps env steps state memory)
      (swapHops env steps position) := by
  induction steps generalizing heap memory state position with
  | nil =>
      exact .ok ⟨heap, ⟨coherent, Heap.Extends.refl _ _, fun _ _ => rfl⟩, .ok isAt⟩
  | cons step rest ih =>
      rw [runMultihopSteps, swapHops]
      dsimp only
      rw [isAt.price]
      split
      · exact .ok ⟨heap, ⟨coherent, Heap.Extends.refl _ _, fun _ _ => rfl⟩, .error _⟩
      · refine (multihopStep_agree coherent isAt step).bind ?_
        rintro ⟨stepResult, stepMemory⟩ ⟨writes, swapResult⟩ ⟨middle, wrote, agree⟩
        have kept : Set.Iio base ⊆ {state.ctx.buffer}ᶜ := fun index below same =>
          absurd started (Nat.not_le.mpr (same ▸ below))
        replace wrote := wrote.mono kept
        dsimp only at wrote agree ⊢
        cases agree with
        | error cause => exact .ok ⟨middle, wrote, .error _⟩
        | ok both =>
            rename_i output coins
            obtain ⟨hop, above⟩ := both
            dsimp only
            rw [hop.coin.value]
            refine (Outcome.Agree.refl _).bind ?_
            rintro currentPrice _ rfl
            have nextAt : RouteState.At env middle stepMemory
                ⟨currentPrice, output.coinOut, output.ctx,
                  Tally.add state.dustAcc (PrecDecCoins.single output.dust)⟩
                (position.advance currentPrice coins.1 coins.2 writes) :=
              ⟨rfl, by rw [isAt.dust, hop.dust]; rfl, hop.coin, hop.ctx, hop.view, hop.fresh⟩
            have nextStarted : base ≤ output.ctx.buffer :=
              (started.trans isAt.ctx.inUse.le).trans above
            refine (ih wrote.coherent nextAt nextStarted).mono ?_
            rintro done result ⟨later, restWrote, restAgree⟩
            exact ⟨later, wrote.trans restWrote, restAgree⟩

end Step

section Route

variable {env : MultihopEnv} {heap : Heap} {memory : MultihopMemory}

def RouteOutput.observe (memory : MultihopMemory) (book : OrderBook)
    (output : RouteOutput) : RouteOutcome :=
  ⟨output.dust, output.coinOut, memory.writeCache book output.write⟩

def Observed (env : MultihopEnv) (heap : Heap) (memory : MultihopMemory)
    (done : Except DexError RouteOutput × MultihopMemory)
    (result : Except DexError RouteOutcome) : Prop :=
  ∃ later, Wrote env heap memory (Set.Iio memory.buffers.next) later done.2 ∧
    Outcome.Agree (fun output outcome => done.2.Allocated output.write ∧
      output.observe done.2 env.book = outcome) done.1 result

theorem runMultihopRoute_agree (hops : List String) (coherent : Coherent env heap memory) :
    Outcome.Agree (Observed env heap memory) (runMultihopRoute env hops memory)
      (swapRoute env hops) := by
  unfold runMultihopRoute swapRoute
  refine (Outcome.Agree.refl _).bind ?_
  rintro routeData _ rfl
  split
  · exact .ok ⟨heap, ⟨coherent, Heap.Extends.refl _ _, fun _ _ => rfl⟩, .error _⟩
  · rename_i priceAcc steps
    dsimp only
    obtain ⟨rootCoherent, grows, allocated, view, fresh⟩ := newBranchableCache_spec coherent
    have isAt : RouteState.At env heap memory.newBranchableCache.2
        ⟨onePrecDec, env.initialInCoin, memory.newBranchableCache.1, SortedStore.empty⟩
        ⟨onePrecDec, env.initialInCoin.coin, env.book, SortedStore.empty⟩ :=
      ⟨rfl, rfl, coherent.initial.mono grows, allocated, view, fresh⟩
    refine (runMultihopSteps_agree steps rootCoherent isAt
      (le_refl memory.buffers.next)).bind ?_
    rintro ⟨result, finalMemory⟩ hopsResult ⟨later, wrote, agree⟩
    replace wrote : Wrote env heap memory (Set.Iio memory.buffers.next) later finalMemory :=
      ⟨wrote.coherent, grows.trans wrote.grows, wrote.frame⟩
    dsimp only at agree ⊢
    cases agree with
    | error cause => exact .ok ⟨later, wrote, .error _⟩
    | ok finalAt =>
        rename_i final position
        dsimp only [finishRoute]
        rw [finalAt.price]
        split
        · exact .ok ⟨later, wrote, .error _⟩
        · refine .ok ⟨later, wrote, .ok ⟨finalAt.ctx, ?_⟩⟩
          have committed : finalMemory.writeCache env.book final.ctx = position.book :=
            (Buffers.commit_eq_view finalAt.ctx.ordered).trans finalAt.view
          rw [RouteOutput.observe, finalAt.dust, finalAt.coin.value, committed]

theorem Wrote.observe {later : Heap} {output : RouteOutput}
    (wrote : Wrote env heap memory (Set.Iio memory.buffers.next) later laterMemory)
    (allocated : memory.Allocated output.write) :
    output.observe laterMemory env.book = output.observe memory env.book := by
  have kept : Set.Iic output.write.buffer ⊆ Set.Iio memory.buffers.next :=
    fun _ below => lt_of_le_of_lt below allocated.inUse
  have committed : laterMemory.writeCache env.book output.write =
      memory.writeCache env.book output.write :=
    calc laterMemory.writeCache env.book output.write
        = laterMemory.view env.book output.write :=
          Buffers.commit_eq_view allocated.ordered
      _ = memory.view env.book output.write := wrote.view allocated kept env.book
      _ = memory.writeCache env.book output.write :=
          (Buffers.commit_eq_view allocated.ordered).symm
  rw [RouteOutput.observe, RouteOutput.observe, committed]

def RouteAttempt.observe (memory : MultihopMemory) (book : OrderBook)
    (tried : RouteAttempt) : RouteTrial :=
  ⟨tried.hops, tried.result.map (RouteOutput.observe memory book)⟩

theorem attemptRoutes_agree (pickBestRoute : Bool) (routes : List (List String))
    (coherent : Coherent env heap memory) :
    Outcome.Agree (fun done trials =>
        (∃ later, Wrote env heap memory (Set.Iio memory.buffers.next) later done.2) ∧
          done.1.map (RouteAttempt.observe done.2 env.book) = trials)
      (attemptRoutes env pickBestRoute routes memory)
      (tryRoutes (swapRoute env) pickBestRoute routes) := by
  induction routes generalizing heap memory with
  | nil => exact .ok ⟨⟨heap, coherent, Heap.Extends.refl _ _, fun _ _ => rfl⟩, rfl⟩
  | cons hops rest ih =>
      refine (runMultihopRoute_agree hops coherent).bind ?_
      rintro ⟨result, middleMemory⟩ outcome ⟨middle, wrote, agree⟩
      dsimp only at wrote agree ⊢
      have observed : result.map (RouteOutput.observe middleMemory env.book) = outcome :=
        (agree.mono And.right).map_eq
      rw [agree.isOk_eq]
      split
      · exact .ok ⟨⟨middle, wrote⟩, by rw [← observed]; rfl⟩
      · refine (ih wrote.coherent).bind ?_
        rintro ⟨attempts, finalMemory⟩ trials ⟨⟨later, restWrote⟩, restObserved⟩
        have restKept := restWrote.mono (Set.Iio_subset_Iio wrote.grows.buffers)
        refine .ok ⟨⟨later, wrote.trans restKept⟩, ?_⟩
        have stillObserved :
            result.map (RouteOutput.observe finalMemory env.book) = outcome := by
          refine (agree.mono ?_).map_eq
          rintro output routeOutcome ⟨allocated, sameOutcome⟩
          exact (restWrote.observe allocated).trans sameOutcome
        rw [List.map_cons, restObserved, RouteAttempt.observe, stillObserved]

def runMultihopRouteAlone (env : MultihopEnv) (hops : List String) :
    Outcome (Except DexError RouteOutcome) :=
  (runMultihopRoute env hops MultihopMemory.empty).map fun done =>
    done.1.map (RouteOutput.observe done.2 env.book)

theorem coherent_empty (initial : env.initialInCoin.pointer = 0) :
    Coherent env (fun _ => (env.book, env.initialInCoin.coin)) MultihopMemory.empty where
  initial := ⟨rfl, initial ▸ Nat.one_pos, rfl⟩
  cached member := nomatch member

theorem runMultihopRouteAlone_eq (initial : env.initialInCoin.pointer = 0)
    (hops : List String) : runMultihopRouteAlone env hops = swapRoute env hops := by
  refine ((runMultihopRoute_agree hops (coherent_empty initial)).mono ?_).map_eq
  rintro done outcome ⟨later, wrote, agree⟩
  exact (agree.mono And.right).map_eq

theorem attemptRoutes_eq (initial : env.initialInCoin.pointer = 0) (pickBestRoute : Bool)
    (routes : List (List String)) :
    (attemptRoutes env pickBestRoute routes MultihopMemory.empty).map
        (fun done => done.1.map (RouteAttempt.observe done.2 env.book)) =
      tryRoutes (swapRoute env) pickBestRoute routes :=
  ((attemptRoutes_agree pickBestRoute routes (coherent_empty initial)).mono
    And.right).map_eq

end Route

section Selection

variable (memory : MultihopMemory) (book : OrderBook)

def MultiHopRouteOutput.observe (output : MultiHopRouteOutput) : RouteChoice :=
  ⟨output.route, output.dust, output.coinOut, memory.writeCache book output.write⟩

theorem selectRoute_observe (pickBestRoute : Bool) (best : Option MultiHopRouteOutput)
    (tried : RouteAttempt) :
    (selectRoute pickBestRoute best tried).map (MultiHopRouteOutput.observe memory book) =
      chooseRoute pickBestRoute (best.map (MultiHopRouteOutput.observe memory book))
        (tried.observe memory book) := by
  rcases tried with ⟨hops, result⟩
  cases result with
  | error cause => rfl
  | ok output =>
      have sameAmount :
          ((best.map (MultiHopRouteOutput.observe memory book)).map
            fun choice => choice.outcome.coinOut.amount) =
          best.map fun best => best.coinOut.amount := by
        cases best <;> rfl
      dsimp only [selectRoute, chooseRoute, RouteAttempt.observe, Except.map]
      rw [sameAmount, apply_ite (Option.map (MultiHopRouteOutput.observe memory book))]
      rfl

theorem foldl_selectRoute_observe (pickBestRoute : Bool) (attempts : List RouteAttempt)
    (best : Option MultiHopRouteOutput) :
    (attempts.foldl (selectRoute pickBestRoute) best).map
        (MultiHopRouteOutput.observe memory book) =
      (attempts.map (RouteAttempt.observe memory book)).foldl
        (chooseRoute pickBestRoute)
        (best.map (MultiHopRouteOutput.observe memory book)) := by
  induction attempts generalizing best with
  | nil => rfl
  | cons tried rest ih =>
      rw [List.foldl_cons, ih, selectRoute_observe, List.map_cons, List.foldl_cons]

theorem filterMap_routeError (attempts : List RouteAttempt) :
    (attempts.map (RouteAttempt.observe memory book)).filterMap RouteTrial.error =
      attempts.filterMap routeError := by
  rw [List.filterMap_map]
  refine List.filterMap_congr fun tried _ => ?_
  rcases tried with ⟨hops, result⟩
  cases result <;> rfl

def MultiHopSwapOutput.observe (output : MultiHopSwapOutput) : MultiHopOutcome where
  choice := output.bestRoute.map (MultiHopRouteOutput.observe output.memory book)
  initialInCoin := output.initialInCoin

theorem calulateMultiHopSwap_eq (blockTime : Time) (amountIn : Int)
    (routes : List (List String)) (exitLimitPrice : PrecDec) (pickBestRoute : Bool) :
    (calulateMultiHopSwap book blockTime amountIn routes exitLimitPrice pickBestRoute).map
        (MultiHopSwapOutput.observe book) =
      calculateOverRoutes swapRoute book blockTime amountIn routes exitLimitPrice
        pickBestRoute := by
  apply Outcome.Agree.map_eq
  unfold calulateMultiHopSwap calculateOverRoutes
  cases routes.head?.bind List.head? with
  | none => exact .error _
  | some entryToken =>
      dsimp only
      refine (Outcome.Agree.refl _).bind ?_
      rintro coin _ rfl
      refine (Outcome.Agree.refl _).bind ?_
      rintro initialInCoin _ rfl
      refine (attemptRoutes_agree pickBestRoute routes (coherent_empty rfl)).bind ?_
      rintro ⟨attempts, memory⟩ _ ⟨_, rfl⟩
      dsimp only
      rw [filterMap_routeError]
      split
      · exact .error _
      · refine .ok ?_
        rw [MultiHopSwapOutput.observe, foldl_selectRoute_observe]
        rfl

end Selection

/-- Routes that share the step cache are seen as if each of them was run with an
empty one: one by one, and in what the multi-hop swap returns and commits. -/
theorem stepCache_transparent (book : OrderBook) (blockTime : Time) (amountIn : Int)
    (routes : List (List String)) (exitLimitPrice : PrecDec) (pickBestRoute : Bool) :
    (∀ inCoin : PrecDecCoin,
      let env : MultihopEnv := ⟨book, blockTime, ⟨inCoin, 0⟩, exitLimitPrice⟩
      (attemptRoutes env pickBestRoute routes MultihopMemory.empty).map
          (fun done => done.1.map (RouteAttempt.observe done.2 book)) =
        tryRoutes (runMultihopRouteAlone env) pickBestRoute routes) ∧
    (calulateMultiHopSwap book blockTime amountIn routes exitLimitPrice pickBestRoute).map
        (MultiHopSwapOutput.observe book) =
      calculateOverRoutes runMultihopRouteAlone book blockTime amountIn routes
        exitLimitPrice pickBestRoute := by
  have alone (inCoin : PrecDecCoin) :
      runMultihopRouteAlone ⟨book, blockTime, ⟨inCoin, 0⟩, exitLimitPrice⟩ =
        swapRoute ⟨book, blockTime, ⟨inCoin, 0⟩, exitLimitPrice⟩ :=
    funext (runMultihopRouteAlone_eq rfl)
  constructor
  · intro inCoin env
    rw [alone inCoin]
    exact attemptRoutes_eq rfl pickBestRoute routes
  · rw [calulateMultiHopSwap_eq]
    simp only [calculateOverRoutes, alone]

end Neutron.Dex
