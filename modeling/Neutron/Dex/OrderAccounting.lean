import Neutron.Dex.DepositSwaps
import Neutron.Dex.FractionalLedger
import Neutron.Dex.OrderResponse

namespace Neutron.Dex

open Library PrecDec

def LimitOrderType.IsDefined : LimitOrderType → Prop
  | .unrecognized _ => False
  | _ => True

theorem LimitOrderType.isDefined_of_maker {orderType : LimitOrderType}
    (maker : orderType.IsGTC ∨ orderType.IsJIT ∨ orderType.IsGoodTil) :
    orderType.IsDefined := by
  rcases maker with isType | isType | isType <;>
    (rw [isType]; trivial)

theorem LimitOrderType.isDefined_of_takerOnly {orderType : LimitOrderType}
    (taker : orderType.IsTakerOnly) : orderType.IsDefined := by
  rcases taker with isType | isType <;>
    (rw [isType]; trivial)

def DexState.sharesOf (dex : DexState) (address trancheKey : String) : Int :=
  (dex.getLimitOrderTrancheUser address trancheKey).elim 0
    LimitOrderTrancheUser.sharesOwned

def OrderBook.totalMakerDenom (book : OrderBook) (key : LimitOrderTrancheKey) : Int :=
  (book.getLimitOrderTranche key).elim 0 LimitOrderTranche.totalMakerDenom

def OrderBook.reservesMakerDenom (book : OrderBook) (key : LimitOrderTrancheKey) :
    PrecDec :=
  (book.getLimitOrderTranche key).elim 0 LimitOrderTranche.decReservesMakerDenom

def PlaceLimitOrderOutput.totalIn (output : PlaceLimitOrderOutput) : PrecDec :=
  output.totalInCoin.elim 0 PrecDecCoin.amount

def OrderBook.Charges (book : OrderBook) (now : Time) (tradePairID : TradePairID)
    (limitPrice : PrecDec) : Prop :=
  ∃ tick : TickLiquidity, tick.Live now book ∧ tick.key.tradePairID = tradePairID ∧
    tick.price ≤ limitPrice ∧ 0 < (tick.price.mul tick.reserves).i

/-- The accounts of an order: `steps` of a swap, and an amount that is `placed`. -/
structure PlaceLimitOrderOutput.Accounts (output : PlaceLimitOrderOutput)
    (world final : World) (msg : MsgPlaceLimitOrder) (tradePairID : TradePairID)
    (tickIndex : Int) (swapped : SwapResult) (steps : List SweepStep) (placed : Int) :
    Prop where
  swap : ∃ filled, msg.takerSwap world = .ok (swapped, filled)
  sweeps : SweepsBook world.blockTime tradePairID (newPrecDecFromInt msg.amountIn)
    msg.maxAmountOut (some (tickPrice tickIndex)) world.dex.book swapped steps
  positive : 0 < output.totalIn.i
  within : output.totalIn ≤ newPrecDecFromInt msg.amountIn
  split : output.totalIn = swapped.totalTakerCoin.amount + newPrecDecFromInt placed
  resting : placed = 0 ∨ 0 < placed ∧
    (msg.orderType.IsGTC ∨ msg.orderType.IsJIT ∨ msg.orderType.IsGoodTil)
  shares : final.dex.sharesOf msg.receiver output.trancheKey =
    world.dex.sharesOf msg.receiver output.trancheKey + placed
  total : final.dex.book.totalMakerDenom
      ⟨tradePairID.reversed, -tickIndex, output.trancheKey⟩ =
    world.dex.book.totalMakerDenom
      ⟨tradePairID.reversed, -tickIndex, output.trancheKey⟩ + placed
  reserves : final.dex.book.reservesMakerDenom
      ⟨tradePairID.reversed, -tickIndex, output.trancheKey⟩ =
    world.dex.book.reservesMakerDenom
      ⟨tradePairID.reversed, -tickIndex, output.trancheKey⟩ + newPrecDecFromInt placed
  /-- What a fill-or-kill order does not swap buys less than one token at the price of
  the last offer, or it got all it asked for. -/
  filled : msg.orderType.IsFoK → ∃ last, steps.getLast? = some last ∧
    (newPrecDecFromInt msg.amountIn - output.totalIn < last.tick.price ∨
      ∃ limit ∈ msg.maxAmountOut, swapped.totalMakerCoin.amount = newPrecDecFromInt limit)
  paid : ∀ address, address ≠ moduleName → ∀ denom,
    final.wealth address denom = world.wealth address denom -
      (if address = msg.creator.address ∧ denom = msg.tokenIn then output.totalIn.i
        else 0) +
      (if address = msg.receiver ∧ denom = msg.tokenOut then
        swapped.totalMakerCoin.amount.i else 0)

variable {amountLeft : PrecDec}

section Rests

variable {now : Time} {dex opened : DexState} {tranche : LimitOrderTranche}
  {user : LimitOrderTrancheUser} {address : String} {amount : Int}

theorem Holder.sharesOf (holder : Holder dex tranche.key address user) :
    dex.sharesOf address tranche.key.trancheKey = user.sharesOwned := by
  unfold DexState.sharesOf
  cases holder with
  | existing stored _ => rw [stored, Option.elim_some]
  | fresh absent => rw [absent, Option.elim_none]

theorem Opened.getLimitOrderTranche (opens : Opened now dex tranche opened)
    (orders : Orders dex.book dex.trancheUsers dex.trancheCount) :
    dex.book.getLimitOrderTranche tranche.key = some tranche ∨
      dex.book.getLimitOrderTranche tranche.key = none ∧
        tranche.totalMakerDenom = 0 ∧ tranche.decReservesMakerDenom = 0 := by
  cases opens with
  | existing stored _ _ => exact .inl stored
  | @fresh tradePairID tickIndex goodTil _ _ =>
      refine .inr ⟨?_, rfl, rfl⟩
      by_contra present
      obtain ⟨other, stored⟩ := Option.ne_none_iff_exists'.mp present
      have key := OrderBook.getLimitOrderTranche_key stored
      exact orders.not_holds_next (.inl (key ▸ stored))
        (congrArg LimitOrderTrancheKey.trancheKey key)

theorem Opened.totalMakerDenom (opens : Opened now dex tranche opened)
    (orders : Orders dex.book dex.trancheUsers dex.trancheCount) :
    dex.book.totalMakerDenom tranche.key = tranche.totalMakerDenom := by
  unfold OrderBook.totalMakerDenom
  rcases opens.getLimitOrderTranche orders with stored | ⟨absent, zero, _⟩
  · rw [stored, Option.elim_some]
  · rw [absent, Option.elim_none, zero]

theorem Opened.reservesMakerDenom (opens : Opened now dex tranche opened)
    (orders : Orders dex.book dex.trancheUsers dex.trancheCount) :
    dex.book.reservesMakerDenom tranche.key = tranche.decReservesMakerDenom := by
  unfold OrderBook.reservesMakerDenom
  rcases opens.getLimitOrderTranche orders with stored | ⟨absent, _, zero⟩
  · rw [stored, Option.elim_some]
  · rw [absent, Option.elim_none, zero]

structure Grows (dex next : DexState) (address : String) (key : LimitOrderTrancheKey)
    (placed : Int) : Prop where
  shares : next.sharesOf address key.trancheKey = dex.sharesOf address key.trancheKey + placed
  total : next.book.totalMakerDenom key = dex.book.totalMakerDenom key + placed
  reserves : next.book.reservesMakerDenom key =
    dex.book.reservesMakerDenom key + newPrecDecFromInt placed

theorem placeMakerOrder_grows {orderType : LimitOrderType}
    {orderFilled : Bool} {placed : PlacedMakerOrder} (wellFormed : dex.WellFormed)
    (opens : Opened now dex tranche opened)
    (holder : Holder dex tranche.key address user)
    (lasting : ¬ orderType.HasExpiration → tranche.expirationTime = none)
    (ok : placeMakerOrder opened orderType tranche user amountLeft orderFilled =
      .ok placed) :
    Grows dex (placed.dex.updateTrancheUser placed.trancheUser) address tranche.key
      placed.sharesIssued := by
  unfold placeMakerOrder at ok
  split at ok
  · rename_i rests
    obtain ⟨filled, place, ok⟩ := of_bind ok
    obtain ⟨recorded, record, ok⟩ := of_bind ok
    cases ok
    obtain rfl := placeMakerLimitOrder_eq_ok place
    obtain rfl := recordExpiration_eq_ok (by exact lasting) record
    have sound := holder.sound wellFormed.orders rests.1
    have hasToken : (tranche.placed amountLeft.truncateInt).HasTokenIn := by
      have nonneg : 0 ≤ tranche.decReservesMakerDenom.i := by
        rcases opens.getLimitOrderTranche wellFormed.orders with stored | ⟨_, _, zero⟩
        · exact (wellFormed.book.active stored).2.maker
        · rw [zero, zero_i]
      have positive := Int.mul_pos rests.1 (by decide : (0 : Int) < precisionReuse)
      change 0 < (tranche.decReservesMakerDenom + newPrecDecFromInt _).i
      rw [add_i, newPrecDecFromInt_i]
      omega
    have book : ((opened.recordExpirationOf (tranche.placed amountLeft.truncateInt)).updateBook
        (updateTranche (tranche.placed amountLeft.truncateInt))).book.getLimitOrderTranche
          tranche.key = some (tranche.placed amountLeft.truncateInt) := by
      have written := OrderBook.getLimitOrderTranche_updateTranche
        (opened.recordExpirationOf (tranche.placed amountLeft.truncateInt)).book
        (tranche.placed amountLeft.truncateInt) tranche.key
      rw [if_pos hasToken] at written
      exact written.trans (if_pos rfl)
    refine ⟨?_, ?_, ?_⟩
    · rw [holder.sharesOf, DexState.sharesOf, DexState.getLimitOrderTrancheUser,
        DexState.updateTrancheUser_eq, if_neg sound.not_isEmpty]
      have key : toLex (address, tranche.key.trancheKey) =
          ({ user with sharesOwned := user.sharesOwned + amountLeft.truncateInt } :
            LimitOrderTrancheUser).key := by
        have sameAddress := holder.user_address
        have sameKey := congrArg LimitOrderTrancheKey.trancheKey holder.key
        rw [← sameAddress, ← sameKey]
        rfl
      dsimp only
      rw [key, IndexedStore.get?_set_self, Option.elim_some]
    · rw [opens.totalMakerDenom wellFormed.orders, OrderBook.totalMakerDenom,
        DexState.updateTrancheUser_book, book, Option.elim_some]
      rfl
    · rw [opens.reservesMakerDenom wellFormed.orders, OrderBook.reservesMakerDenom,
        DexState.updateTrancheUser_book, book, Option.elim_some]
      rfl
  · cases ok
    have nothing : newPrecDecFromInt 0 = 0 := rfl
    rw [holder.updateTrancheUser_eq_self wellFormed.orders opens.trancheUsers]
    refine ⟨?_, ?_, ?_⟩
    · unfold DexState.sharesOf DexState.getLimitOrderTrancheUser
      rw [opens.trancheUsers, add_zero]
    · rw [opens.book, add_zero]
    · rw [opens.book, nothing, add_zero]

end Rests

section Swap

variable {now : Time} {tradePairID : TradePairID} {limitPrice : Option PrecDec}
  {book final : OrderBook} {maxIn : PrecDec} {maxOut : Option PrecDec}
  {steps : List SweepStep}

theorem Sweep.mul_reserves_pos
    (sweep : Sweep now tradePairID limitPrice book maxIn maxOut steps final)
    (wellFormed : book.WellFormed) :
    ∀ step ∈ steps, 0 < step.inAmount.i →
      0 < (step.tick.price.mul step.tick.reserves).i := by
  induction sweep with
  | nil => exact fun step impossible => absurd impossible List.not_mem_nil
  | @cons book _ maxIn inAmount outAmount maxOut tick _ _ steps stored _ _ wrapped swap
      visited rest ih =>
      have later := ih (visited.visit.wellFormed wellFormed)
      intro step member paid
      rcases List.mem_cons.mp member with rfl | inRest
      · have inPositive : 0 < maxIn.i := lt_of_lt_of_le paid visited.trade.in_le
        have computed := swap_calcSwapAmounts wellFormed stored wrapped inPositive swap
        obtain ⟨affordable, _, amounts⟩ := of_bind computed
        have isIn := congrArg (fun amounts => (Prod.fst amounts).i) (Except.ok.inj amounts)
        have isOut := congrArg Prod.snd (Except.ok.inj amounts)
        dsimp only at isIn isOut
        rw [isOut, minPrecDec_i] at isIn
        have costs := mul_mono (wellFormed.price_pos stored).le visited.trade.out_nonneg
          visited.trade.out_le
        dsimp only at paid ⊢
        omega
      · exact later step inRest paid

theorem SweepStep.exists_paid (spent : 0 < (SweepStep.totalIn steps).i) :
    ∃ step ∈ steps, 0 < step.inAmount.i := by
  induction steps with
  | nil => exact absurd spent (lt_irrefl 0)
  | cons step rest ih =>
      rw [SweepStep.totalIn_cons, add_i] at spent
      by_cases first : 0 < step.inAmount.i
      · exact ⟨step, List.mem_cons_self, first⟩
      · obtain ⟨paid, member, positive⟩ := ih (by omega)
        exact ⟨paid, List.mem_cons_of_mem _ member, positive⟩

variable {limit : PrecDec} {maxAmountOut : Option Int} {result : SwapResult}

theorem SweepsBook.charges
    (sweeps : SweepsBook now tradePairID maxIn maxAmountOut (some limit) book result steps)
    (wellFormed : book.WellFormed) (spent : 0 < result.totalTakerCoin.amount.i) :
    book.Charges now tradePairID limit := by
  rw [sweeps.totalTakerCoin] at spent
  obtain ⟨step, member, paid⟩ := SweepStep.exists_paid spent
  exact ⟨step.tick, sweeps.live wellFormed member, sweeps.pair step member,
    not_lt_iff.mp (sweeps.withinLimit step member),
    sweeps.sweep.mul_reserves_pos wellFormed step member paid⟩

theorem SwapSweeps.spent_of_charges
    (sweeps : SwapSweeps now tradePairID maxIn none (some limit) book result steps)
    (wellFormed : book.WellFormed) (whole : 1 ≤ maxIn.value)
    (charges : book.Charges now tradePairID limit) :
    0 < result.totalTakerCoin.amount.i := by
  have inPositive : 0 < maxIn.i := value_pos_iff.mp (by linarith)
  have sweepsBook := sweeps.sweepsBook wellFormed inPositive.le (by rintro _ ⟨⟩)
  by_contra unspent
  have free : (SweepStep.totalIn steps).i = 0 := by
    have nonneg := sweeps.inNonneg
    rw [sweeps.totalTakerCoin] at unspent
    exact le_antisymm (not_lt.mp unspent) nonneg
  obtain ⟨tick, live, pair, within, costs⟩ := charges
  have traded : ∃ step ∈ steps, step.Writes tick.key := by
    -- an offer that no step traded with would still be there, and the swap not done
    by_contra untraded
    have kept := sweepsBook.unchanged tick.key fun step member writes =>
      untraded ⟨step, member, writes⟩
    have past := sweeps.swept (sweeps.unfilled_of_free wellFormed whole free) tick
      ⟨kept.trans live.stored, live.token, live.unexpired⟩ pair
    exact not_lt_iff.mpr within past
  obtain ⟨step, member, same | ⟨reserves, isPool, counterpart⟩⟩ := traded
  · have isTick : step.tick = tick := by
      have stored := sweepsBook.stored step member
      rw [← same, live.stored] at stored
      exact (Option.some.inj stored).symm
    obtain ⟨stepFree, computed, _, pricePositive, priceLe⟩ :=
      sweeps.sweep.free_step rfl wellFormed inPositive free step member
    rw [← isTick] at costs
    exact mul_reserves_of_free computed pricePositive priceLe whole stepFree costs
  · have samePair := sweepsBook.pair step member
    rw [isPool] at samePair
    rw [counterpart] at pair
    have reversed : reserves.key.tradePairID.reversed = tradePairID := pair
    have own : reserves.key.tradePairID = tradePairID := samePair
    rw [own] at reversed
    exact tradePairID.reversed_ne reversed

theorem lt_of_quo_lt_one {left price affordable : PrecDec}
    (division : left.quo price = .ok affordable) (nonneg : 0 ≤ left.i)
    (pricePositive : 0 < price.i) (less : affordable < onePrecDec) : left < price := by
  have quotient := lt_quo_value division nonneg pricePositive
  have priceValue := value_pos_iff.mpr pricePositive
  have below : affordable.value + smallest ≤ 1 := by
    rw [← value_onePrecDec, value_eq, value_eq]
    have next : affordable.i + 1 ≤ onePrecDec.i := less
    have scaled := mul_le_mul_of_nonneg_right (Int.cast_le.mpr next : ((_ : Int) : ℚ) ≤ _)
      smallest_pos.le
    rw [Int.cast_add, Int.cast_one, add_mul, one_mul] at scaled
    exact scaled
  have rounding : smallest / 2 + smallest ^ 2 ≤ smallest := by norm_num [smallest]
  have ratio : left.value / price.value < 1 := by linarith
  rw [div_lt_one priceValue] at ratio
  exact value_lt_value_iff.mp ratio

theorem SwapSweeps.filled_upTo
    (sweeps : SwapSweeps now tradePairID maxIn maxAmountOut (some limit) book result steps)
    (sweepsBook : SweepsBook now tradePairID maxIn maxAmountOut (some limit) book result
      steps) (wellFormed : book.WellFormed) (filled : result.orderFilled = true) :
    ∃ last, steps.getLast? = some last ∧
      (maxIn - result.totalTakerCoin.amount < last.tick.price ∨
        ∃ limit ∈ maxAmountOut, result.totalMakerCoin.amount = newPrecDecFromInt limit) := by
  obtain ⟨last, isLast, stops⟩ := sweeps.filled filled
  refine ⟨last, isLast, ?_⟩
  rcases stops with ⟨affordable, division, tooLittle⟩ | ⟨limit, isLimit, reached⟩
  · have stored := sweepsBook.stored last (List.mem_of_getLast? isLast)
    rw [sweeps.totalTakerCoin]
    refine .inl (lt_of_quo_lt_one division ?_ (wellFormed.price_pos stored) tooLittle)
    rw [sub_i]
    exact Int.sub_nonneg_of_le sweeps.inLe
  · have atMost := sweepsBook.out_le limit isLimit
    rw [sweeps.totalMakerCoin] at atMost ⊢
    exact .inr ⟨limit, isLimit, PrecDec.ext (le_antisymm atMost reached)⟩

theorem SweepsBook.getLimitOrderTranche_reversed
    (sweeps : SweepsBook now tradePairID maxIn maxAmountOut (some limit) book result steps)
    {key : LimitOrderTrancheKey} (pair : key.tradePairID = tradePairID.reversed) :
    (book.writeAll result.writes).getLimitOrderTranche key =
      book.getLimitOrderTranche key := by
  unfold OrderBook.getLimitOrderTranche
  rw [sweeps.unchanged]
  rintro step member (same | ⟨_, _, impossible⟩)
  · have own := sweeps.pair step member
    rw [← same] at own
    exact tradePairID.reversed_ne (pair.symm.trans own)
  · cases impossible

end Swap

section Execute

variable {dex : DexState} {now start : Time} {tradePairID : TradePairID}
  {amountIn tickIndex : Int} {orderType : LimitOrderType} {goodTil : Option Time}
  {maxAmountOut : Option Int} {minAvgSellPriceP : Option PrecDec} {receiverAddr : String}
  {executed : ExecutedLimitOrder}

theorem executePlaceLimitOrder_grows (wellFormed : dex.WellFormed)
    (inNonneg : 0 ≤ amountIn) (outNonneg : ∀ limit ∈ maxAmountOut, 0 ≤ limit)
    (timely : orderType = .goodTilTime → ∀ expirationTime ∈ goodTil,
      Timely start expirationTime)
    (ok : executePlaceLimitOrder dex now tradePairID amountIn tickIndex orderType goodTil
      maxAmountOut minAvgSellPriceP receiverAddr = .ok executed) :
    executed.totalIn =
        executed.swapInCoin.amount + newPrecDecFromInt executed.sharesIssued ∧
      Grows dex executed.dex receiverAddr
        ⟨tradePairID.reversed, -tickIndex, executed.trancheKey⟩ executed.sharesIssued := by
  obtain ⟨limitBuyPrice, buyPrice, ok⟩ := of_bind ok
  obtain ⟨limitSellPrice, _, ok⟩ := of_bind ok
  obtain ⟨⟨swapped, orderFilled⟩, limitSwap, ok⟩ := of_bind ok
  obtain ⟨⟨tranche, counted⟩, init, ok⟩ := of_bind ok
  obtain ⟨user, hold, ok⟩ := of_bind ok
  obtain ⟨placed, place, ok⟩ := of_bind ok
  obtain ⟨final, count, ok⟩ := of_bind ok
  cases ok
  refine ⟨rfl, ?_⟩
  have amountNonneg := newPrecDecFromInt_nonneg inNonneg
  obtain ⟨swap, _⟩ := limitOrderSwap_eq_ok limitSwap
  have limits : ∀ limit ∈ (if orderType.IsTakerOnly then maxAmountOut else none), 0 ≤ limit := by
    split
    · exact outNonneg
    · rintro _ ⟨⟩
  obtain ⟨steps, sweeps⟩ := swap_sweeps wellFormed.book amountNonneg limits swap
  have sweepsBook := sweeps.sweepsBook wellFormed.book amountNonneg limits
  have swappedWellFormed : (dex.updateBook swapped.writes).WellFormed :=
    (@SwapSpec.moves _ _ _ (.free now) dex _
      (swap_spec wellFormed.book amountNonneg limits swap)).wellFormed wellFormed
  obtain ⟨opens, key, lasting⟩ := getOrInitPlaceTranche_opened timely init
  rw [mul_neg_one] at key
  have holder := (getOrInitLimitOrderTrancheUser_holder hold).congr opens.trancheUsers
  rw [mul_neg_one, ← key] at holder
  have grows := placeMakerOrder_grows swappedWellFormed opens holder lasting place
  obtain ⟨_, rfl⟩ := countJIT_eq count
  have unswapped : (dex.updateBook swapped.writes).book.getLimitOrderTranche tranche.key =
      dex.book.getLimitOrderTranche tranche.key :=
    sweepsBook.getLimitOrderTranche_reversed (congrArg LimitOrderTrancheKey.tradePairID key)
  have total := grows.total
  have reserves := grows.reserves
  unfold OrderBook.totalMakerDenom at total
  unfold OrderBook.reservesMakerDenom at reserves
  rw [unswapped] at total reserves
  dsimp only
  rw [← key]
  exact ⟨grows.shares, total, reserves⟩

end Execute

section Pay

variable {world paid : World} {address : String}

variable {coin : PrecDecCoin}

theorem single_payment_nonneg (nonneg : 0 ≤ coin.amount.i) :
    ∀ entry ∈ (PrecDecCoins.single coin).entries, 0 ≤ entry.2.i := by
  intro entry member
  have only : entry ∈ [(coin.denom, coin.amount)] := member
  rw [List.mem_singleton.mp only]
  exact nonneg

theorem single_amountOf (payer address : String) (coin : PrecDecCoin) (denom : String) :
    (if payer = address then (Tally.amountOf (PrecDecCoins.single coin) denom).i else 0) =
      if address = payer ∧ denom = coin.denom then coin.amount.i else 0 := by
  have flow : (Tally.amountOf (PrecDecCoins.single coin) denom).i =
      if denom = coin.denom then coin.amount.i else 0 :=
    congrFun (flow_single coin) denom
  rw [flow, ← ite_and]
  simp only [eq_comm]

theorem payTakerOut_wealth {receiverAddr : String}
    (nonneg : 0 ≤ coin.amount.i) (ok : payTakerOut world receiverAddr coin = .ok paid)
    (external : address ≠ moduleName) (denom : String) :
    paid.wealth address denom = world.wealth address denom +
      if address = receiverAddr ∧ denom = coin.denom then coin.amount.i else 0 := by
  unfold payTakerOut at ok
  split at ok
  · have payment : Payment.Nonneg (.toAccount receiverAddr (PrecDecCoins.single coin)) :=
      single_payment_nonneg nonneg
    have sent : paid.wealth address denom = world.wealth address denom -
        if receiverAddr = address then
          -1 * (Tally.amountOf (PrecDecCoins.single coin) denom).i else 0 :=
      Payment.send_wealth payment ok external denom
    rw [sent, ← single_amountOf]
    split_ifs <;> omega
  · rename_i nothing
    cases ok
    have zero : coin.amount.i = 0 := le_antisymm (not_lt.mp nothing) nonneg
    rw [zero, ite_self, add_zero]

theorem chargeTakerIn_wealth {callerAddr : String}
    (nonneg : 0 ≤ coin.amount.i)
    (ok : sendFractionalCoinsFromAccountToDex world callerAddr (PrecDecCoins.single coin) =
      .ok paid)
    (external : address ≠ moduleName) (denom : String) :
    paid.wealth address denom = world.wealth address denom -
      if address = callerAddr ∧ denom = coin.denom then coin.amount.i else 0 := by
  have payment : Payment.Nonneg (.toDex callerAddr (PrecDecCoins.single coin)) :=
    single_payment_nonneg nonneg
  have sent : paid.wealth address denom = world.wealth address denom -
      if callerAddr = address then
        1 * (Tally.amountOf (PrecDecCoins.single coin) denom).i else 0 :=
    Payment.send_wealth payment ok external denom
  rw [sent, ← single_amountOf, one_mul]

theorem World.wealth_of_dex {dex : DexState}
    (balances : dex.fractionalBalances = world.dex.fractionalBalances) (denom : String) :
    World.wealth { world with dex := dex } address denom = world.wealth address denom := by
  unfold World.wealth
  rw [balances]

end Pay

section Core

variable {world final : World} {tokenIn tokenOut : String}
  {amountIn tickIndexInToOut : Int} {orderType : LimitOrderType} {goodTil : Option Time}
  {maxAmountOut : Option Int} {minAvgSellPriceP : Option PrecDec}
  {callerAddr receiverAddr : String} {output : PlaceLimitOrderOutput}

theorem placeLimitOrderCore_executed {tradePairID : TradePairID}
    (isPair : newTradePairID tokenIn tokenOut = .ok tradePairID)
    (ok : placeLimitOrderCore world tokenIn tokenOut amountIn tickIndexInToOut orderType
      goodTil maxAmountOut minAvgSellPriceP callerAddr receiverAddr = .ok (output, final)) :
    ∃ executed,
      executePlaceLimitOrder world.dex world.blockTime tradePairID amountIn
        tickIndexInToOut orderType goodTil maxAmountOut minAvgSellPriceP receiverAddr =
          .ok executed ∧
      output.trancheKey = executed.trancheKey ∧
      (0 ≤ executed.totalIn.i → output.totalIn = executed.totalIn) ∧
      (final.dex.book = executed.dex.book ∧
        final.dex.trancheUsers = executed.dex.trancheUsers) ∧
      ∀ address, address ≠ moduleName → ∀ denom,
        final.wealth address denom = world.wealth address denom -
          (if address = callerAddr ∧ denom = tokenIn then output.totalIn.i else 0) +
          (if address = receiverAddr ∧ denom = executed.swapOutCoin.denom then
            executed.swapOutCoin.amount.i else 0) := by
  obtain ⟨pair, samePair, ok⟩ := of_bind ok
  cases samePair.symm.trans isPair
  obtain ⟨executed, execute, ok⟩ := of_bind ok
  obtain ⟨paidOut, payOut, ok⟩ := of_bind ok
  obtain ⟨_, _, swapped, _, _, _, swap, _, isOut, _, balances⟩ :=
    executePlaceLimitOrder_eq_ok execute
  obtain ⟨_, _, outNonneg⟩ := limitOrderSwap_coins swap
  have received : ∀ address, address ≠ moduleName → ∀ denom,
      paidOut.wealth address denom = world.wealth address denom +
        if address = receiverAddr ∧ denom = executed.swapOutCoin.denom then
          executed.swapOutCoin.amount.i else 0 := by
    intro address external denom
    rw [payTakerOut_wealth (isOut ▸ outNonneg) payOut external denom,
      World.wealth_of_dex balances]
  have kept : paidOut.dex.book = executed.dex.book ∧
      paidOut.dex.trancheUsers = executed.dex.trancheUsers := by
    rw [(payTakerOut_pays (isOut ▸ outNonneg) payOut).dex]
    exact ⟨rfl, rfl⟩
  split at ok
  · rename_i positive
    obtain ⟨coin, coinNew, ok⟩ := of_bind ok
    obtain ⟨paidIn, payIn, ok⟩ := of_bind ok
    obtain ⟨_, coinNonneg, rfl⟩ := newPrecDecCoin_eq_ok_iff.mp coinNew
    cases ok
    refine ⟨executed, execute, rfl, fun _ => rfl, ?_, ?_⟩
    · obtain ⟨quote, _, _, rfl, _⟩ := @Payment.send_eq_ok (.toDex callerAddr
        (PrecDecCoins.single ⟨tokenIn, executed.totalIn⟩)) _ _ tokenIn payIn
      exact kept
    · intro address external denom
      rw [chargeTakerIn_wealth coinNonneg payIn external denom,
        received address external denom]
      dsimp only [PlaceLimitOrderOutput.totalIn, Option.elim]
      omega
  · rename_i notPositive
    cases ok
    refine ⟨executed, execute, rfl, fun nonneg => ?_, kept, ?_⟩
    · exact PrecDec.ext (le_antisymm nonneg (not_lt.mp notPositive))
    · intro address external denom
      rw [received address external denom]
      dsimp only [PlaceLimitOrderOutput.totalIn, Option.elim]
      rw [zero_i, ite_self, sub_zero]

end Core

section Amounts

variable {book : OrderBook} {now : Time} {tradePairID : TradePairID} {amountIn : PrecDec}
  {maxAmountOut : Option Int} {limitPrice minAvgSellPrice : PrecDec}
  {orderType : LimitOrderType} {result : SwapResult} {filled : Bool}

theorem limitOrderSwap_takerOnly (takerOnly : orderType.IsTakerOnly)
    (ok : limitOrderSwap book now tradePairID amountIn maxAmountOut limitPrice
      minAvgSellPrice orderType = .ok (result, filled)) :
    ¬ result.totalTakerCoin.amount.IsZero ∧
      (orderType.IsFoK → result.orderFilled = true) := by
  rw [limitOrderSwap, if_pos takerOnly] at ok
  obtain ⟨swapped, taken, ok⟩ := of_bind ok
  cases ok
  obtain ⟨swapped, _, taken⟩ := of_bind taken
  obtain ⟨killed, taken⟩ := (Outcome.ite_throw_eq_ok_iff _ _ _ _).mp taken
  obtain ⟨spent, taken⟩ := (Outcome.ite_throw_eq_ok_iff _ _ _ _).mp taken
  obtain ⟨_, _, taken⟩ := of_bind taken
  obtain ⟨_, taken⟩ := (Outcome.ite_throw_eq_ok_iff _ _ _ _).mp taken
  obtain ⟨_, taken⟩ := (Outcome.ite_throw_eq_ok_iff _ _ _ _).mp taken
  cases taken
  exact ⟨spent, fun isFoK => by simpa [isFoK] using killed⟩

theorem restingAmount_le {amountLeft : PrecDec} (nonneg : 0 ≤ amountLeft.i) :
    newPrecDecFromInt (if Rests orderType amountLeft filled then amountLeft.truncateInt
      else 0) ≤ amountLeft := by
  rw [le_def]
  split
  · exact (isFloor_truncateInt nonneg).1
  · rw [newPrecDecFromInt_i, Int.zero_mul]
    exact nonneg

theorem total_pos_of_isDefined {amount : Int} {steps : List SweepStep}
    (wellFormed : book.WellFormed) (positive : 0 < amount)
    (limits : ∀ limit ∈ maxAmountOut, 0 < limit ∧ orderType.IsTakerOnly)
    (ok : limitOrderSwap book now tradePairID (newPrecDecFromInt amount) maxAmountOut
      limitPrice minAvgSellPrice orderType = .ok (result, filled))
    (sweeps : SwapSweeps now tradePairID (newPrecDecFromInt amount) maxAmountOut
      (some limitPrice) book result steps)
    (defined : orderType.IsDefined) :
    0 < result.totalTakerCoin.amount.i ∨
      Rests orderType (newPrecDecFromInt amount - result.totalTakerCoin.amount) filled := by
  have nonneg : 0 ≤ result.totalTakerCoin.amount.i := by
    rw [sweeps.totalTakerCoin]
    exact sweeps.inNonneg
  rcases nonneg.lt_or_eq with spent | unspent
  · exact .inl spent
  · by_cases takerOnly : orderType.IsTakerOnly
    · exact absurd unspent.symm (limitOrderSwap_takerOnly takerOnly ok).1
    · have unlimited : maxAmountOut = none :=
        Option.eq_none_iff_forall_not_mem.mpr fun limit isLimit =>
          takerOnly (limits limit isLimit).2
      subst unlimited
      have whole : 1 ≤ (newPrecDecFromInt amount).value := by
        rw [value_newPrecDecFromInt]
        exact_mod_cast positive
      have free : (SweepStep.totalIn steps).i = 0 := by
        rw [sweeps.totalTakerCoin] at unspent
        exact unspent.symm
      have unfilled := sweeps.unfilled_of_free wellFormed whole free
      have isFilled := (limitOrderSwap_eq_ok ok).2.resolve_left takerOnly
      have left : newPrecDecFromInt amount - result.totalTakerCoin.amount =
          newPrecDecFromInt amount := by
        ext
        rw [sub_i, ← unspent, sub_zero]
      have exact : (newPrecDecFromInt amount).truncateInt = amount :=
        Int.mul_tdiv_cancel _ (by decide)
      rw [left]
      refine .inr ⟨by rwa [exact], ?_, ?_⟩
      · rw [isFilled, unfilled]
        exact Bool.false_ne_true
      · cases orderType with
        | goodTilCancelled => exact .inl rfl
        | justInTime => exact .inr (.inl rfl)
        | goodTilTime => exact .inr (.inr rfl)
        | fillOrKill => exact absurd (.inr rfl) takerOnly
        | immediateOrCancel => exact absurd (.inl rfl) takerOnly
        | unrecognized _ => exact absurd defined not_false

end Amounts

theorem MsgPlaceLimitOrder.exists_timely (msg : MsgPlaceLimitOrder) :
    ∃ start, msg.orderType = .goodTilTime →
      ∀ expirationTime ∈ msg.expirationTime.map Timestamp.time,
        Timely start expirationTime := by
  cases msg.expirationTime with
  | none => exact ⟨0, fun _ => by rintro _ ⟨⟩⟩
  | some timestamp =>
      refine ⟨timestamp.time - 1, fun _ => ?_⟩
      rintro _ ⟨⟩
      exact .inr ⟨Int.sub_one_lt_of_le le_rfl, timestamp.beforeYear10000⟩

theorem newPrecDecFromInt_injective : Function.Injective newPrecDecFromInt := by
  intro left right same
  have units := congrArg PrecDec.i same
  rw [newPrecDecFromInt_i, newPrecDecFromInt_i] at units
  exact Int.eq_of_mul_eq_mul_right (by decide) units

section Accounts

variable {world final : World} {msg : MsgPlaceLimitOrder} {tickIndex : Int}
  {tradePairID : TradePairID} {output : PlaceLimitOrderOutput}

/-- An order of a defined type keeps its accounts, and one of another type keeps them
exactly when its swap has something to pay for: if it has not, nothing is charged. -/
theorem placeLimitOrderCore_accounts_iff (wellFormed : world.dex.WellFormed)
    (valid : msg.validate = .ok ()) (isTick : msg.tickIndex = .ok tickIndex)
    (isPair : newTradePairID msg.tokenIn msg.tokenOut = .ok tradePairID)
    (ok : placeLimitOrderCore world msg.tokenIn msg.tokenOut msg.amountIn tickIndex
      msg.orderType (msg.expirationTime.map Timestamp.time) msg.maxAmountOut
      msg.minAverageSellPrice msg.creator.address msg.receiver = .ok (output, final)) :
    (∃ swapped steps placed,
      output.Accounts world final msg tradePairID tickIndex swapped steps placed) ↔
    msg.orderType.IsDefined ∨
      world.dex.book.Charges world.blockTime tradePairID (tickPrice tickIndex) := by
  obtain ⟨positive, limits⟩ := MsgPlaceLimitOrder.validate_eq_ok valid
  obtain ⟨executed, execute, isKey, isTotal, ⟨book, users⟩, wealth⟩ :=
    placeLimitOrderCore_executed isPair ok
  obtain ⟨buyPrice, sellPrice, swapped, filled, isBuy, isSell, limitSwap, swapIn, swapOut,
    totalIn, _⟩ := executePlaceLimitOrder_eq_ok execute
  obtain ⟨_, rfl⟩ := calcPrice_eq_ok_iff.mp isBuy
  have inNonneg := newPrecDecFromInt_nonneg positive.le
  have outNonneg : ∀ limit ∈ msg.maxAmountOut, 0 ≤ limit :=
    fun limit isLimit => (limits limit isLimit).1.le
  have swap := (limitOrderSwap_eq_ok limitSwap).1
  have limited : (if msg.orderType.IsTakerOnly then msg.maxAmountOut else none) =
      msg.maxAmountOut := by
    split
    · rfl
    · rename_i notTaker
      exact (Option.eq_none_iff_forall_not_mem.mpr fun limit isLimit =>
        notTaker (limits limit isLimit).2).symm
  rw [limited] at swap
  obtain ⟨steps, sweeps⟩ := swap_sweeps wellFormed.book inNonneg outNonneg swap
  have sweepsBook := sweeps.sweepsBook wellFormed.book inNonneg outNonneg
  obtain ⟨start, timely⟩ := msg.exists_timely
  obtain ⟨total, grows⟩ := executePlaceLimitOrder_grows wellFormed positive.le outNonneg
    timely execute
  rw [swapIn] at total
  have placed := newPrecDecFromInt_injective (add_left_cancel (total.symm.trans totalIn))
  have takerNonneg : 0 ≤ swapped.totalTakerCoin.amount.i := by
    rw [sweeps.totalTakerCoin]
    exact sweeps.inNonneg
  have resting : executed.sharesIssued = 0 ∨ 0 < executed.sharesIssued ∧
      (msg.orderType.IsGTC ∨ msg.orderType.IsJIT ∨ msg.orderType.IsGoodTil) := by
    rw [placed]
    split
    · rename_i rests
      exact .inr ⟨rests.1, rests.2.2⟩
    · exact .inl rfl
  have placedNonneg : 0 ≤ (newPrecDecFromInt executed.sharesIssued).i :=
    newPrecDecFromInt_nonneg (by omega)
  have isTotalIn : output.totalIn = executed.totalIn :=
    isTotal (by rw [total, add_i]; exact Int.add_nonneg takerNonneg placedNonneg)
  have takerSwap := MsgPlaceLimitOrder.takerSwap_eq isTick isPair isBuy isSell limitSwap
  constructor
  · rintro ⟨swappedAgain, _, placedAgain, accounts⟩
    by_cases defined : msg.orderType.IsDefined
    · exact .inl defined
    · obtain ⟨_, again⟩ := accounts.swap
      cases takerSwap.symm.trans again
      have unplaced : placedAgain = 0 := accounts.resting.resolve_right fun rests =>
        defined (LimitOrderType.isDefined_of_maker rests.2)
      have spent := accounts.positive
      rw [accounts.split, unplaced, add_i, newPrecDecFromInt_i, Int.zero_mul, add_zero]
        at spent
      exact .inr (sweepsBook.charges wellFormed.book spent)
  · intro takes
    have spent : 0 < swapped.totalTakerCoin.amount.i ∨ Rests msg.orderType
        (newPrecDecFromInt msg.amountIn - swapped.totalTakerCoin.amount) filled := by
      by_cases defined : msg.orderType.IsDefined
      · exact total_pos_of_isDefined wellFormed.book positive limits limitSwap sweeps defined
      · have unlimited : msg.maxAmountOut = none :=
          Option.eq_none_iff_forall_not_mem.mpr fun limit isLimit =>
            defined (LimitOrderType.isDefined_of_takerOnly (limits limit isLimit).2)
        have whole : 1 ≤ (newPrecDecFromInt msg.amountIn).value := by
          rw [value_newPrecDecFromInt]
          exact_mod_cast positive
        rw [unlimited] at sweeps
        exact .inl (sweeps.spent_of_charges wellFormed.book whole
          (takes.resolve_left defined))
    refine ⟨swapped, steps, executed.sharesIssued, {
      swap := ⟨filled, takerSwap⟩
      sweeps := sweepsBook
      positive := ?_
      within := ?_
      split := isTotalIn.trans total
      resting := resting
      shares := ?_
      total := ?_
      reserves := ?_
      filled := ?_
      paid := ?_ }⟩
    · rw [isTotalIn, total, add_i]
      rcases spent with taken | rests
      · exact Int.add_pos_of_pos_of_nonneg taken placedNonneg
      · rw [placed, if_pos rests, newPrecDecFromInt_i]
        exact Int.add_pos_of_nonneg_of_pos takerNonneg
          (Int.mul_pos rests.1 (by decide))
    · have left : 0 ≤ (newPrecDecFromInt msg.amountIn - swapped.totalTakerCoin.amount).i := by
        rw [sub_i]
        exact Int.sub_nonneg_of_le sweepsBook.in_le
      have whole := @restingAmount_le msg.orderType filled _ left
      rw [le_def, sub_i] at whole
      rw [isTotalIn, totalIn, le_def, add_i]
      omega
    · unfold DexState.sharesOf DexState.getLimitOrderTrancheUser
      rw [users, isKey]
      exact grows.shares
    · rw [book, isKey]
      exact grows.total
    · rw [book, isKey]
      exact grows.reserves
    · intro isFoK
      have killed := (limitOrderSwap_takerOnly (.inr isFoK) limitSwap).2 isFoK
      have unplaced : executed.sharesIssued = 0 := resting.resolve_right fun rests => by
        rcases rests.2 with isType | isType | isType <;>
          exact nomatch isFoK.symm.trans isType
      have allSwapped : output.totalIn = swapped.totalTakerCoin.amount := by
        rw [isTotalIn, total, unplaced]
        exact add_zero _
      rw [allSwapped]
      exact sweeps.filled_upTo sweepsBook wellFormed.book killed
    · intro address external denom
      rw [wealth address external denom, swapOut, (limitOrderSwap_coins limitSwap).2.1,
        newTradePairID_makerDenom isPair]

end Accounts

/-- An order of a type that is not defined finds nothing to swap: it succeeds, and
charges nothing. -/
theorem placeLimitOrderCore_free :
    let msg := orderAtOne "untrn" "uatom" (.unrecognized 5)
    msg.validate = .ok () ∧
      ∃ output final, placeLimitOrderCore openWorld msg.tokenIn msg.tokenOut msg.amountIn 0
        msg.orderType (msg.expirationTime.map Timestamp.time) msg.maxAmountOut
        msg.minAverageSellPrice msg.creator.address msg.receiver = .ok (output, final) ∧
      ¬ 0 < output.totalIn.i := by
  intro msg
  refine ⟨Outcome.toOption_eq_some_iff.mp (by decide +kernel), ?_⟩
  have runs : (placeLimitOrderCore openWorld msg.tokenIn msg.tokenOut msg.amountIn 0
      msg.orderType (msg.expirationTime.map Timestamp.time) msg.maxAmountOut
      msg.minAverageSellPrice msg.creator.address msg.receiver).toOption.map
        (fun placed => placed.1.totalIn) = some 0 := by
    decide +kernel
  obtain ⟨⟨output, final⟩, placed, free⟩ := Outcome.eq_ok_of_map_toOption runs
  refine ⟨output, final, placed, ?_⟩
  rw [free]
  exact lt_irrefl _

theorem placeLimitOrderCore_accounts_filled :
    let msg := orderAtOne "untrn" "uatom" .fillOrKill
    ∃ output final swapped steps placed,
      placeLimitOrderCore restedWorld msg.tokenIn msg.tokenOut msg.amountIn 0
        msg.orderType (msg.expirationTime.map Timestamp.time) msg.maxAmountOut
        msg.minAverageSellPrice msg.creator.address msg.receiver = .ok (output, final) ∧
      output.totalIn = newPrecDecFromInt 5 ∧
      output.Accounts restedWorld final msg ⟨"untrn", "uatom", by decide⟩ 0 swapped steps placed := by
  intro msg
  have reachable : World.Reachable restedWorld := ⟨defaultParams, tenEach, 5, "gov",
    [.message (.placeLimitOrder (orderAtOne "uatom" "untrn" .goodTilCancelled))], rfl⟩
  have runs : (placeLimitOrderCore restedWorld msg.tokenIn msg.tokenOut msg.amountIn 0
      msg.orderType (msg.expirationTime.map Timestamp.time) msg.maxAmountOut
      msg.minAverageSellPrice msg.creator.address msg.receiver).toOption.map
        (fun placed => placed.1.totalIn) = some (newPrecDecFromInt 5) := by
    decide +kernel
  obtain ⟨⟨output, final⟩, placed, total⟩ := Outcome.eq_ok_of_map_toOption runs
  obtain ⟨swapped, steps, amount, accounts⟩ := (placeLimitOrderCore_accounts_iff
    reachable.sound.wellFormed (Outcome.toOption_eq_some_iff.mp (by decide +kernel)) (by rfl)
    (by rfl) placed).mpr (.inl trivial)
  exact ⟨output, final, swapped, steps, amount, placed, total, accounts⟩

end Neutron.Dex
