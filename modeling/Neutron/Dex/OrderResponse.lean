import Neutron.Dex.OrderMessages
import Neutron.Dex.TransferSpec

namespace Neutron.Dex

open Library PrecDec

def IsCeil (amount : PrecDec) (whole : Int) : Prop :=
  amount.i ≤ whole * precisionReuse ∧ (whole - 1) * precisionReuse < amount.i

def IsFloor (amount : PrecDec) (whole : Int) : Prop :=
  whole * precisionReuse ≤ amount.i ∧ amount.i < (whole + 1) * precisionReuse

theorem isCeil_ceil (amount : PrecDec) : IsCeil amount amount.ceil.truncateInt := by
  obtain ⟨whole, above⟩ := ceil_eq amount
  refine ⟨whole ▸ above, ?_⟩
  rw [Int.sub_mul, whole, Int.one_mul]
  have unit : (0 : Int) < precisionReuse := by decide
  have split := Int.mul_tdiv_add_tmod amount.i precisionReuse
  rw [mul_comm] at split
  unfold ceil
  dsimp only
  split_ifs with isWhole
  · have remainder := Int.lt_tmod_of_pos amount.i unit
    rw [newPrecDecFromInt_i]
    omega
  · rw [newPrecDecFromInt_i, Int.add_mul]
    omega

theorem isFloor_truncateInt {amount : PrecDec} (nonneg : 0 ≤ amount.i) :
    IsFloor amount amount.truncateInt := by
  unfold truncateInt
  rw [Int.tdiv_eq_ediv_of_nonneg nonneg]
  exact ⟨Int.ediv_mul_le _ (by decide), Int.lt_ediv_add_one_mul_self _ (by decide)⟩

/-- The swap of an order against the book as it is before the order, and whether it
fills the order. -/
def MsgPlaceLimitOrder.takerSwap (msg : MsgPlaceLimitOrder) (world : World) :
    Outcome (SwapResult × Bool) := do
  let tickIndex ← msg.tickIndex
  let takerTradePairID ← newTradePairID msg.tokenIn msg.tokenOut
  let limitBuyPrice ← calcPrice tickIndex
  let limitSellPrice ← onePrecDec.quo limitBuyPrice
  limitOrderSwap world.dex.book world.blockTime takerTradePairID
    (newPrecDecFromInt msg.amountIn) msg.maxAmountOut limitBuyPrice
    (msg.minAverageSellPrice.getD limitSellPrice) msg.orderType

/-- The amounts of a response are those of the order: what was charged in all, what was
swapped at once and what the swap paid. -/
structure MsgPlaceLimitOrderResponse.Reports (response : MsgPlaceLimitOrderResponse)
    (world final : World) (msg : MsgPlaceLimitOrder) (swapped : SwapResult) : Prop where
  coinIn : ∃ charged : PrecDec,
    final.held msg.tokenIn = world.held msg.tokenIn + charged.i ∧
      response.coinIn.denom = msg.tokenIn ∧ IsCeil charged response.coinIn.amount
  decTakerCoinIn : response.decTakerCoinIn = ⟨msg.tokenIn, swapped.totalTakerCoin.amount⟩
  takerCoinIn : response.takerCoinIn.denom = msg.tokenIn ∧
    IsCeil swapped.totalTakerCoin.amount response.takerCoinIn.amount
  decTakerCoinOut : response.decTakerCoinOut = ⟨msg.tokenOut, swapped.totalMakerCoin.amount⟩
  takerCoinOut : response.takerCoinOut.denom = msg.tokenOut ∧
    IsFloor swapped.totalMakerCoin.amount response.takerCoinOut.amount
  received : final.held msg.tokenOut =
    world.held msg.tokenOut - swapped.totalMakerCoin.amount.i

variable {tradePairID : TradePairID} {amountLeft : PrecDec} {tickIndex : Int}

section Place

variable {world final : World}

variable {book : OrderBook} {now : Time} {amountIn : PrecDec} {maxAmountOut : Option Int}
  {result : SwapResult}

theorem swap_coins
    {limitPrice : Option PrecDec}
    (ok : swap book now tradePairID amountIn maxAmountOut limitPrice = .ok result) :
    result.totalTakerCoin.denom = tradePairID.takerDenom ∧
      result.totalMakerCoin.denom = tradePairID.makerDenom ∧
      0 ≤ result.totalMakerCoin.amount.i := by
  obtain ⟨last, _, ok⟩ := of_bind ok
  obtain ⟨takerCoin, takerNew, ok⟩ := of_bind ok
  obtain ⟨makerCoin, makerNew, ok⟩ := of_bind ok
  obtain ⟨_, _, rfl⟩ := newPrecDecCoin_eq_ok_iff.mp takerNew
  obtain ⟨_, nonneg, rfl⟩ := newPrecDecCoin_eq_ok_iff.mp makerNew
  cases ok
  exact ⟨rfl, rfl, nonneg⟩

variable {orderFilled : Bool}

theorem limitOrderSwap_coins
    {limitPrice minAvgSellPrice : PrecDec}
    {orderType : LimitOrderType}
    (ok : limitOrderSwap book now tradePairID amountIn maxAmountOut limitPrice
      minAvgSellPrice orderType = .ok (result, orderFilled)) :
    result.totalTakerCoin.denom = tradePairID.takerDenom ∧
      result.totalMakerCoin.denom = tradePairID.makerDenom ∧
      0 ≤ result.totalMakerCoin.amount.i := by
  exact swap_coins (limitOrderSwap_eq_ok ok).1

variable {dex : DexState} {tranche : LimitOrderTranche} {user : LimitOrderTrancheUser}
  {placed : PlacedMakerOrder}

theorem placeMakerOrder_sharesIssued {orderType : LimitOrderType}
    (ok : placeMakerOrder dex orderType tranche user amountLeft orderFilled = .ok placed) :
    placed.sharesIssued =
      if Rests orderType amountLeft orderFilled then amountLeft.truncateInt else 0 := by
  unfold placeMakerOrder at ok
  split at ok
  · rename_i rests
    obtain ⟨filled, _, ok⟩ := of_bind ok
    obtain ⟨recorded, _, ok⟩ := of_bind ok
    cases ok
    rw [if_pos rests]
  · rename_i gone
    cases ok
    rw [if_neg gone]

/-! Placing an order writes no fractional balances. -/

variable {opened : DexState} {goodTil : Option Time}

theorem initPlaceTranche_fractionalBalances
    (ok : initPlaceTranche dex tradePairID tickIndex goodTil = .ok (tranche, opened)) :
    opened.fractionalBalances = dex.fractionalBalances := by
  obtain ⟨created, _, ok⟩ := of_bind ok
  cases ok
  rfl

theorem getOrInitPlaceTranche_fractionalBalances
    {orderType : LimitOrderType}
    (ok : getOrInitPlaceTranche dex tradePairID tickIndex goodTil orderType =
      .ok (tranche, opened)) : opened.fractionalBalances = dex.fractionalBalances := by
  unfold getOrInitPlaceTranche at ok
  split at ok
  · exact initPlaceTranche_fractionalBalances ok
  · exact initPlaceTranche_fractionalBalances ok
  · split at ok
    · cases ok
      rfl
    · exact initPlaceTranche_fractionalBalances ok

theorem placeMakerOrder_fractionalBalances {orderType : LimitOrderType}
    (ok : placeMakerOrder dex orderType tranche user amountLeft orderFilled = .ok placed) :
    placed.dex.fractionalBalances = dex.fractionalBalances := by
  unfold placeMakerOrder at ok
  split at ok
  · obtain ⟨filled, _, ok⟩ := of_bind ok
    obtain ⟨recorded, record, ok⟩ := of_bind ok
    cases ok
    unfold recordExpiration at record
    split at record
    · obtain ⟨expiration, _, record⟩ := of_bind record
      cases record
      rfl
    · cases record
      rfl
  · cases ok
    rfl

variable {tickIndexInToOut : Int} {minAvgSellPriceP : Option PrecDec} {receiverAddr : String}

theorem executePlaceLimitOrder_eq_ok
    {takerTradePairID : TradePairID} {amountIn : Int}
    {orderType : LimitOrderType}
    {executed : ExecutedLimitOrder}
    (ok : executePlaceLimitOrder dex now takerTradePairID amountIn tickIndexInToOut
      orderType goodTil maxAmountOut minAvgSellPriceP receiverAddr = .ok executed) :
    ∃ limitBuyPrice limitSellPrice swapped filled,
      calcPrice tickIndexInToOut = .ok limitBuyPrice ∧
      onePrecDec.quo limitBuyPrice = .ok limitSellPrice ∧
      limitOrderSwap dex.book now takerTradePairID (newPrecDecFromInt amountIn)
        maxAmountOut limitBuyPrice (minAvgSellPriceP.getD limitSellPrice) orderType =
          .ok (swapped, filled) ∧
      executed.swapInCoin = swapped.totalTakerCoin ∧
      executed.swapOutCoin = swapped.totalMakerCoin ∧
      executed.totalIn = swapped.totalTakerCoin.amount + newPrecDecFromInt
        (if Rests orderType (newPrecDecFromInt amountIn - swapped.totalTakerCoin.amount)
          filled then
          (newPrecDecFromInt amountIn - swapped.totalTakerCoin.amount).truncateInt
        else 0) ∧
      executed.dex.fractionalBalances = dex.fractionalBalances := by
  obtain ⟨limitBuyPrice, buyPrice, ok⟩ := of_bind ok
  obtain ⟨limitSellPrice, sellPrice, ok⟩ := of_bind ok
  obtain ⟨⟨swapped, filled⟩, swap, ok⟩ := of_bind ok
  obtain ⟨⟨tranche, counted⟩, init, ok⟩ := of_bind ok
  obtain ⟨user, _, ok⟩ := of_bind ok
  obtain ⟨placed, place, ok⟩ := of_bind ok
  obtain ⟨last, count, ok⟩ := of_bind ok
  cases ok
  refine ⟨limitBuyPrice, limitSellPrice, swapped, filled, buyPrice, sellPrice, swap, rfl,
    rfl, ?_, ?_⟩
  · rw [placeMakerOrder_sharesIssued place]
  · obtain ⟨_, rfl⟩ := countJIT_eq count
    dsimp only
    rw [DexState.updateTrancheUser_eq]
    have opened := getOrInitPlaceTranche_fractionalBalances init
    exact (placeMakerOrder_fractionalBalances place).trans opened

theorem PrecDecCoin.flow_self (denom : String) (amount : PrecDec) :
    PrecDecCoin.flow ⟨denom, amount⟩ denom = amount.i := if_pos rfl

theorem PrecDecCoin.flow_of_ne {denom other : String} (amount : PrecDec)
    (different : other ≠ denom) : PrecDecCoin.flow ⟨denom, amount⟩ other = 0 :=
  if_neg different

theorem payTakerOut_pays {coin : PrecDecCoin}
    (nonneg : 0 ≤ coin.amount.i) (ok : payTakerOut world receiverAddr coin = .ok final) :
    Pays world (-coin.flow) 0 final := by
  unfold payTakerOut at ok
  split at ok
  · rw [← Transfer.run_payOut] at ok
    have sound : Transfer.Sound (.payOut receiverAddr (PrecDecCoins.single coin)) :=
      single_nonneg nonneg
    have pays := Transfer.run_pays sound ok
    rw [Transfer.due, flow_single] at pays
    exact pays
  · rename_i notPositive
    cases ok
    have zero : coin.amount = zeroPrecDec :=
      PrecDec.ext (le_antisymm (not_lt.mp notPositive) nonneg)
    rw [PrecDecCoin.flow, zero, Flow.coin_zero, neg_zero]
    exact .refl world

theorem placeLimitOrderCore_eq_ok {tokenIn tokenOut : String}
    {amountIn : Int} {orderType : LimitOrderType}
    {callerAddr : String}
    {output : PlaceLimitOrderOutput} {totalInCoin : PrecDecCoin}
    (external : callerAddr ≠ moduleName)
    (ok : placeLimitOrderCore world tokenIn tokenOut amountIn tickIndexInToOut orderType
      goodTil maxAmountOut minAvgSellPriceP callerAddr receiverAddr = .ok (output, final))
    (isTotal : output.totalInCoin = some totalInCoin) :
    ∃ takerTradePairID executed, newTradePairID tokenIn tokenOut = .ok takerTradePairID ∧
      executePlaceLimitOrder world.dex world.blockTime takerTradePairID amountIn
        tickIndexInToOut orderType goodTil maxAmountOut minAvgSellPriceP receiverAddr =
          .ok executed ∧
      output.swapInCoin = executed.swapInCoin ∧ output.swapOutCoin = executed.swapOutCoin ∧
      totalInCoin = ⟨tokenIn, executed.totalIn⟩ ∧
      final.held = world.held - executed.swapOutCoin.flow +
        PrecDecCoin.flow ⟨tokenIn, executed.totalIn⟩ := by
  obtain ⟨takerTradePairID, pair, ok⟩ := of_bind ok
  obtain ⟨executed, execute, ok⟩ := of_bind ok
  obtain ⟨paidOut, payOut, ok⟩ := of_bind ok
  obtain ⟨_, _, swapped, _, _, _, swap, _, isOut, _, balances⟩ :=
    executePlaceLimitOrder_eq_ok execute
  obtain ⟨_, _, outNonneg⟩ := limitOrderSwap_coins swap
  split at ok
  · obtain ⟨coin, coinNew, ok⟩ := of_bind ok
    obtain ⟨paidIn, payIn, ok⟩ := of_bind ok
    obtain ⟨_, _, rfl⟩ := newPrecDecCoin_eq_ok_iff.mp coinNew
    cases ok
    cases isTotal
    refine ⟨takerTradePairID, executed, pair, execute, rfl, rfl, rfl, ?_⟩
    have paysOut := payTakerOut_pays (isOut ▸ outNonneg) payOut
    rw [← Transfer.run_payIn] at payIn
    have sound : Transfer.Sound (.payIn callerAddr (PrecDecCoins.single
        ⟨tokenIn, executed.totalIn⟩)) := external
    have paysIn := Transfer.run_pays sound payIn
    rw [Transfer.due, flow_single] at paysIn
    have start : World.held { world with dex := executed.dex } = world.held := by
      unfold World.held
      simp only [balances]
    rw [(paysOut.trans paysIn).held, start, sub_eq_add_neg, add_assoc]
  · cases ok
    cases isTotal

end Place

section Response

variable {world final : World} {msg : MsgPlaceLimitOrder}
  {response : MsgPlaceLimitOrderResponse}

theorem MsgPlaceLimitOrder.tokens_ne {result : Unit} (ok : msg.validate = .ok result) :
    msg.tokenIn ≠ msg.tokenOut := by
  obtain ⟨_, _, ok⟩ := of_bind ok
  obtain ⟨_, _, ok⟩ := of_bind ok
  obtain ⟨_, different, _⟩ := of_bind ok
  exact ensure_eq_ok_iff.mp different

theorem MsgPlaceLimitOrder.takerSwap_eq
    {limitBuyPrice limitSellPrice : PrecDec} {swap : Outcome (SwapResult × Bool)}
    (isTick : msg.tickIndex = .ok tickIndex)
    (isPair : newTradePairID msg.tokenIn msg.tokenOut = .ok tradePairID)
    (isBuy : calcPrice tickIndex = .ok limitBuyPrice)
    (isSell : onePrecDec.quo limitBuyPrice = .ok limitSellPrice)
    (isSwap : limitOrderSwap world.dex.book world.blockTime tradePairID
      (newPrecDecFromInt msg.amountIn) msg.maxAmountOut limitBuyPrice
      (msg.minAverageSellPrice.getD limitSellPrice) msg.orderType = swap) :
    msg.takerSwap world = swap := by
  rw [takerSwap, isTick, Outcome.ok_bind, isPair, Outcome.ok_bind, isBuy,
    Outcome.ok_bind, isSell, Outcome.ok_bind]
  exact isSwap

theorem restingAmount_eq_zero_iff {orderType : LimitOrderType}
    {filled : Bool} :
    newPrecDecFromInt (if Rests orderType amountLeft filled then amountLeft.truncateInt
      else 0) = zeroPrecDec ↔ ¬ Rests orderType amountLeft filled := by
  constructor
  · intro zero rests
    rw [if_pos rests] at zero
    have units := congrArg PrecDec.i zero
    rw [newPrecDecFromInt_i, zeroPrecDec_i] at units
    have whole := rests.1
    have unit : (0 : Int) < precisionReuse := by decide
    have positive := Int.mul_pos whole unit
    omega
  · intro gone
    rw [if_neg gone]
    rfl

/-- The response is right exactly when nothing of the order rests on the book: it reports
the amount charged in all as the amount that was swapped. -/
theorem placeLimitOrder_reports_iff
    (ok : MsgServer.placeLimitOrder world msg = .ok (response, final)) :
    ∃ swapped filled, msg.takerSwap world = .ok (swapped, filled) ∧
      (response.Reports world final msg swapped ↔
        ¬ Rests msg.orderType
          (newPrecDecFromInt msg.amountIn - swapped.totalTakerCoin.amount) filled) := by
  obtain ⟨_, valid, ok⟩ := of_bind ok
  have different := MsgPlaceLimitOrder.tokens_ne (wrapError_eq_ok_iff.mp valid)
  obtain ⟨_, _, ok⟩ := of_bind ok
  obtain ⟨_, _, ok⟩ := of_bind ok
  obtain ⟨_, _, ok⟩ := of_bind ok
  obtain ⟨tickIndex, isTick, ok⟩ := of_bind ok
  obtain ⟨⟨output, last⟩, place, ok⟩ := of_bind ok
  dsimp only at ok
  split at ok
  · cases ok
  · rename_i coinIn isTotal
    cases ok
    obtain ⟨takerTradePairID, executed, pair, execute, isIn, isOut, isCoinIn, held⟩ :=
      placeLimitOrderCore_eq_ok msg.creator.external place isTotal
    obtain ⟨buyPrice, sellPrice, swapped, filled, isBuy, isSell, swap, swapIn, swapOut,
      totalIn, _⟩ := executePlaceLimitOrder_eq_ok execute
    have takerSwap := MsgPlaceLimitOrder.takerSwap_eq isTick pair isBuy isSell swap
    obtain ⟨inDenom, outDenom, outNonneg⟩ := limitOrderSwap_coins swap
    rw [newTradePairID_takerDenom pair] at inDenom
    rw [newTradePairID_makerDenom pair] at outDenom
    have isSwapOut : output.swapOutCoin = ⟨msg.tokenOut, swapped.totalMakerCoin.amount⟩ := by
      rw [isOut, swapOut, ← outDenom]
    have isSwapIn : output.swapInCoin = ⟨msg.tokenIn, swapped.totalTakerCoin.amount⟩ := by
      rw [isIn, swapIn, ← inDenom]
    rw [← isOut, isSwapOut] at held
    refine ⟨swapped, filled, takerSwap, ?_⟩
    rw [← restingAmount_eq_zero_iff]
    constructor
    · intro reports
      have same := congrArg PrecDecCoin.amount reports.decTakerCoinIn
      dsimp only at same
      rw [isCoinIn] at same
      dsimp only at same
      rw [totalIn] at same
      exact add_eq_left.mp same
    · intro nothing
      rw [nothing] at totalIn
      have charged : executed.totalIn = swapped.totalTakerCoin.amount :=
        totalIn.trans (add_zero _)
      rw [charged] at isCoinIn held
      refine ⟨⟨swapped.totalTakerCoin.amount, ?_, ?_⟩, isCoinIn, ?_, isSwapOut, ?_, ?_⟩
      · rw [held, Pi.add_apply, Pi.sub_apply, PrecDecCoin.flow_self,
          PrecDecCoin.flow_of_ne _ different, sub_zero]
      · rw [isCoinIn]
        exact ⟨rfl, isCeil_ceil _⟩
      · rw [isSwapIn]
        exact ⟨rfl, isCeil_ceil _⟩
      · rw [isSwapOut]
        exact ⟨rfl, isFloor_truncateInt outNonneg⟩
      · rw [held, Pi.add_apply, Pi.sub_apply, PrecDecCoin.flow_self,
          PrecDecCoin.flow_of_ne _ different.symm, add_zero]

end Response

section Examples

def orderAtOne (tokenIn tokenOut : String) (orderType : LimitOrderType) :
    MsgPlaceLimitOrder :=
  ⟨alice, "alice", tokenIn, tokenOut, 0, 5, orderType, none, none, none, none⟩

/-- Nothing of an order on an empty book is swapped, and the response says that all is. -/
theorem placeLimitOrder_misreports_resting :
    let msg := orderAtOne "untrn" "uatom" .goodTilCancelled
    (MsgServer.placeLimitOrder openWorld msg).toOption.map
        (fun placed => placed.1.decTakerCoinIn) = some ⟨"untrn", newPrecDecFromInt 5⟩ ∧
      (msg.takerSwap openWorld).toOption.map (fun swap => swap.1.totalTakerCoin) =
        some ⟨"untrn", zeroPrecDec⟩ := by
  decide +kernel

def restedWorld : World := step openWorld
  (.message (.placeLimitOrder (orderAtOne "uatom" "untrn" .goodTilCancelled)))

theorem placeLimitOrder_reports_taker :
    let msg := orderAtOne "untrn" "uatom" .immediateOrCancel
    ∃ response final swapped filled,
      MsgServer.placeLimitOrder restedWorld msg = .ok (response, final) ∧
      msg.takerSwap restedWorld = .ok (swapped, filled) ∧
      response.Reports restedWorld final msg swapped ∧
      response.takerCoinIn = ⟨"untrn", 5⟩ := by
  intro msg
  have succeeds : ((MsgServer.placeLimitOrder restedWorld msg).toOption.map
      fun placed => placed.1.takerCoinIn) = some ⟨"untrn", 5⟩ := by
    decide +kernel
  cases placed : MsgServer.placeLimitOrder restedWorld msg with
  | error cause =>
      rw [placed] at succeeds
      cases succeeds
  | ok result =>
      obtain ⟨response, final⟩ := result
      rw [placed] at succeeds
      obtain ⟨swapped, filled, swap, reports⟩ := placeLimitOrder_reports_iff placed
      refine ⟨response, final, swapped, filled, rfl, swap, reports.mpr ?_,
        Option.some.inj succeeds⟩
      rintro ⟨_, _, resting⟩
      exact absurd resting (by decide)

end Examples

end Neutron.Dex
