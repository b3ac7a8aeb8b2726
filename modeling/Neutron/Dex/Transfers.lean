import Neutron.Library.Nested
import Neutron.Dex.MsgServer

namespace Neutron.Dex

open Library PrecDec

/-! Messages cut at their calls of the bank.  A message writes to the stores of the
dex first and moves coins afterwards, and before coins move between an account and the
module account the bank runs the hooks of their denoms
(`x/tokenfactory/keeper/before_send.go`), which may send messages to the dex. -/

inductive Transfer where
  | payIn (address : String) (tokens : PrecDecCoins)
  | payOut (address : String) (tokens : PrecDecCoins)
  | mintShares (address : String) (shares : Coins)
  | burnShares (address : String) (shares : Coins)

/-- What a payment has computed when it calls the bank: the fractions it has read,
the coins to move, and the fractions to store once they have moved. -/
structure Quote where
  read : PrecDecCoins
  coins : Coins
  newBalance : BalanceMap

def quoteIn (dex : DexState) (address : String) (tokens : PrecDecCoins) :
    Outcome Quote := do
  let balances ← getFractionalBalances dex address (tokens.entries.map Prod.fst)
  let (coinsToSend, newBalance) ← calcUserSendMinusDebts tokens balances
  pure ⟨balances, coinsToSend, newBalance⟩

def quoteOut (dex : DexState) (address : String) (tokens : PrecDecCoins) :
    Outcome Quote := do
  let balance ← getFractionalBalances dex address (tokens.entries.map Prod.fst)
  let (wholeTokens, fractionalDebts) :=
    roundDownToWholeTokenAmounts (Tally.add balance tokens)
  pure ⟨balance, wholeTokens, fractionalDebts⟩

inductive Pending where
  | payIn (address : String) (tokens : PrecDecCoins) (quote : Quote)
  | payOut (address : String) (tokens : PrecDecCoins) (quote : Quote)
  | sendShares (address : String) (shares : Coins)
  | collectShares (address : String) (shares : Coins)

/-- The transfer up to its call of the bank.  Shares are minted before they are sent. -/
def Transfer.begin (world : World) : Transfer → Outcome (Pending × World)
  | .payIn address tokens => do
      let quote ← quoteIn world.dex address tokens
      pure (.payIn address tokens quote, world)
  | .payOut address tokens => do
      let quote ← quoteOut world.dex address tokens
      pure (.payOut address tokens quote, world)
  | .mintShares address shares => do
      let bank ← world.bank.mintCoins shares
      pure (.sendShares address shares, { world with bank := bank })
  | .burnShares address shares => pure (.collectShares address shares, world)

namespace Pending

/-- The coins the bank is asked to move; it runs the hooks of their denoms. -/
def coins : Pending → Coins
  | .payIn _ _ quote | .payOut _ _ quote => quote.coins
  | .sendShares _ shares | .collectShares _ shares => shares

/-- The coins move, and the transfer goes on in the world that the hooks have left. -/
def finish (world : World) : Pending → Outcome World
  | .payIn address _ quote => do
      let bank ← unlessEmpty quote.coins world.bank
        (world.bank.sendCoinsFromAccountToModule address quote.coins)
      pure { world with
        bank := bank
        dex := setFractionalBalance world.dex address quote.newBalance }
  | .payOut address _ quote => do
      let bank ← unlessEmpty quote.coins world.bank
        (world.bank.sendCoinsFromModuleToAccount address quote.coins)
      pure { world with
        bank := bank
        dex := setFractionalBalance world.dex address quote.newBalance }
  | .sendShares address shares => do
      let bank ← world.bank.sendCoinsFromModuleToAccount address shares
      pure { world with bank := bank }
  | .collectShares address shares => do
      let bank ← burnShares world.bank address shares
      pure { world with bank := bank }

end Pending

def Transfer.run (world : World) (transfer : Transfer) : Outcome World := do
  let (pending, begun) ← transfer.begin world
  pending.finish begun

def settle (world : World) (transfers : List Transfer) : Outcome World :=
  transfers.foldlM Transfer.run world

/-- The stores of the dex when a message first calls the bank, and its transfers in
order. -/
structure Prepared where
  dex : DexState
  transfers : List Transfer

namespace Prepare

variable (world : World)

def deposit (msg : MsgDeposit) : Outcome Prepared := do
  wrapError "failed to validate MsgDeposit" msg.validate
  MsgServer.assertNotPaused world
  MsgServer.assertNotWithdrawOnly world
  let pairID ← newPairID msg.tokenA msg.tokenB
  let executed ← executeDeposit world pairID msg.creator.address
    (MsgServer.depositLegs msg pairID)
  let coin0 ← newPrecDecCoin pairID.token0 executed.totalInAmount0
  let coin1 ← newPrecDecCoin pairID.token1 executed.totalInAmount1
  let coinsToSend ← newPrecDecCoins [coin0, coin1]
  let payments := if coinsToSend.entries = [] then []
    else [.payIn msg.creator.address coinsToSend]
  pure ⟨executed.dex,
    payments ++ [.mintShares msg.receiver (sanitizeCoins executed.sharesIssued)]⟩

def withdrawHandler (callerAddr receiverAddr : String) (pairID : PairID)
    (removals : List (Pool × Int)) : Outcome Prepared := do
  let executed ← executeWithdraw world callerAddr removals
  let coin0 ← newPrecDecCoin pairID.token0 executed.totalReserve0ToRemove
  let coin1 ← newPrecDecCoin pairID.token1 executed.totalReserve1ToRemove
  let coinsToRemove ← newPrecDecCoins [coin0, coin1]
  pure ⟨executed.dex, [.burnShares callerAddr executed.coinsToBurn,
    .payOut receiverAddr coinsToRemove]⟩

def withdrawal (msg : MsgWithdrawal) : Outcome Prepared := do
  wrapError "failed to validate MsgWithdrawal" msg.validate
  MsgServer.assertNotPaused world
  let pairID ← newPairID msg.tokenA msg.tokenB
  let tickIndexes := normalizeAllTickIndexes msg.tokenA pairID.token0
    msg.tickIndexesAToB
  let poolsToRemoveFrom ← poolDataToPools world.dex pairID (tickIndexes.zip msg.fees)
  withdrawHandler world msg.creator.address msg.receiver pairID
    (poolsToRemoveFrom.zip msg.sharesToRemove)

def withdrawalWithShares (msg : MsgWithdrawalWithShares) : Outcome Prepared := do
  wrapError "failed to validate MsgWithdrawalWithShares" msg.validate
  MsgServer.assertNotPaused world
  let poolsToRemoveFrom ← sharesToPools world.dex msg.sharesToRemove
  match poolsToRemoveFrom.head? with
  | none => abort .indexOutOfRange
  | some first =>
      withdrawHandler world msg.creator.address msg.receiver first.pairID
        (poolsToRemoveFrom.zip (msg.sharesToRemove.map Coin.amount))

def placeLimitOrder (msg : MsgPlaceLimitOrder) : Outcome Prepared := do
  wrapError "failed to validate MsgPlaceLimitOrder" msg.validate
  MsgServer.assertNotPaused world
  MsgServer.assertNotWithdrawOnly world
  msg.validateGoodTilExpiration world.blockTime
  let tickIndex ← msg.tickIndex
  let takerTradePairID ← newTradePairID msg.tokenIn msg.tokenOut
  let executed ← executePlaceLimitOrder world.dex world.blockTime takerTradePairID
    msg.amountIn tickIndex msg.orderType (msg.expirationTime.map Timestamp.time)
    msg.maxAmountOut msg.minAverageSellPrice msg.receiver
  let payments := if executed.swapOutCoin.amount.IsPositive then
      [.payOut msg.receiver (PrecDecCoins.single executed.swapOutCoin)]
    else []
  -- the response panics on an order that charges nothing
  Outcome.require executed.totalIn.IsPositive (.panic .nilAmount)
  let totalInCoin ← newPrecDecCoin msg.tokenIn executed.totalIn
  pure ⟨executed.dex, payments ++
    [.payIn msg.creator.address (PrecDecCoins.single totalInCoin)]⟩

def withdrawFilledLimitOrder (msg : MsgTranche) : Outcome Prepared := do
  MsgServer.assertNotPaused world
  let (coins, dex) ← executeWithdrawFilledLimitOrder world.dex msg.trancheKey
    msg.creator.address
  let coinsOut ← newPrecDecCoins [coins.takerCoinOut, coins.makerCoinOut]
  pure ⟨dex, [.payOut msg.creator.address coinsOut]⟩

def cancelLimitOrder (msg : MsgTranche) : Outcome Prepared := do
  MsgServer.assertNotPaused world
  let (coins, dex) ← executeCancelLimitOrder world.dex msg.trancheKey msg.creator.address
  let coinsOut ← newPrecDecCoins [coins.makerCoinOut, coins.takerCoinOut]
  pure ⟨dex, [.payOut msg.creator.address coinsOut]⟩

def multiHopSwap (msg : MsgMultiHopSwap) : Outcome Prepared := do
  wrapError "failed to validate MsgMultiHopSwap" msg.validate
  MsgServer.assertNotPaused world
  MsgServer.assertNotWithdrawOnly world
  let output ← calulateMultiHopSwap world.dex.book world.blockTime msg.amountIn msg.routes
    msg.exitLimitPrice msg.pickBestRoute
  match output.bestRoute with
  | none => abort .nilFunction
  | some bestRoute =>
      let book := output.memory.writeCache world.dex.book bestRoute.write
      pure ⟨{ world.dex with book := book },
        [.payIn msg.creator.address (PrecDecCoins.single output.initialInCoin),
          .payOut msg.receiver
            (Tally.add bestRoute.dust (PrecDecCoins.single bestRoute.coinOut))]⟩

def updateParams (msg : MsgUpdateParams) : Outcome Prepared := do
  wrapError "failed to validate MsgUpdateParams" msg.params.validate
  ensure (world.authority = msg.authority) .invalidAuthority
  pure ⟨{ world.dex with params := msg.params }, []⟩

end Prepare

def prepare (world : World) : Msg → Outcome Prepared
  | .deposit msg => Prepare.deposit world msg
  | .withdrawal msg => Prepare.withdrawal world msg
  | .withdrawalWithShares msg => Prepare.withdrawalWithShares world msg
  | .placeLimitOrder msg => Prepare.placeLimitOrder world msg
  | .withdrawFilledLimitOrder msg => Prepare.withdrawFilledLimitOrder world msg
  | .cancelLimitOrder msg => Prepare.cancelLimitOrder world msg
  | .multiHopSwap msg => Prepare.multiHopSwap world msg
  | .updateParams msg => Prepare.updateParams world msg

/-- A message that waits for the bank, with the transfers it has still to begin. -/
structure Frame where
  pending : Pending
  rest : List Transfer

abbrev HookedWorld := Nested World Frame

/-- Messages arrive between messages, and from a hook while coins are to be moved. -/
def HookedWorld.Receives (state : HookedWorld) : Prop :=
  ∀ frame ∈ state.frames.head?, frame.pending.coins.entries ≠ []

instance (state : HookedWorld) : Decidable state.Receives :=
  inferInstanceAs (Decidable (∀ frame ∈ state.frames.head?, _))

inductive HookedAction where
  /-- A message is sent: by an account, or by a contract that runs as a hook. -/
  | message (msg : Msg)
  /-- The hooks are done: the coins move and the innermost message goes on. -/
  | proceed
  /-- The innermost message fails, as when a hook rejects the transfer. -/
  | fail
  | purge (curTime : Time) (gasAtStart : Nat) (gasConsumed : Nat → Nat)
  | nextBlock (blockTime : Time)

/-- The frame and the world once the next transfer has called the bank; no frame if
there is none left. -/
def beginNext (world : World) : List Transfer → Outcome (Option Frame × World)
  | [] => pure (none, world)
  | transfer :: rest => do
      let (pending, begun) ← transfer.begin world
      pure (some ⟨pending, rest⟩, begun)

namespace HookedWorld

variable (state : HookedWorld)

def receive (msg : Msg) : HookedWorld :=
  let begun := do
    let prepared ← prepare state.world msg
    beginNext { state.world with dex := prepared.dex } prepared.transfers
  match begun with
  | .error _ => state
  | .ok (none, world) => state.update world
  | .ok (some frame, world) => state.enter frame world

def proceed (frame : Frame) : HookedWorld :=
  let begun := do
    let world ← frame.pending.finish state.world
    beginNext world frame.rest
  match begun with
  | .error _ => state.revert
  | .ok (none, world) => state.leave world
  | .ok (some next, world) => state.advance next world

end HookedWorld

def hookedStep (state : HookedWorld) : HookedAction → HookedWorld
  | .message msg => if state.Receives then state.receive msg else state
  | .proceed =>
      match state.frames.head? with
      | none => state
      | some frame => state.proceed frame
  | .fail => state.revert
  | .purge curTime gasAtStart gasConsumed =>
      if state.frames = [] then
        state.update { state.world with
          dex := purgeExpiredLimitOrders state.world.dex curTime gasAtStart gasConsumed }
      else state
  | .nextBlock blockTime =>
      if state.frames = [] then
        state.update { state.world with
          blockTime := blockTime, dex := { state.world.dex with jitsInBlock := 0 } }
      else state

end Neutron.Dex
