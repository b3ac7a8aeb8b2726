import Neutron.Library.Nested
import Neutron.InterchainQueries.Types

namespace Neutron.InterchainQueries

open Library
open Neutron.Dex (Coins Bank)

/-! The keeper and its messages (`x/interchainqueries/keeper`).  Transfers of deposits run
the hooks of the bank and results are handed to the owner's contract: between the parts
of a message other messages may run from begin to end. -/

def moduleName : String := "interchainqueries"

/-- A call of `SudoTxQueryResult`, for the transaction with hash `txHash`. -/
structure TxCallback where
  owner : String
  queryId : Nat
  height : Height
  data : Bytes
  txHash : Bytes
  deriving DecidableEq

inductive Event where
  | stored (query : RegisteredQuery) (result : QueryResult)
  | rekeyed (queryId : Nat)
  | delivered (call : TxCallback)

/-- The stores of the module; `log` records what happened, the last event first. -/
structure World where
  authority : String
  params : Params
  lastRegisteredQueryKey : Nat
  queries : SortedStore Nat RegisteredQuery
  results : SortedStore Nat QueryResult
  submittedTxs : SortedStore (Nat ×ₗ Bytes) Unit
  txQueriesToRemove : SortedStore Nat Unit
  bank : Bank
  log : List Event

inductive Frame where
  | execution
  | collectDeposit (query : RegisteredQuery)
  | payOutDeposit (deposit : Coins) (recipient : String)
  | kvCallback (owner : String) (queryId : Nat)
  | txCallback (call : TxCallback) (blockHeight : Nat)

namespace World

variable (world : World)

def record (event : Event) : World := { world with log := event :: world.log }

def getQueryByID (id : Nat) : Except Failure RegisteredQuery :=
  match world.queries.get? id with
  | none => .error .invalidQueryID
  | some query => .ok query

def saveQuery (query : RegisteredQuery) : World :=
  { world with queries := world.queries.set query.id query }

def removeQuery (query : RegisteredQuery) : World :=
  let removed := { world with queries := world.queries.delete query.id }
  match query.queryType with
  | .kv => { removed with results := removed.results.delete query.id }
  | .tx => { removed with txQueriesToRemove := removed.txQueriesToRemove.set query.id () }

def saveTransactionAsProcessed (queryId : Nat) (txHash : Bytes) : World :=
  { world with submittedTxs := world.submittedTxs.set (toLex (queryId, txHash)) () }

def checkTransactionIsAlreadyProcessed (queryId : Nat) (txHash : Bytes) : Bool :=
  (world.submittedTxs.get? (toLex (queryId, txHash))).isSome

def updateLastLocalHeight (queryId newLocalHeight : Nat) : Except Failure World := do
  let query ← world.getQueryByID queryId
  .ok (world.saveQuery { query with lastSubmittedResultLocalHeight := newLocalHeight })

end World

def beginRegister (environment : Environment) (world : World)
    (msg : MsgRegisterInterchainQuery) : Except Failure (RegisteredQuery × World) := do
  let queryType ← msg.validate environment world.params
  Outcome.require (environment.hasContractInfo msg.sender) .notContract
  Outcome.require (environment.getConnection msg.connectionId).isSome .invalidConnectionID
  let lastID := world.lastRegisteredQueryKey + 1
  let registeredQuery : RegisteredQuery :=
    { id := lastID
      owner := msg.sender
      queryType := queryType
      keys := msg.keys
      transactionsFilter := msg.transactionsFilter
      connectionId := msg.connectionId
      updatePeriod := msg.updatePeriod
      lastSubmittedResultLocalHeight := 0
      lastSubmittedResultRemoteHeight := none
      deposit := world.params.queryDeposit
      submitTimeout := world.params.querySubmitTimeout
      registeredAtHeight := environment.blockHeight }
  .ok (registeredQuery, { world with lastRegisteredQueryKey := lastID })

def finishRegister (world : World) (query : RegisteredQuery) : Except Failure World :=
  match world.bank.sendCoins query.owner moduleName query.deposit with
  | .error cause => .error (.bank cause)
  | .ok bank => .ok ({ world with bank := bank }.saveQuery query)

def beginRemove (environment : Environment) (world : World)
    (msg : MsgRemoveInterchainQuery) : Except Failure (Frame × World) := do
  msg.validate environment
  let query ← world.getQueryByID msg.queryId
  query.validateRemoval environment.blockHeight msg.sender
  .ok (.payOutDeposit query.deposit msg.sender, world.removeQuery query)

/-- `MustPayOutDeposit`; its errors are panics. -/
def finishRemove (world : World) (deposit : Coins) (recipient : String) :
    Except Failure World :=
  if world.bank.blockedAddr recipient then
    .error (.bank (.error (.unauthorizedRecipient recipient)))
  else
    match world.bank.sendCoins moduleName recipient deposit with
    | .error cause => .error (.bank cause)
    | .ok bank => .ok { world with bank := bank }

def validateUpdateInterchainQueryParams (query : RegisteredQuery)
    (msg : MsgUpdateInterchainQuery) : Except Failure Unit :=
  let newKvKeysSet := msg.newKeys ≠ []
  let newTxFilterSet := msg.newTransactionsFilter ≠ ""
  if query.queryType = .kv ∧ ¬ newKvKeysSet ∧ newTxFilterSet then
    .error .invalidRequest
  else if query.queryType = .tx ∧ ¬ newTxFilterSet ∧ newKvKeysSet then
    .error .invalidRequest
  else
    .ok ()

/-- The fields of a query that an update replaces. -/
def MsgUpdateInterchainQuery.apply (msg : MsgUpdateInterchainQuery)
    (query : RegisteredQuery) : RegisteredQuery :=
  { query with
    updatePeriod := if 0 < msg.newUpdatePeriod then msg.newUpdatePeriod else query.updatePeriod
    keys := if msg.newKeys ≠ [] ∧ query.queryType = .kv then msg.newKeys else query.keys
    transactionsFilter :=
      if msg.newTransactionsFilter ≠ "" ∧ query.queryType = .tx then
        msg.newTransactionsFilter
      else
        query.transactionsFilter }

def updateInterchainQuery (environment : Environment) (world : World)
    (msg : MsgUpdateInterchainQuery) : Except Failure World := do
  msg.validate environment world.params
  let query ← world.getQueryByID msg.queryId
  Outcome.require (query.owner = msg.sender) .unauthorized
  validateUpdateInterchainQueryParams query msg
  let saved := world.saveQuery (msg.apply query)
  .ok (if msg.newKeys ≠ [] ∧ query.queryType = .kv then saved.record (.rekeyed query.id)
    else saved)

def checkLastRemoteHeight (query : RegisteredQuery) (height : Height) :
    Except Failure Unit :=
  match query.lastSubmittedResultRemoteHeight with
  | none => .ok ()
  | some last => Outcome.require (¬ last.gte height) .invalidHeight

/-- `checkStorageValues` of one value: a value with a proof of its absence is nullified. -/
def checkStorageValue (environment : Environment) (key : KVKey) (value : StorageValue) :
    Except Failure StorageValue := do
  Outcome.require (value.key = key.key) .invalidSubmittedResult
  Outcome.require (value.storagePrefix = key.path) .invalidSubmittedResult
  match environment.convertProofs value.proof with
  | none => .error .invalidSubmittedResult
  | some .nonexist => .ok { value with value := [] }
  | some _ => .ok value

def verifyProof (environment : Environment) (specs root : Bytes) (value : StorageValue) :
    Except Failure Unit :=
  match environment.convertProofs value.proof with
  | some .nonexist =>
      Outcome.require (environment.verifyNonMembership specs root value.kvKey value.proof)
        .invalidSubmittedResult
  | some .exist =>
      Outcome.require
        (environment.verifyMembership specs root value.kvKey value.value value.proof)
        .invalidSubmittedResult
  | _ => .error .invalidSubmittedResult

/-- `VerifyStorageValues` with the extra check of the message server. -/
def verifyStorageValues (environment : Environment) (specs root : Bytes) :
    List KVKey → List StorageValue → Except Failure (List StorageValue)
  | _, [] => .ok []
  | [], _ :: _ => .error .indexOutOfRange
  | key :: keys, value :: values => do
      let checked ← checkStorageValue environment key value
      verifyProof environment specs root checked
      let others ← verifyStorageValues environment specs root keys values
      .ok (checked :: others)

def clearQueryResult (result : QueryResult) : QueryResult :=
  { kvResults := result.kvResults.map fun value => { value with proof := [] }
    block := none
    height := result.height
    revision := result.revision
    allowKvCallbacks := false }

def saveKVQueryResult (environment : Environment) (world : World) (query : RegisteredQuery)
    (result : QueryResult) : World :=
  let cleanResult := clearQueryResult result
  let stored := { world with results := world.results.set query.id cleanResult }
  let updated :=
    { query with
      lastSubmittedResultRemoteHeight := some result.remoteHeight
      lastSubmittedResultLocalHeight := environment.blockHeight }
  (stored.saveQuery updated).record (.stored query cleanResult)

/-- The part of `SubmitQueryResult` for KV results. -/
def submitKVResults (environment : Environment) (world : World) (query : RegisteredQuery)
    (clientId : String) (result : QueryResult) : Except Failure World := do
  Outcome.require (query.queryType = .kv) .invalidType
  checkLastRemoteHeight query result.remoteHeight
  Outcome.require (result.kvResults.length = query.keys.length) .invalidSubmittedResult
  let root ← environment.connectionConsensusState query.connectionId
    ⟨result.revision, (result.height + 1) % 2 ^ 64⟩
  match environment.getClientState clientId with
  | none => .error .invalidClientID
  | some specs =>
      let kvResults ←
        verifyStorageValues environment specs root query.keys result.kvResults
      .ok (saveKVQueryResult environment world query { result with kvResults := kvResults })

def unpackHeader (environment : Environment) (header : Bytes) :
    Except Failure ClientMessage :=
  match environment.unpackHeader header with
  | none => .error .protoUnmarshal
  | some message => .ok message

def castHeader : ClientMessage → Except Failure TendermintHeader
  | .tendermint header => .ok header
  | .other => .error .invalidType

/-- `ProcessBlock` up to the callback, if there is one. -/
def processBlock (environment : Environment) (world : World) (queryOwner : String)
    (queryId : Nat) (clientId : String) (block : Block) (tx : TxValue) :
    Except Failure (Option TxCallback) := do
  let header ← unpackHeader environment block.header
  let nextHeader ← unpackHeader environment block.nextBlockHeader
  Outcome.require (environment.verifyHeaders clientId header nextHeader) .invalidHeader
  let tmHeader ← castHeader header
  let tmNextHeader ← castHeader nextHeader
  let txHash := environment.txHash tx.data
  if world.checkTransactionIsAlreadyProcessed queryId txHash then
    .ok none
  else do
    Outcome.require (environment.verifyTransaction tmHeader tmNextHeader tx) .internal
    Outcome.require (environment.hasContractInfo queryOwner) .notContract
    .ok (some ⟨queryOwner, queryId, ⟨tmHeader.trustedRevision, tmHeader.height⟩, tx.data,
      txHash⟩)

def finishTxCallback (world : World) (call : TxCallback) (blockHeight : Nat) :
    Except Failure World :=
  ((world.record (.delivered call)).saveTransactionAsProcessed call.queryId
    call.txHash).updateLastLocalHeight call.queryId blockHeight

def submitBlock (environment : Environment) (world : World) (query : RegisteredQuery)
    (clientId : String) (block : Block) (tx : TxValue) :
    Except Failure (Option Frame × World) := do
  Outcome.require (query.queryType = .tx) .invalidType
  match ← processBlock environment world query.owner query.id clientId block tx with
  | none => do
      let updated ← world.updateLastLocalHeight query.id environment.blockHeight
      .ok (none, updated)
  | some call => .ok (some (.txCallback call environment.blockHeight), world)

def QueryResult.blockTx (result : QueryResult) : Option (Block × TxValue) := do
  let block ← result.block
  let tx ← block.tx
  some (block, tx)

def saveAnyKVResults (environment : Environment) (world : World) (query : RegisteredQuery)
    (clientId : String) (result : QueryResult) : Except Failure World :=
  if result.kvResults ≠ [] then
    submitKVResults environment world query clientId result
  else
    .ok world

/-- `SubmitQueryResult`, up to the callback if there is one. -/
def submitQueryResult (environment : Environment) (world : World)
    (msg : MsgSubmitQueryResult) : Except Failure (Option Frame × World) := do
  let result ← msg.validate environment
  let query ← world.getQueryByID msg.queryId
  match environment.getConnection query.connectionId with
  | none => .error .invalidConnectionID
  | some clientId => do
      Outcome.require (environment.isAddress query.owner) .invalidAddress
      let saved ← saveAnyKVResults environment world query clientId result
      if result.kvResults ≠ [] ∧ result.allowKvCallbacks then do
        Outcome.require (environment.hasContractInfo query.owner) .notContract
        .ok (some (.kvCallback query.owner query.id), saved)
      else
        match result.blockTx with
        | none => .ok (none, saved)
        | some (block, tx) => submitBlock environment saved query clientId block tx

structure TxQueryToRemove where
  id : Nat
  hashes : List Bytes
  completeRemoval : Bool

def World.getTxQueriesToRemove (world : World) (limit : Nat) : List Nat :=
  let ids := world.txQueriesToRemove.entries.map Prod.fst
  if limit = 0 then ids else ids.take limit

/-- The iterator still stands on the last hash when the limit is reached, so that such a
removal is never complete. -/
def World.calculateTxQueryRemoval (world : World) (queryId limit : Nat) : TxQueryToRemove :=
  let hashes := (world.submittedTxs.iterate fun key => (ofLex key).1 = queryId).map
    fun entry => (ofLex entry.1).2
  if limit ≠ 0 ∧ limit ≤ hashes.length then
    ⟨queryId, hashes.take limit, false⟩
  else
    ⟨queryId, hashes, true⟩

/-- The first loop of `TxQueriesCleanup`. -/
def World.queriesToRemove (world : World) (limited : Bool) :
    List Nat → Nat → List TxQueryToRemove
  | [], _ => []
  | queryId :: rest, limit =>
      let removal := world.calculateTxQueryRemoval queryId limit
      let left := limit - removal.hashes.length
      if limited ∧ left = 0 then
        [removal]
      else
        removal :: world.queriesToRemove limited rest (if limited then left else limit)

/-- One turn of the second loop of `TxQueriesCleanup`. -/
def World.applyRemoval (world : World) (removal : TxQueryToRemove) : World :=
  let cleaned := removal.hashes.foldl
    (fun submittedTxs txHash => submittedTxs.delete (toLex (removal.id, txHash)))
    world.submittedTxs
  { world with
    submittedTxs := cleaned
    txQueriesToRemove :=
      if removal.completeRemoval then world.txQueriesToRemove.delete removal.id
      else world.txQueriesToRemove }

def World.txQueriesCleanup (world : World) : World :=
  let limit := world.params.txQueryRemovalLimit
  (world.queriesToRemove (limit ≠ 0) (world.getTxQueriesToRemove limit) limit).foldl
    World.applyRemoval world

inductive Msg where
  | registerInterchainQuery (msg : MsgRegisterInterchainQuery)
  | updateInterchainQuery (msg : MsgUpdateInterchainQuery)
  | removeInterchainQuery (msg : MsgRemoveInterchainQuery)
  | submitQueryResult (msg : MsgSubmitQueryResult)
  | updateParams (authority : String) (params : Params)

/-- A message up to the first hand-over to other code, or as a whole. -/
def Msg.handle (environment : Environment) (world : World) :
    Msg → Except Failure (Option Frame × World)
  | .registerInterchainQuery msg => do
      let (query, registered) ← beginRegister environment world msg
      .ok (some (.collectDeposit query), registered)
  | .updateInterchainQuery msg => do
      let updated ← InterchainQueries.updateInterchainQuery environment world msg
      .ok (none, updated)
  | .removeInterchainQuery msg => do
      let (frame, removed) ← beginRemove environment world msg
      .ok (some frame, removed)
  | .submitQueryResult msg => InterchainQueries.submitQueryResult environment world msg
  | .updateParams authority params => do
      Outcome.require (environment.isAddress authority) .invalidAddress
      Outcome.require (world.authority = authority) .invalidRequest
      .ok (none, { world with params := params })

/-- The rest of a message once the code it was handed over to has succeeded. -/
def Frame.finish (world : World) : Frame → Except Failure World
  | .execution => .ok world
  | .collectDeposit query => finishRegister world query
  | .payOutDeposit deposit recipient => finishRemove world deposit recipient
  | .kvCallback _ _ => .ok world
  | .txCallback call blockHeight => finishTxCallback world call blockHeight

abbrev State := Nested World Frame

/-- What can happen next.  Transactions and contracts run messages within an execution,
which may fail as a whole; other modules move coins at any time. -/
inductive Step where
  | execute
  | message (environment : Environment) (msg : Msg)
  | finish
  | fail
  | setBank (bank : Bank)
  | endBlock

def step (state : State) : Step → State
  | .execute => state.enter .execution state.world
  | .message environment msg =>
      match msg.handle environment state.world with
      | .error _ => state
      | .ok (none, world) => state.update world
      | .ok (some frame, world) => state.enter frame world
  | .finish =>
      match state.stack with
      | [] => state
      | (frame, _) :: _ =>
          match frame.finish state.world with
          | .error _ => state.revert
          | .ok world => state.leave world
  | .fail => state.revert
  | .setBank bank => state.update { state.world with bank := bank }
  | .endBlock =>
      match state.stack with
      | [] => state.update state.world.txQueriesCleanup
      | _ :: _ => state

def initial (authority : String) (params : Params) (bank : Bank) : State :=
  Nested.idle ⟨authority, params, 0, SortedStore.empty, SortedStore.empty,
    SortedStore.empty, SortedStore.empty, bank, []⟩

end Neutron.InterchainQueries
