import Neutron.Library.Bytes
import Neutron.Dex.Bank

namespace Neutron.InterchainQueries

open Library
open Neutron.Dex (Coins)

/-! Registered queries, the messages about them and their stateless checks
(`x/interchainqueries/types`).  Identifiers are `uint64` counted from one. -/

inductive QueryType where
  | kv
  | tx
  deriving DecidableEq

structure KVKey where
  path : String
  key : Bytes
  deriving DecidableEq

structure Height where
  revisionNumber : Nat
  revisionHeight : Nat
  deriving DecidableEq

def Height.Lt (left right : Height) : Prop :=
  left.revisionNumber < right.revisionNumber ∨
    left.revisionNumber = right.revisionNumber ∧ left.revisionHeight < right.revisionHeight

instance (left right : Height) : Decidable (left.Lt right) :=
  inferInstanceAs (Decidable (_ ∨ _))

def Height.gte (left right : Height) : Bool := decide (¬ left.Lt right)

theorem Height.Lt.trans {low middle high : Height} (first : low.Lt middle)
    (second : middle.Lt high) : low.Lt high := by
  unfold Height.Lt at *
  omega

structure RegisteredQuery where
  id : Nat
  owner : String
  queryType : QueryType
  keys : List KVKey
  transactionsFilter : String
  connectionId : String
  updatePeriod : Nat
  lastSubmittedResultLocalHeight : Nat
  lastSubmittedResultRemoteHeight : Option Height
  deposit : Coins
  submitTimeout : Nat
  registeredAtHeight : Nat

structure Params where
  querySubmitTimeout : Nat
  queryDeposit : Coins
  txQueryRemovalLimit : Nat
  maxKvQueryKeysCount : Nat
  maxTransactionsFilters : Nat

structure StorageValue where
  storagePrefix : String
  key : Bytes
  value : Bytes
  /-- The encoded Merkle proof; empty once the value is stored. -/
  proof : Bytes
  deriving DecidableEq

def StorageValue.kvKey (value : StorageValue) : KVKey := ⟨value.storagePrefix, value.key⟩

structure TxValue where
  data : Bytes
  /-- Response, inclusion proof and delivery proof. -/
  evidence : Bytes
  deriving DecidableEq

structure Block where
  header : Bytes
  nextBlockHeader : Bytes
  tx : Option TxValue
  deriving DecidableEq

structure QueryResult where
  kvResults : List StorageValue
  block : Option Block
  height : Nat
  revision : Nat
  allowKvCallbacks : Bool
  deriving DecidableEq

def QueryResult.remoteHeight (result : QueryResult) : Height :=
  ⟨result.revision, result.height⟩

/-- Sentinel errors of the module and those of the SDK that it wraps. -/
inductive Failure where
  | invalidQueryID
  | emptyResult
  | invalidClientID
  | invalidUpdatePeriod
  | invalidConnectionID
  | invalidQueryType
  | invalidTransactionsFilter
  | invalidSubmittedResult
  | protoUnmarshal
  | invalidType
  | internal
  | invalidHeader
  | invalidHeight
  | notContract
  | emptyKeys
  | emptyKeyPath
  | emptyKeyID
  | tooManyKVQueryKeys
  | invalidAddress
  | invalidRequest
  | unauthorized
  | consensusStateNotFound
  | indexOutOfRange
  | bank (cause : Dex.Failure)

inductive ProofType where
  | exist
  | nonexist
  | unknown
  deriving DecidableEq

structure TendermintHeader where
  trustedRevision : Nat
  height : Nat

inductive ClientMessage where
  | tendermint (header : TendermintHeader)
  | other

/-- What the code of other modules and libraries answers while a message runs. -/
structure Environment where
  blockHeight : Nat
  isAddress : String → Bool
  hasContractInfo : String → Bool
  /-- The client of a connection. -/
  getConnection : String → Option String
  /-- The root of a Tendermint consensus state. -/
  connectionConsensusState : String → Height → Except Failure Bytes
  /-- The proof specs of a Tendermint client. -/
  getClientState : String → Option Bytes
  convertProofs : Bytes → Option ProofType
  verifyMembership : (specs root : Bytes) → KVKey → (value proof : Bytes) → Bool
  verifyNonMembership : (specs root : Bytes) → KVKey → (proof : Bytes) → Bool
  isTransactionsFilter : String → (limit : Nat) → Bool
  unpackHeader : Bytes → Option ClientMessage
  verifyHeaders : (clientId : String) → (header nextHeader : ClientMessage) → Bool
  verifyTransaction : (header nextHeader : TendermintHeader) → TxValue → Bool
  txHash : Bytes → Bytes

def isSpace (character : Char) : Bool :=
  let code := character.toNat
  (9 ≤ code && code ≤ 13) || code = 32 || code = 0x85 || code = 0xA0 || code = 0x1680 ||
    (0x2000 ≤ code && code ≤ 0x200A) || code = 0x2028 || code = 0x2029 || code = 0x202F ||
    code = 0x205F || code = 0x3000

def isBlank (text : String) : Bool := text.toList.all isSpace

def checkSender (environment : Environment) (sender : String) : Except Failure Unit :=
  if isBlank sender ∨ ¬ environment.isAddress sender then .error .invalidAddress else .ok ()

def hexDigit (value : Nat) : Char :=
  if value < 10 then Char.ofNat (48 + value) else Char.ofNat (87 + value)

def hexEncode (data : Bytes) : String :=
  String.ofList (data.flatMap fun byte => [hexDigit (byte / 16), hexDigit (byte % 16)])

def KVKey.toString (key : KVKey) : String := key.path ++ "/" ++ hexEncode key.key

/-- The loop of `validateKeys`; `duplicates` are the keys seen before. -/
def validateEachKey (duplicates : List String) : List KVKey → Except Failure Unit
  | [] => .ok ()
  | key :: rest =>
      if key.toString ∈ duplicates then
        .error .invalidRequest
      else if key.path = "" then
        .error .emptyKeyPath
      else if key.key = [] then
        .error .emptyKeyID
      else
        validateEachKey (key.toString :: duplicates) rest

def validateKeys (keys : List KVKey) (maxKVQueryKeysCount : Nat) : Except Failure Unit :=
  if maxKVQueryKeysCount < keys.length then
    .error .tooManyKVQueryKeys
  else
    validateEachKey [] keys

def validateTransactionsFilter (environment : Environment) (params : Params)
    (filter : String) : Except Failure Unit :=
  if environment.isTransactionsFilter filter params.maxTransactionsFilters then
    .ok ()
  else
    .error .invalidTransactionsFilter

structure MsgRegisterInterchainQuery where
  sender : String
  /-- `none` is any text that is not a query type. -/
  queryType : Option QueryType
  keys : List KVKey
  transactionsFilter : String
  connectionId : String
  updatePeriod : Nat

/-- The checks of `Validate`, with the query type they find. -/
def MsgRegisterInterchainQuery.validate (environment : Environment) (params : Params)
    (msg : MsgRegisterInterchainQuery) : Except Failure QueryType := do
  Outcome.require (msg.updatePeriod ≠ 0) .invalidUpdatePeriod
  checkSender environment msg.sender
  Outcome.require (¬ isBlank msg.connectionId) .invalidConnectionID
  match msg.queryType with
  | none => .error .invalidQueryType
  | some .kv =>
      Outcome.require (msg.keys ≠ []) .emptyKeys
      validateKeys msg.keys params.maxKvQueryKeysCount
      .ok .kv
  | some .tx =>
      validateTransactionsFilter environment params msg.transactionsFilter
      .ok .tx

structure MsgUpdateInterchainQuery where
  sender : String
  queryId : Nat
  newKeys : List KVKey
  newUpdatePeriod : Nat
  newTransactionsFilter : String

def MsgUpdateInterchainQuery.validate (environment : Environment) (params : Params)
    (msg : MsgUpdateInterchainQuery) : Except Failure Unit := do
  Outcome.require (msg.queryId ≠ 0) .invalidQueryID
  Outcome.require (¬ (msg.newKeys = [] ∧ msg.newTransactionsFilter = "" ∧
    msg.newUpdatePeriod = 0)) .invalidRequest
  Outcome.require (¬ (msg.newKeys ≠ [] ∧ msg.newTransactionsFilter ≠ "")) .invalidRequest
  if msg.newKeys ≠ [] then
    validateKeys msg.newKeys params.maxKvQueryKeysCount
  if msg.newTransactionsFilter ≠ "" then
    validateTransactionsFilter environment params msg.newTransactionsFilter
  checkSender environment msg.sender

structure MsgRemoveInterchainQuery where
  sender : String
  queryId : Nat

def MsgRemoveInterchainQuery.validate (environment : Environment)
    (msg : MsgRemoveInterchainQuery) : Except Failure Unit := do
  Outcome.require (msg.queryId ≠ 0) .invalidQueryID
  checkSender environment msg.sender

structure MsgSubmitQueryResult where
  sender : String
  queryId : Nat
  result : Option QueryResult

/-- The checks of `Validate`, with the result they find. -/
def MsgSubmitQueryResult.validate (environment : Environment)
    (msg : MsgSubmitQueryResult) : Except Failure QueryResult := do
  match msg.result with
  | none => .error .emptyResult
  | some result =>
      Outcome.require (¬ (result.kvResults = [] ∧ result.block = none)) .emptyResult
      Outcome.require (msg.queryId ≠ 0) .invalidQueryID
      checkSender environment msg.sender
      .ok result

/-- `ValidateRemoval`, in the arithmetic of `uint64`. -/
def RegisteredQuery.validateRemoval (query : RegisteredQuery) (blockHeight : Nat)
    (caller : String) : Except Failure Unit :=
  let registrationTimeoutBlock := (query.registeredAtHeight + query.submitTimeout) % 2 ^ 64
  let submitTimeoutBlock :=
    (query.lastSubmittedResultLocalHeight + query.submitTimeout) % 2 ^ 64
  if query.owner = caller then
    .ok ()
  else if blockHeight ≤ registrationTimeoutBlock ∨ blockHeight ≤ submitTimeoutBlock then
    .error .unauthorized
  else
    .ok ()

end Neutron.InterchainQueries
