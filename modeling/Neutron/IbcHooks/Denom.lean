import Mathlib.Data.List.Infix
import Neutron.Library.Bytes

namespace Neutron.IbcHooks

open Library

/-! Denoms of received transfers (`x/ibc-hooks/utils/utils.go`).  Go strings are
lists of bytes. -/

def slash : Byte := 47

/-- A port or channel identifier; the separator of paths is not allowed in it. -/
structure Identifier where
  text : Bytes
  noSlash : slash ∉ text

structure Hop where
  portId : Bytes
  channelId : Bytes
  deriving DecidableEq

def Hop.string (hop : Hop) : Bytes := hop.portId ++ slash :: hop.channelId

def newHop (portId channelId : Identifier) : Hop := ⟨portId.text, channelId.text⟩

/-- `Denom` of the transfer application: the hops a token took, last one first. -/
structure Denom where
  base : Bytes
  trace : List Hop
  deriving DecidableEq

namespace Denom

def path (denom : Denom) : Bytes :=
  denom.trace.foldr (fun hop rest => hop.string ++ slash :: rest) denom.base

def ibcDenom (hash : Bytes → Bytes) (denom : Denom) : Bytes :=
  if denom.trace = [] then denom.base else bytes "ibc/" ++ hash denom.path

def hasPrefix (denom : Denom) (portId channelId : Identifier) : Bool :=
  denom.trace.head? = some (newHop portId channelId)

end Denom

section Parsing

-- which segments of a path are taken for channel or client identifiers
variable (isIdentifier : Bytes → Bool)

/-- The loop of `ExtractDenomFromPath`: the hops, and the segments that are left. -/
def parseHops : List Bytes → List Hop × List Bytes
  | portId :: channelId :: rest =>
      if isIdentifier channelId then
        (⟨portId, channelId⟩ :: (parseHops rest).1, (parseHops rest).2)
      else
        ([], portId :: channelId :: rest)
  | rest => ([], rest)

def ofSegments (segments : List Bytes) : Denom :=
  ⟨[slash].intercalate (parseHops isIdentifier segments).2,
    (parseHops isIdentifier segments).1⟩

/-- `ExtractDenomFromPath`: paths of one or two segments have no hops. -/
def extractDenomFromPath (fullPath : Bytes) : Denom :=
  let denomSplit := fullPath.splitOn slash
  if denomSplit.length ≤ 2 then ⟨fullPath, []⟩ else ofSegments isIdentifier denomSplit

end Parsing

structure FungibleTokenPacketData where
  denom : Bytes
  amount : Bytes

/-- A packet; `data` is what its bytes are unmarshalled to. -/
structure Packet where
  sourcePort : Identifier
  sourceChannel : Identifier
  destPort : Identifier
  destChannel : Identifier
  data : Option FungibleTokenPacketData

inductive Panic where
  | unmarshal
  | sliceBoundsOutOfRange
  deriving DecidableEq

section Extract

variable (isIdentifier : Bytes → Bool) (hash : Bytes → Bytes)

def mustExtractDenomFromPacketOnRecv (packet : Packet) : Except Panic Bytes :=
  match packet.data with
  | none => .error .unmarshal
  | some data =>
      let voucherPrefix := (newHop packet.sourcePort packet.sourceChannel).string
      if voucherPrefix <+: data.denom then
        -- a slice from one past the end of the text panics
        if data.denom.length < voucherPrefix.length + 1 then
          .error .sliceBoundsOutOfRange
        else
          let denom := data.denom.drop (voucherPrefix.length + 1)
          let denomTrace := extractDenomFromPath isIdentifier denom
          .ok (if denomTrace.path ≠ [] then denomTrace.ibcDenom hash else denom)
      else
        let prefixedDenom :=
          (newHop packet.destPort packet.destChannel).string ++ slash :: data.denom
        .ok ((extractDenomFromPath isIdentifier prefixedDenom).ibcDenom hash)

/-- The denom that `OnRecvPacket` of the transfer application credits. -/
def creditedDenom (packet : Packet) (data : FungibleTokenPacketData) : Bytes :=
  let denom := extractDenomFromPath isIdentifier data.denom
  if denom.hasPrefix packet.sourcePort packet.sourceChannel then
    ({ denom with trace := denom.trace.tail } : Denom).ibcDenom hash
  else
    ({ denom with trace := newHop packet.destPort packet.destChannel :: denom.trace }
      : Denom).ibcDenom hash

/-- The funds of the contract call that `OnRecvPacketOverride` makes. -/
def hookedFunds (packet : Packet) (data : FungibleTokenPacketData) :
    Except Panic (Bytes × Bytes) :=
  (mustExtractDenomFromPacketOnRecv isIdentifier hash packet).map
    fun denom => (denom, data.amount)

/-- The coin credited to the intermediate account. -/
def creditedCoin (packet : Packet) (data : FungibleTokenPacketData) : Bytes × Bytes :=
  (creditedDenom isIdentifier hash packet data, data.amount)

end Extract

section Segments

variable {isIdentifier : Bytes → Bool}

/-- A path that is a hop inside of a longer path, but not by itself. -/
def IsBareHop (isIdentifier : Bytes → Bool) (path : Bytes) : Prop :=
  ∃ portId channelId, path.splitOn slash = [portId, channelId] ∧ isIdentifier channelId

theorem extractDenomFromPath_eq_ofSegments {path : Bytes}
    (notBare : ¬ IsBareHop isIdentifier path) :
    extractDenomFromPath isIdentifier path = ofSegments isIdentifier (path.splitOn slash) := by
  have joined : [slash].intercalate (path.splitOn slash) = path :=
    List.intercalate_splitOn slash
  unfold extractDenomFromPath
  dsimp only
  split
  · rename_i short
    cases segments : path.splitOn slash with
    | nil => exact absurd segments (List.splitOn_ne_nil slash path)
    | cons first rest =>
        cases rest with
        | nil =>
            rw [segments] at joined
            simp [ofSegments, parseHops, joined]
        | cons second others =>
            rw [segments] at short joined
            have noOthers : others = [] := by
              cases others with
              | nil => rfl
              | cons third more => simp at short
            subst noOthers
            have notIdentifier : isIdentifier second = false := by
              cases known : isIdentifier second with
              | false => rfl
              | true => exact absurd ⟨first, second, segments, known⟩ notBare
            simp [ofSegments, parseHops, notIdentifier, joined]
  · rfl

theorem extractDenomFromPath_of_isBareHop {path : Bytes}
    (bare : IsBareHop isIdentifier path) :
    extractDenomFromPath isIdentifier path = ⟨path, []⟩ := by
  obtain ⟨portId, channelId, segments, _⟩ := bare
  simp [extractDenomFromPath, segments]

theorem ofSegments_cons {channelId : Bytes} (known : isIdentifier channelId)
    (portId : Bytes) (rest : List Bytes) :
    ofSegments isIdentifier (portId :: channelId :: rest) =
      ⟨(ofSegments isIdentifier rest).base,
        ⟨portId, channelId⟩ :: (ofSegments isIdentifier rest).trace⟩ := by
  simp [ofSegments, parseHops, known]

theorem length_path_ofSegments (segments : List Bytes) :
    ([slash].intercalate segments).length ≤ (ofSegments isIdentifier segments).path.length ∧
      (ofSegments isIdentifier segments).path.length ≤
        ([slash].intercalate segments).length + 1 := by
  induction segments using parseHops.induct isIdentifier with
  | case1 portId channelId rest known ih =>
      rw [ofSegments_cons known]
      cases rest with
      | nil =>
          simp [Denom.path, ofSegments, parseHops, Hop.string]
          omega
      | cons next others =>
          simp only [Denom.path, List.foldr_cons, Hop.string, List.length_append,
            List.length_cons, List.intercalate_cons_of_ne_nil (List.cons_ne_nil _ _)] at ih ⊢
          simp only [List.length_nil]
          omega
  | case2 portId channelId rest unknown =>
      simp [ofSegments, parseHops, unknown, Denom.path]
  | case3 rest short =>
      unfold ofSegments
      rw [parseHops]
      · simp [Denom.path]
      · exact short

theorem length_path_extractDenomFromPath (path : Bytes) :
    path.length ≤ (extractDenomFromPath isIdentifier path).path.length ∧
      (extractDenomFromPath isIdentifier path).path.length ≤ path.length + 1 := by
  by_cases bare : IsBareHop isIdentifier path
  · rw [extractDenomFromPath_of_isBareHop bare]
    simp [Denom.path]
  · rw [extractDenomFromPath_eq_ofSegments bare]
    have bounds := @length_path_ofSegments isIdentifier (path.splitOn slash)
    rw [List.intercalate_splitOn] at bounds
    exact bounds

theorem splitOn_hop (portId channelId : Identifier) (rest : Bytes) :
    ((newHop portId channelId).string ++ slash :: rest).splitOn slash =
      portId.text :: channelId.text :: rest.splitOn slash := by
  rw [Hop.string, newHop, List.append_assoc, List.cons_append,
    List.splitOn_append_cons_self_of_not_mem portId.noSlash,
    List.splitOn_append_cons_self_of_not_mem channelId.noSlash]

theorem not_isBareHop_hop (portId channelId : Identifier) (rest : Bytes) :
    ¬ IsBareHop isIdentifier ((newHop portId channelId).string ++ slash :: rest) := by
  rintro ⟨first, second, segments, _⟩
  rw [splitOn_hop] at segments
  have noRest : rest.splitOn slash = [] :=
    (List.cons_eq_cons.mp (List.cons_eq_cons.mp segments).2).2
  exact List.splitOn_ne_nil slash rest noRest

variable {channelId : Identifier}

theorem extractDenomFromPath_hop
    (known : isIdentifier channelId.text) (portId : Identifier) (rest : Bytes) :
    extractDenomFromPath isIdentifier
        ((newHop portId channelId).string ++ slash :: rest) =
      ⟨(ofSegments isIdentifier (rest.splitOn slash)).base,
        newHop portId channelId :: (ofSegments isIdentifier (rest.splitOn slash)).trace⟩ := by
  rw [extractDenomFromPath_eq_ofSegments (not_isBareHop_hop portId channelId rest),
    splitOn_hop, ofSegments_cons known]
  rfl

theorem extractDenomFromPath_unknown
    (unknown : isIdentifier channelId.text = false) (portId : Identifier) (rest : Bytes) :
    (extractDenomFromPath isIdentifier
      ((newHop portId channelId).string ++ slash :: rest)).trace = [] := by
  rw [extractDenomFromPath_eq_ofSegments (not_isBareHop_hop portId channelId rest),
    splitOn_hop]
  simp [ofSegments, parseHops, unknown]

theorem prefix_of_hasPrefix {path : Bytes} {portId : Identifier}
    (first : (extractDenomFromPath isIdentifier path).hasPrefix portId channelId) :
    isIdentifier channelId.text ∧
      ∃ rest, path = (newHop portId channelId).string ++ slash :: rest := by
  unfold Denom.hasPrefix at first
  rw [decide_eq_true_iff] at first
  have joined : [slash].intercalate (path.splitOn slash) = path :=
    List.intercalate_splitOn slash
  unfold extractDenomFromPath at first
  dsimp only at first
  split at first
  · simp at first
  · rename_i long
    cases segments : path.splitOn slash with
    | nil => exact absurd segments (List.splitOn_ne_nil slash path)
    | cons head rest =>
        cases rest with
        | nil => simp [segments] at long
        | cons second others =>
            rw [segments] at first long joined
            cases known : isIdentifier second with
            | false => simp [ofSegments, parseHops, known] at first
            | true =>
                simp only [ofSegments, parseHops, known, if_true, List.head?_cons,
                  Option.some.injEq] at first
                obtain ⟨samePort, sameChannel⟩ := (Hop.mk.injEq ..).mp first
                have someOthers : others ≠ [] := by
                  intro none
                  simp [none] at long
                subst samePort sameChannel
                refine ⟨known, [slash].intercalate others, ?_⟩
                rw [← joined, List.intercalate_cons_of_ne_nil (List.cons_ne_nil _ _),
                  List.intercalate_cons_of_ne_nil someOthers]
                simp [Hop.string, newHop]

end Segments

section Credited

variable {isIdentifier : Bytes → Bool}

theorem ibcDenom_eq_voucher_iff (denom : Denom) (path : Bytes) :
    (∀ hash : Bytes → Bytes, denom.ibcDenom hash = bytes "ibc/" ++ hash path) ↔
      denom.trace ≠ [] ∧ denom.path = path := by
  constructor
  · intro same
    have hops : denom.trace ≠ [] := by
      intro native
      have none := same fun _ => []
      have one := same fun _ => [slash]
      simp only [Denom.ibcDenom, native, if_true] at none one
      rw [none] at one
      simp at one
    have identity := same id
    rw [Denom.ibcDenom, if_neg hops] at identity
    exact ⟨hops, List.append_cancel_left identity⟩
  · rintro ⟨hops, samePath⟩ hash
    rw [Denom.ibcDenom, if_neg hops, samePath]

variable {packet : Packet} {data : FungibleTokenPacketData}

theorem mustExtract_of_hop (decoded : packet.data = some data) {next : Byte}
    {rest : Bytes}
    (isPrefix : data.denom =
      (newHop packet.sourcePort packet.sourceChannel).string ++ next :: rest)
    (hash : Bytes → Bytes) :
    mustExtractDenomFromPacketOnRecv isIdentifier hash packet =
      .ok ((extractDenomFromPath isIdentifier rest).ibcDenom hash) := by
  have dropped : data.denom.drop
      ((newHop packet.sourcePort packet.sourceChannel).string.length + 1) = rest := by
    rw [isPrefix, ← List.drop_drop, List.drop_left, List.drop_succ_cons, List.drop_zero]
  have inRange : ¬ data.denom.length <
      (newHop packet.sourcePort packet.sourceChannel).string.length + 1 := by
    rw [isPrefix, List.length_append, List.length_cons]
    omega
  simp only [mustExtractDenomFromPacketOnRecv, decoded]
  rw [if_pos ⟨_, isPrefix.symm⟩, if_neg inRange, dropped]
  split
  · rfl
  · rename_i emptyPath
    have empty : rest = [] := by
      have short := (@length_path_extractDenomFromPath isIdentifier rest).1
      rw [not_not.mp emptyPath] at short
      exact List.length_eq_zero_iff.mp (Nat.le_zero.mp short)
    subst empty
    rfl

theorem mustExtract_of_no_hop (decoded : packet.data = some data)
    (notPrefix : ¬ (newHop packet.sourcePort packet.sourceChannel).string <+: data.denom)
    (hash : Bytes → Bytes) :
    mustExtractDenomFromPacketOnRecv isIdentifier hash packet =
      .ok ((extractDenomFromPath isIdentifier
        ((newHop packet.destPort packet.destChannel).string ++ slash :: data.denom)).ibcDenom
          hash) := by
  simp only [mustExtractDenomFromPacketOnRecv, decoded]
  rw [if_neg notPrefix]

theorem creditedDenom_of_not_hasPrefix
    (foreign : (extractDenomFromPath isIdentifier data.denom).hasPrefix packet.sourcePort
      packet.sourceChannel = false) (hash : Bytes → Bytes) :
    creditedDenom isIdentifier hash packet data = bytes "ibc/" ++
      hash ((newHop packet.destPort packet.destChannel).string ++
        slash :: (extractDenomFromPath isIdentifier data.denom).path) := by
  simp [creditedDenom, foreign, Denom.ibcDenom, Denom.path]

theorem creditedDenom_of_hop (known : isIdentifier packet.sourceChannel.text) {rest : Bytes}
    (isPrefix : data.denom =
      (newHop packet.sourcePort packet.sourceChannel).string ++ slash :: rest)
    (hash : Bytes → Bytes) :
    creditedDenom isIdentifier hash packet data =
      (ofSegments isIdentifier (rest.splitOn slash)).ibcDenom hash := by
  simp [creditedDenom, isPrefix, extractDenomFromPath_hop known, Denom.hasPrefix]

theorem extracted_ne_voucher {rest path : Bytes} (longer : rest.length + 1 < path.length) :
    ¬ ∀ hash : Bytes → Bytes,
      (extractDenomFromPath isIdentifier rest).ibcDenom hash = bytes "ibc/" ++ hash path := by
  intro same
  have samePath := ((ibcDenom_eq_voucher_iff _ _).mp same).2
  have short := (@length_path_extractDenomFromPath isIdentifier rest).2
  rw [samePath] at short
  omega

theorem ofSegments_of_isBareHop {path : Bytes} (bare : IsBareHop isIdentifier path) :
    (ofSegments isIdentifier (path.splitOn slash)).trace ≠ [] ∧
      (ofSegments isIdentifier (path.splitOn slash)).path = path ++ [slash] := by
  obtain ⟨portId, channelId, segments, known⟩ := bare
  have joined : [slash].intercalate (path.splitOn slash) = path :=
    List.intercalate_splitOn slash
  rw [segments] at joined
  rw [segments, ofSegments_cons known]
  simp [ofSegments, parseHops, Denom.path, Hop.string, ← joined]

/-- When the textual test and slice agree with the hops of the path. -/
def PrefixIsHop (isIdentifier : Bytes → Bool) (packet : Packet)
    (data : FungibleTokenPacketData) : Prop :=
  let voucherPrefix := (newHop packet.sourcePort packet.sourceChannel).string
  if voucherPrefix <+: data.denom then
    isIdentifier packet.sourceChannel.text ∧ ∃ rest,
      data.denom = voucherPrefix ++ slash :: rest ∧ ¬ IsBareHop isIdentifier rest
  else
    isIdentifier packet.destChannel.text ∧ ¬ IsBareHop isIdentifier data.denom

theorem extracted_of_prefix (decoded : packet.data = some data)
    (isPrefix : (newHop packet.sourcePort packet.sourceChannel).string <+: data.denom) :
    (∀ hash, mustExtractDenomFromPacketOnRecv isIdentifier hash packet =
      .ok (creditedDenom isIdentifier hash packet data)) ↔
    isIdentifier packet.sourceChannel.text ∧ ∃ rest,
      data.denom = (newHop packet.sourcePort packet.sourceChannel).string ++ slash :: rest ∧
        ¬ IsBareHop isIdentifier rest := by
  constructor
  · intro same
    obtain ⟨tail, isTail⟩ := isPrefix
    cases tail with
    | nil =>
        -- nothing is left to slice
        rw [List.append_nil] at isTail
        have panics := same id
        simp only [mustExtractDenomFromPacketOnRecv, decoded, isTail] at panics
        simp at panics
    | cons next rest =>
        have extracted (hash : Bytes → Bytes) :
            (extractDenomFromPath isIdentifier rest).ibcDenom hash =
              creditedDenom isIdentifier hash packet data :=
          Except.ok.inj ((mustExtract_of_hop decoded isTail.symm hash).symm.trans
            (same hash))
        cases foreign : (extractDenomFromPath isIdentifier data.denom).hasPrefix
            packet.sourcePort packet.sourceChannel with
        | false =>
            simp only [creditedDenom_of_not_hasPrefix foreign] at extracted
            refine absurd extracted (extracted_ne_voucher ?_)
            have long := (@length_path_extractDenomFromPath isIdentifier data.denom).1
            rw [← isTail] at long
            simp only [List.length_append, List.length_cons] at long ⊢
            rw [isTail] at long
            omega
        | true =>
            obtain ⟨known, others, isHop⟩ := prefix_of_hasPrefix foreign
            have sameRest : next :: rest = slash :: others :=
              List.append_cancel_left (isTail.trans isHop)
            obtain ⟨isSlash, isRest⟩ := List.cons_eq_cons.mp sameRest
            subst isSlash isRest
            refine ⟨known, rest, isHop, ?_⟩
            intro bare
            simp only [creditedDenom_of_hop known isHop] at extracted
            obtain ⟨hops, barePath⟩ := ofSegments_of_isBareHop bare
            simp only [Denom.ibcDenom, if_neg hops] at extracted
            have native := ((ibcDenom_eq_voucher_iff _ _).mp extracted).1
            rw [extractDenomFromPath_of_isBareHop bare] at native
            exact native rfl
  · rintro ⟨known, rest, isHop, notBare⟩ hash
    rw [mustExtract_of_hop decoded isHop hash, creditedDenom_of_hop known isHop hash,
      extractDenomFromPath_eq_ofSegments notBare]

theorem extracted_of_not_prefix (decoded : packet.data = some data)
    (notPrefix : ¬ (newHop packet.sourcePort packet.sourceChannel).string <+: data.denom) :
    (∀ hash, mustExtractDenomFromPacketOnRecv isIdentifier hash packet =
      .ok (creditedDenom isIdentifier hash packet data)) ↔
    isIdentifier packet.destChannel.text ∧ ¬ IsBareHop isIdentifier data.denom := by
  have foreign : (extractDenomFromPath isIdentifier data.denom).hasPrefix
      packet.sourcePort packet.sourceChannel = false := by
    cases first : (extractDenomFromPath isIdentifier data.denom).hasPrefix
        packet.sourcePort packet.sourceChannel with
    | false => rfl
    | true =>
        obtain ⟨_, rest, isHop⟩ := prefix_of_hasPrefix first
        exact absurd ⟨slash :: rest, isHop.symm⟩ notPrefix
  simp only [mustExtract_of_no_hop decoded notPrefix,
    creditedDenom_of_not_hasPrefix foreign, Except.ok.injEq]
  rw [ibcDenom_eq_voucher_iff]
  cases known : isIdentifier packet.destChannel.text with
  | false =>
      have native := extractDenomFromPath_unknown known packet.destPort data.denom
      simp [native]
  | true =>
      rw [extractDenomFromPath_hop known]
      by_cases bare : IsBareHop isIdentifier data.denom
      · have longer := (ofSegments_of_isBareHop bare).2
        rw [extractDenomFromPath_of_isBareHop bare]
        simp only [Denom.path, List.foldr_cons, List.foldr_nil] at longer ⊢
        simp [longer, bare]
      · rw [extractDenomFromPath_eq_ofSegments bare]
        simp [Denom.path, bare]

/-- The hooked contract is called with the coin that was credited exactly when the
textual prefix of the denom is its first hop. -/
theorem mustExtractDenomFromPacketOnRecv_eq_credited_iff
    (decoded : packet.data = some data) :
    (∀ hash, mustExtractDenomFromPacketOnRecv isIdentifier hash packet =
        .ok (creditedDenom isIdentifier hash packet data) ∧
      hookedFunds isIdentifier hash packet data =
        .ok (creditedCoin isIdentifier hash packet data)) ↔
    PrefixIsHop isIdentifier packet data := by
  have fundsFollow (hash : Bytes → Bytes)
      (same : mustExtractDenomFromPacketOnRecv isIdentifier hash packet =
        .ok (creditedDenom isIdentifier hash packet data)) :
      hookedFunds isIdentifier hash packet data =
        .ok (creditedCoin isIdentifier hash packet data) := by
    rw [hookedFunds, same]
    rfl
  have denomOnly : (∀ hash, mustExtractDenomFromPacketOnRecv isIdentifier hash packet =
        .ok (creditedDenom isIdentifier hash packet data) ∧
      hookedFunds isIdentifier hash packet data =
        .ok (creditedCoin isIdentifier hash packet data)) ↔
      ∀ hash, mustExtractDenomFromPacketOnRecv isIdentifier hash packet =
        .ok (creditedDenom isIdentifier hash packet data) :=
    ⟨fun both hash => (both hash).1, fun same hash => ⟨same hash, fundsFollow hash (same hash)⟩⟩
  rw [denomOnly, PrefixIsHop]
  split
  · rename_i isPrefix
    exact extracted_of_prefix decoded isPrefix
  · rename_i notPrefix
    exact extracted_of_not_prefix decoded notPrefix

end Credited

section Packets

/-- The format of the channel identifiers that the hop parsing knows: `channel-` and up
to twenty digits. -/
def isValidChannelID (channelId : Bytes) : Bool :=
  let digits := channelId.drop (bytes "channel-").length
  (bytes "channel-").isPrefixOf channelId && decide (0 < digits.length) &&
    decide (digits.length ≤ 20) && digits.all fun digit => decide (48 ≤ digit ∧ digit ≤ 57)

def transferPort : Identifier := ⟨bytes "transfer", by decide⟩

def receivedPacket (denom : String) : Packet where
  sourcePort := transferPort
  sourceChannel := ⟨bytes "channel-1", by decide⟩
  destPort := transferPort
  destChannel := ⟨bytes "channel-7", by decide⟩
  data := some ⟨bytes denom, bytes "1"⟩

/-- A denom that came through `channel-10` passes the test for `channel-1`, and one that
ends with the channel has nothing left to slice. -/
theorem mustExtractDenomFromPacketOnRecv_diverges :
    (¬ ∀ packet data, packet.data = some data →
      mustExtractDenomFromPacketOnRecv isValidChannelID id packet =
        .ok (creditedDenom isValidChannelID id packet data)) ∧
    mustExtractDenomFromPacketOnRecv isValidChannelID id
        (receivedPacket "transfer/channel-10/uatom") = .ok (bytes "/uatom") ∧
    creditedDenom isValidChannelID id (receivedPacket "transfer/channel-10/uatom")
        ⟨bytes "transfer/channel-10/uatom", bytes "1"⟩ =
      bytes "ibc/transfer/channel-7/transfer/channel-10/uatom" ∧
    mustExtractDenomFromPacketOnRecv isValidChannelID id
        (receivedPacket "transfer/channel-1") = .error .sliceBoundsOutOfRange := by
  refine ⟨?_, by decide, by decide, by decide⟩
  intro claimed
  have same := claimed (receivedPacket "transfer/channel-10/uatom") _ rfl
  revert same
  decide

theorem mustExtractDenomFromPacketOnRecv_returned :
    PrefixIsHop isValidChannelID (receivedPacket "transfer/channel-1/uatom")
        ⟨bytes "transfer/channel-1/uatom", bytes "1"⟩ ∧
      mustExtractDenomFromPacketOnRecv isValidChannelID id
        (receivedPacket "transfer/channel-1/uatom") = .ok (bytes "uatom") := by
  have isHop : PrefixIsHop isValidChannelID (receivedPacket "transfer/channel-1/uatom")
      ⟨bytes "transfer/channel-1/uatom", bytes "1"⟩ := by
    unfold PrefixIsHop
    dsimp only
    rw [if_pos (by decide)]
    refine ⟨by decide, bytes "uatom", by decide, ?_⟩
    rintro ⟨portId, channelId, segments, _⟩
    have single : (bytes "uatom").splitOn slash = [bytes "uatom"] := by decide
    rw [single] at segments
    cases segments
  have same := ((mustExtractDenomFromPacketOnRecv_eq_credited_iff rfl).mpr isHop id).1
  exact ⟨isHop, same.trans (by decide)⟩

end Packets

end Neutron.IbcHooks
