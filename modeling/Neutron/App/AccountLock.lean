import Mathlib.Data.List.Basic

namespace Neutron.App

/-! Accounts that may not sign, pay for or authorize transactions (`app/account_lock.go`),
and how messages come to be executed: from a transaction, from `authz.MsgExec`, and from
contracts, through the router and its circuit (`app/staking_freeze.go`). -/

def neutronChainID : String := "neutron-1"

def attackerAddress : String := "neutron1dd25c4sshelrpfs0433apg24c5phrhk8l6n605"

def attackerAddress2 : String := "neutron1ekgfga6vv4zdrrjn3dux6f62fuzektfndgaehm"

def proposal9HaltHeight : Int := 61635573

def lockedAccounts : List String := [attackerAddress, attackerAddress2]

structure Context where
  chainID : String
  blockHeight : Int
  isCheckTx : Bool

def proposal9ProtectionsActive (ctx : Context) : Bool :=
  decide (ctx.chainID = neutronChainID) &&
    (decide (proposal9HaltHeight < ctx.blockHeight) || ctx.isCheckTx)

/-- A message with all that its execution dispatches: the messages inside of
`authz.MsgExec`, and those a contract sends while it runs. -/
inductive Msg where
  | exec (grantee : String) (msgs : List Msg)
  | executeContract (sender contract : String) (dispatched : List Msg)
  | other (typeURL : String) (signers : List String)

namespace Msg

def typeURL : Msg → String
  | exec _ _ => "/cosmos.authz.v1beta1.MsgExec"
  | executeContract _ _ _ => "/cosmwasm.wasm.v1.MsgExecuteContract"
  | other typeURL _ => typeURL

/-- `GetMsgV1Signers`. -/
def signers : Msg → List String
  | exec grantee _ => [grantee]
  | executeContract sender _ _ => [sender]
  | other _ signers => signers

end Msg

structure Tx where
  signers : List String
  feePayer : String
  feeGranter : Option String
  msgs : List Msg

inductive LockError where
  | cannotSign (account : String)
  | cannotPayFees (account : String)
  | cannotAuthorize (account typeURL : String)

def lockedAccount (addrs : List String) : Option String :=
  addrs.find? fun addr => addr ∈ lockedAccounts

mutual

/-- One turn of the loop in `rejectLockedMessageSigners`. -/
def rejectLockedMessageSigner : Msg → Except LockError Unit
  | .exec grantee msgs =>
      match lockedAccount [grantee] with
      | some locked => .error (.cannotAuthorize locked "/cosmos.authz.v1beta1.MsgExec")
      | none => rejectLockedMessageSigners msgs
  | .executeContract sender _ _ =>
      match lockedAccount [sender] with
      | some locked => .error (.cannotAuthorize locked "/cosmwasm.wasm.v1.MsgExecuteContract")
      | none => .ok ()
  | .other typeURL signers =>
      match lockedAccount signers with
      | some locked => .error (.cannotAuthorize locked typeURL)
      | none => .ok ()

def rejectLockedMessageSigners : List Msg → Except LockError Unit
  | [] => .ok ()
  | msg :: rest =>
      match rejectLockedMessageSigner msg with
      | .error cause => .error cause
      | .ok _ => rejectLockedMessageSigners rest

end

def rejectLockedAccount (tx : Tx) : Except LockError Unit :=
  match lockedAccount tx.signers with
  | some locked => .error (.cannotSign locked)
  | none =>
      match lockedAccount (tx.feePayer :: tx.feeGranter.toList) with
      | some locked => .error (.cannotPayFees locked)
      | none => rejectLockedMessageSigners tx.msgs

def anteHandle (ctx : Context) (tx : Tx) : Except LockError Unit :=
  if proposal9ProtectionsActive ctx then rejectLockedAccount tx else .ok ()

def frozenStakingMsgs : List String :=
  ["/cosmos.staking.v1beta1.MsgDelegate",
   "/cosmos.staking.v1beta1.MsgCancelUnbondingDelegation",
   "/cosmos.staking.v1beta1.MsgCreateValidator"]

/-- `StakingFreezeCircuit.IsAllowed`, the only guard of the router. -/
def isAllowed (ctx : Context) (typeURL : String) : Bool :=
  !(decide (typeURL ∈ frozenStakingMsgs) && proposal9ProtectionsActive ctx)

structure Executed where
  typeURL : String
  signers : List String
  deriving DecidableEq

section Dispatch

-- `granted` tells which messages an existing grant of the granter covers
variable (ctx : Context) (granted : (grantee granter typeURL : String) → Bool)

mutual

/-- The router: all that is executed, or nothing if something fails. -/
def dispatch : Msg → Option (List Executed)
  | .exec grantee msgs =>
      if isAllowed ctx "/cosmos.authz.v1beta1.MsgExec" then
        (dispatchActions grantee msgs).map
          (⟨"/cosmos.authz.v1beta1.MsgExec", [grantee]⟩ :: ·)
      else
        none
  | .executeContract sender contract dispatched =>
      if isAllowed ctx "/cosmwasm.wasm.v1.MsgExecuteContract" then
        (dispatchFromContract contract dispatched).map
          (⟨"/cosmwasm.wasm.v1.MsgExecuteContract", [sender]⟩ :: ·)
      else
        none
  | .other typeURL signers =>
      if isAllowed ctx typeURL then some [⟨typeURL, signers⟩] else none

/-- `DispatchActions`: every message has one signer, who is the grantee or has given the
grantee a grant. -/
def dispatchActions (grantee : String) : List Msg → Option (List Executed)
  | [] => some []
  | msg :: rest =>
      match msg.signers with
      | [granter] =>
          if granter = grantee ∨ granted grantee granter msg.typeURL then
            match dispatch msg, dispatchActions grantee rest with
            | some first, some others => some (first ++ others)
            | _, _ => none
          else
            none
      | _ => none

def dispatchFromContract (contract : String) : List Msg → Option (List Executed)
  | [] => some []
  | msg :: rest =>
      if ∀ signer ∈ msg.signers, signer = contract then
        match dispatch msg, dispatchFromContract contract rest with
        | some first, some others => some (first ++ others)
        | _, _ => none
      else
        none

end

def runMsgs : List Msg → Option (List Executed)
  | [] => some []
  | msg :: rest =>
      match dispatch ctx granted msg, runMsgs rest with
      | some first, some others => some (first ++ others)
      | _, _ => none

def deliverTx (tx : Tx) : Option (List Executed) :=
  match anteHandle ctx tx with
  | .error _ => none
  | .ok _ => runMsgs ctx granted tx.msgs

end Dispatch

def Unlocked (signers : List String) : Prop := ∀ signer ∈ signers, signer ∉ lockedAccounts

mutual

/-- No message of a tree needs the signature of a locked account. -/
def Msg.AllUnlocked : Msg → Prop
  | .exec grantee msgs => Unlocked [grantee] ∧ allUnlocked msgs
  | .executeContract sender _ dispatched => Unlocked [sender] ∧ allUnlocked dispatched
  | .other _ signers => Unlocked signers

def allUnlocked : List Msg → Prop
  | [] => True
  | msg :: rest => msg.AllUnlocked ∧ allUnlocked rest

end

mutual

/-- No message that a contract dispatches, and none inside of such a message, needs the
signature of a locked account. -/
def Msg.ContractsUnlocked : Msg → Prop
  | .exec _ msgs => contractsUnlocked msgs
  | .executeContract _ _ dispatched => allUnlocked dispatched
  | .other _ _ => True

def contractsUnlocked : List Msg → Prop
  | [] => True
  | msg :: rest => msg.ContractsUnlocked ∧ contractsUnlocked rest

end

def OnlyUnlocked (executed : List Executed) : Prop := ∀ entry ∈ executed, Unlocked entry.signers

theorem onlyUnlocked_cons (entry : Executed) (rest : List Executed) :
    OnlyUnlocked (entry :: rest) ↔ Unlocked entry.signers ∧ OnlyUnlocked rest :=
  List.forall_mem_cons

theorem onlyUnlocked_append (first others : List Executed) :
    OnlyUnlocked (first ++ others) ↔ OnlyUnlocked first ∧ OnlyUnlocked others :=
  List.forall_mem_append

section Executed

variable {ctx : Context} {granted : (grantee granter typeURL : String) → Bool}

mutual

theorem dispatch_onlyUnlocked : ∀ {msg : Msg} {executed : List Executed},
    dispatch ctx granted msg = some executed → (OnlyUnlocked executed ↔ msg.AllUnlocked)
  | .exec grantee msgs, executed, ran => by
      unfold dispatch at ran
      split at ran
      · obtain ⟨inner, ranInner, isExecuted⟩ := Option.map_eq_some_iff.mp ran
        rw [← isExecuted, onlyUnlocked_cons, dispatchActions_onlyUnlocked ranInner,
          Msg.AllUnlocked]
      · cases ran
  | .executeContract sender contract dispatched, executed, ran => by
      unfold dispatch at ran
      split at ran
      · obtain ⟨inner, ranInner, isExecuted⟩ := Option.map_eq_some_iff.mp ran
        rw [← isExecuted, onlyUnlocked_cons, dispatchFromContract_onlyUnlocked ranInner,
          Msg.AllUnlocked]
      · cases ran
  | .other typeURL signers, executed, ran => by
      unfold dispatch at ran
      split at ran
      · cases ran
        simp [OnlyUnlocked, Msg.AllUnlocked]
      · cases ran

theorem dispatchActions_onlyUnlocked : ∀ {grantee : String} {msgs : List Msg}
    {executed : List Executed}, dispatchActions ctx granted grantee msgs = some executed →
      (OnlyUnlocked executed ↔ allUnlocked msgs)
  | grantee, [], executed, ran => by
      unfold dispatchActions at ran
      cases ran
      simp [OnlyUnlocked, allUnlocked]
  | grantee, msg :: rest, executed, ran => by
      unfold dispatchActions at ran
      split at ran
      · split at ran
        · split at ran
          · rename_i first others ranFirst ranOthers
            cases ran
            rw [onlyUnlocked_append, dispatch_onlyUnlocked ranFirst,
              dispatchActions_onlyUnlocked ranOthers, allUnlocked]
          · cases ran
        · cases ran
      · cases ran

theorem dispatchFromContract_onlyUnlocked : ∀ {contract : String} {msgs : List Msg}
    {executed : List Executed},
    dispatchFromContract ctx granted contract msgs = some executed →
      (OnlyUnlocked executed ↔ allUnlocked msgs)
  | contract, [], executed, ran => by
      unfold dispatchFromContract at ran
      cases ran
      simp [OnlyUnlocked, allUnlocked]
  | contract, msg :: rest, executed, ran => by
      unfold dispatchFromContract at ran
      split at ran
      · split at ran
        · rename_i first others ranFirst ranOthers
          cases ran
          rw [onlyUnlocked_append, dispatch_onlyUnlocked ranFirst,
            dispatchFromContract_onlyUnlocked ranOthers, allUnlocked]
        · cases ran
      · cases ran

end

theorem runMsgs_onlyUnlocked {msgs : List Msg} {executed : List Executed}
    (ran : runMsgs ctx granted msgs = some executed) :
    OnlyUnlocked executed ↔ allUnlocked msgs := by
  induction msgs generalizing executed with
  | nil =>
      cases ran
      simp [OnlyUnlocked, allUnlocked]
  | cons msg rest ih =>
      unfold runMsgs at ran
      split at ran
      · rename_i first others ranFirst ranOthers
        cases ran
        rw [onlyUnlocked_append, dispatch_onlyUnlocked ranFirst, ih ranOthers, allUnlocked]
      · cases ran

end Executed

section Ante

theorem unlocked_of_lockedAccount {addrs : List String} (none : lockedAccount addrs = none) :
    Unlocked addrs := by
  intro addr member
  have notLocked := List.find?_eq_none.mp none addr member
  simpa using notLocked

mutual

theorem allUnlocked_of_rejectLockedMessageSigner : ∀ {msg : Msg},
    rejectLockedMessageSigner msg = .ok () → (msg.AllUnlocked ↔ msg.ContractsUnlocked)
  | .exec grantee msgs, passed => by
      unfold rejectLockedMessageSigner at passed
      split at passed
      · cases passed
      · rename_i none
        rw [Msg.AllUnlocked, Msg.ContractsUnlocked,
          allUnlocked_of_rejectLockedMessageSigners passed]
        exact and_iff_right (unlocked_of_lockedAccount none)
  | .executeContract sender contract dispatched, passed => by
      unfold rejectLockedMessageSigner at passed
      split at passed
      · cases passed
      · rename_i none
        rw [Msg.AllUnlocked, Msg.ContractsUnlocked]
        exact and_iff_right (unlocked_of_lockedAccount none)
  | .other typeURL signers, passed => by
      unfold rejectLockedMessageSigner at passed
      split at passed
      · cases passed
      · rename_i none
        rw [Msg.AllUnlocked, Msg.ContractsUnlocked]
        exact iff_true_intro (unlocked_of_lockedAccount none)

theorem allUnlocked_of_rejectLockedMessageSigners : ∀ {msgs : List Msg},
    rejectLockedMessageSigners msgs = .ok () → (allUnlocked msgs ↔ contractsUnlocked msgs)
  | [], _ => by rw [allUnlocked, contractsUnlocked]
  | msg :: rest, passed => by
      unfold rejectLockedMessageSigners at passed
      split at passed
      · cases passed
      · rename_i first
        rw [allUnlocked, contractsUnlocked, allUnlocked_of_rejectLockedMessageSigner first,
          allUnlocked_of_rejectLockedMessageSigners passed]

end

end Ante

section Examples

def protectedContext : Context := ⟨neutronChainID, 61635574, false⟩

def allGranted (_ _ _ : String) : Bool := true

/-- A user calls a contract to which a locked account has given a grant. -/
def contractExecTx : Tx where
  signers := ["user"]
  feePayer := "user"
  feeGranter := none
  msgs := [.executeContract "user" "contract"
    [.exec "contract" [.other "/cosmos.bank.v1beta1.MsgSend" [attackerAddress]]]]

def plainTx : Tx where
  signers := ["user"]
  feePayer := "user"
  feeGranter := none
  msgs := [.exec "user" [.other "/cosmos.bank.v1beta1.MsgSend" ["friend"]]]

end Examples

end Neutron.App
