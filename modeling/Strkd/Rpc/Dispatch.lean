import Strkd.Rpc.Strk20

/-!
# Dispatch

The one entry point of the service: route a request to its handler, enforce the paired-token
requirement for everything but the public methods, and record the request.  The proving tasks that
requests leave behind are here too.
-/

namespace Strkd.Rpc

open Wallet Prover

/-! ## Methods -/

inductive Method where
  | supportedWalletApi
  | supportedSpecs
  | getPermissions
  | getStatus
  | requestPairing
  | addStarknetChain
  | strk20ShadowAccountCommitment
  | strk20SubaccountCommitment
  | requestChainId
  | requestAccounts
  | listAccounts
  | deploymentData
  | signTypedData
  | addInvokeTransaction
  | addDeclareTransaction
  | createAgentAccount
  | switchStarknetChain
  | watchAsset
  | fundingSource
  | reportIssue
  | typedDataHash
  | estimateFee
  | requestGrant
  | requestFunding
  | deployAccount
  | prove
  | proveStatus
  | proofActivity
  | signAndProve
  | strk20Balances
  | strk20PrepareInvoke
  | strk20InvokeTransaction
  | strk20Register
  deriving DecidableEq, Repr

namespace Method

/-- The method name on the wire. -/
def wire : Method → String
  | supportedWalletApi => "wallet_supportedWalletApi"
  | supportedSpecs => "wallet_supportedSpecs"
  | getPermissions => "wallet_getPermissions"
  | getStatus => "companion_getStatus"
  | requestPairing => "companion_requestPairing"
  | addStarknetChain => "wallet_addStarknetChain"
  | strk20ShadowAccountCommitment => "wallet_strk20ShadowAccountCommitment"
  | strk20SubaccountCommitment => "wallet_strk20SubaccountCommitment"
  | requestChainId => "wallet_requestChainId"
  | requestAccounts => "wallet_requestAccounts"
  | listAccounts => "companion_listAccounts"
  | deploymentData => "wallet_deploymentData"
  | signTypedData => "wallet_signTypedData"
  | addInvokeTransaction => "wallet_addInvokeTransaction"
  | addDeclareTransaction => "wallet_addDeclareTransaction"
  | createAgentAccount => "companion_createAgentAccount"
  | switchStarknetChain => "wallet_switchStarknetChain"
  | watchAsset => "wallet_watchAsset"
  | fundingSource => "companion_fundingSource"
  | reportIssue => "companion_reportIssue"
  | typedDataHash => "companion_typedDataHash"
  | estimateFee => "companion_estimateFee"
  | requestGrant => "companion_requestGrant"
  | requestFunding => "companion_requestFunding"
  | deployAccount => "companion_deployAccount"
  | prove => "companion_prove"
  | proveStatus => "companion_proveStatus"
  | proofActivity => "companion_proofActivity"
  | signAndProve => "companion_signAndProve"
  | strk20Balances => "wallet_strk20Balances"
  | strk20PrepareInvoke => "wallet_strk20PrepareInvoke"
  | strk20InvokeTransaction => "wallet_strk20InvokeTransaction"
  | strk20Register => "companion_strk20Register"

def all : List Method := [
  supportedWalletApi, supportedSpecs, getPermissions, getStatus, requestPairing, addStarknetChain,
  strk20ShadowAccountCommitment, strk20SubaccountCommitment, requestChainId, requestAccounts,
  listAccounts, deploymentData, signTypedData, addInvokeTransaction, addDeclareTransaction,
  createAgentAccount, switchStarknetChain, watchAsset, fundingSource, reportIssue, typedDataHash,
  estimateFee, requestGrant, requestFunding, deployAccount, prove, proveStatus, proofActivity,
  signAndProve, strk20Balances, strk20PrepareInvoke, strk20InvokeTransaction, strk20Register]

/-- The method with a wire name. -/
def ofString (s : String) : Option Method := all.find? fun m => m.wire = s

theorem wire_of_ofString {s : String} {m : Method} (h : ofString s = some m) : m.wire = s := by
  have hm := List.find?_some h
  exact of_decide_eq_true hm

/-- Whether a method is in the specification but not built yet. -/
def isDeferred : Method → Bool
  | addStarknetChain | strk20ShadowAccountCommitment | strk20SubaccountCommitment => true
  | _ => false

/-- The methods that go through `gated_approval`. -/
def gated : Method → Bool
  | signTypedData | addInvokeTransaction | addDeclareTransaction | createAgentAccount
  | deployAccount | signAndProve | strk20Balances | strk20PrepareInvoke | strk20InvokeTransaction
  | strk20Register => true
  | _ => false

/-- Whether the log labels a method's decision from its result. -/
def reportsDecision : Method → Bool
  | signTypedData | addInvokeTransaction | addDeclareTransaction | switchStarknetChain | watchAsset
  | createAgentAccount | requestFunding | requestGrant | deployAccount | signAndProve
  | strk20Balances | strk20PrepareInvoke | strk20InvokeTransaction | strk20Register => true
  | _ => false

end Method

variable (K : Crates) (S : Setup)

/-! ## Methods without a paired token -/

/-- The client of a bearer token. -/
def verifyToken (token : Option String) : Prog Op Ans (Option PairedClient) := do
  match token with
  | some t => carryOut (.verify t)
  | none => return none

def handleGetPermissions (token : Option String) : Prog Op Ans Handled := do
  let client ← verifyToken token
  let granted := if client.isSome then Json.arr [.str "accounts"] else .arr []
  return ⟨.ok granted, "n/a", none⟩

def optMillis : Option U64 → Json
  | some t => .int t.toNat
  | none => .null

/-- The grant state of the calling client, if it presents a valid token. -/
def grantStatus (token : Option String) : Prog Op Ans Json := do
  match ← verifyToken token with
  | some c => do
      let now ← carryOut (.clock .status)
      return .obj [("active", .bool (c.grantActive now)), ("expires_at", optMillis c.grantedUntil)]
  | none => return .null

def handleGetStatus (token : Option String) : Prog Op Ans Handled := do
  let grant ← grantStatus token
  let s ← carryOut .session
  let status := Json.obj [("locked", .bool s.isLocked), ("network", .str (chainName s.chain)),
    ("api_version", .str S.apiVersion), ("grant", grant)]
  return ⟨.ok status, "n/a", none⟩

/-! ## Methods of a paired client -/

def handleRequestChainId : Serve Json := do
  let s ← perform .session
  return .str (feltHex s.chain.asFelt)

/-- The accounts of the caller's scope, in full or only their addresses. -/
def handleAccounts (client : PairedClient) (detailed : Bool) : Serve Json := do
  let reg ← readRegistry
  return .arr ((reg.scopedFor client.scope).map fun a =>
    if detailed then accountToJson a else .str a.address)

/-- Run the handler of a method. -/
def serve (client : PairedClient) (req : Request) : Option Method → Serve Json
  | some .requestChainId => handleRequestChainId
  | some .requestAccounts => handleAccounts client false
  | some .listAccounts => handleAccounts client true
  | some .deploymentData => handleDeploymentData K client
  | some .signTypedData => handleSignTypedData K client req.params
  | some .addInvokeTransaction => handleAddInvoke K client req.params
  | some .addDeclareTransaction => handleAddDeclare K client req.params
  | some .createAgentAccount => handleCreateAgentAccount K S client req.params
  | some .switchStarknetChain => handleSwitchChain K client req.params
  | some .watchAsset => handleWatchAsset client req.params
  | some .fundingSource => handleFundingSource K
  | some .reportIssue => propagate (handleReportIssue S client req.params)
  | some .typedDataHash => propagate (handleTypedDataHash K req.params)
  | some .estimateFee => handleEstimateFee K client req.params
  | some .requestGrant => handleRequestGrant client req.params
  | some .requestFunding => handleRequestFunding K client req.params
  | some .deployAccount => handleDeployAccount K client req.params
  | some .prove => handleProve S req.params
  | some .proveStatus => handleProveStatus S req.params
  | some .proofActivity => handleProofActivity S
  | some .signAndProve => handleSignAndProve K S client req.params
  | some .strk20Balances => Strk20.balances K S (.rpc client) req.params
  | some .strk20PrepareInvoke => Strk20.prepareInvoke K S (.rpc client) req.params
  | some .strk20InvokeTransaction => Strk20.invokeTransaction K S (.rpc client) req.params
  | some .strk20Register => Strk20.register K S (.rpc client) req.params
  | _ => throw (.notImplemented ("unknown method '" ++ req.method ++ "'"))

/-- "rejected" when the result is a refusal by the user, else "approved" or "n/a". -/
def decisionLabel : Except WalletRpcError Json → String
  | .error .userRefused => "rejected"
  | .ok _ => "approved"
  | .error _ => "n/a"

def handlePaired (client : PairedClient) (req : Request) (method : Option Method) :
    Prog Op Ans Handled := do
  if method.any Method.isDeferred then
    return ⟨.error (.notImplemented (req.method ++ " is planned for a later phase")), "n/a",
      some client.fullLabel⟩
  let result ← (serve K S client req method).run
  let decision := if method.any Method.reportsDecision then decisionLabel result else "n/a"
  return ⟨result, decision, some client.fullLabel⟩

def handle (token : Option String) (req : Request) : Prog Op Ans Handled := do
  match Method.ofString req.method with
  | some .supportedWalletApi => return ⟨.ok (.arr [.str S.apiVersion]), "n/a", none⟩
  | some .supportedSpecs => return ⟨.ok (.arr (S.specVersions.map .str)), "n/a", none⟩
  | some .getPermissions => handleGetPermissions token
  | some .getStatus => handleGetStatus S token
  | some .requestPairing => do
      let result ← (handlePairing req.params).run
      return pairingHandled ((optParamStr req.params "name").getD "unnamed client") result
  | method => do
      match ← verifyToken token with
      | none => return ⟨.error .notRegistered, "n/a", none⟩
      | some client => handlePaired K S client req method

/-! ## Recording -/

/-- The outcome column of the log. -/
def outcomeText : Except WalletRpcError Json → String
  | .ok _ => "ok"
  | .error e => "error " ++ toString e.code ++ ": " ++ e.message

def errorCodeOf : Except WalletRpcError Json → Option ℤ
  | .ok _ => none
  | .error e => some e.code

def resultJsonOf : Except WalletRpcError Json → Option String
  | .ok v => some v.render
  | .error _ => none

/-- Handle a request, record it and answer it. -/
def dispatch (token : Option String) (req : Request) : Prog Op Ans Response := do
  let _ ← carryOut .touchActivity
  let handled ← handle K S token req
  let s ← carryOut .session
  let now ← carryOut (.clock .log)
  let latency ← carryOut .elapsed
  -- an insert that fails is not reported
  let _ ← carryOut (.record {
    tsUnixMs := now
    method := req.method
    client := handled.client
    network := some (chainName s.chain)
    decision := handled.decision
    outcome := outcomeText handled.result
    errorCode := errorCodeOf handled.result
    latencyMs := latency
    paramsJson := some req.params.render
    resultJson := resultJsonOf handled.result })
  match handled.result with
  | .ok value => return .ok req.id value
  | .error e => return .err req.id e

/-! ## Proving tasks -/

/-- Prove a payload in the background and keep a record of it. -/
def proveInBackground (task : ProveTask) : Prog Op Ans Unit := do
  carryOut (.setJobStatus task.jobId .proving)
  let createdAtMs ← carryOut .jobClock
  let res ← carryOut (.prove task.payload task.label task.network)
  let proveMs ← carryOut .proveElapsed
  let rec' : ProofRecord := {
    jobId := task.jobId
    label := task.label
    network := task.network
    createdAtMs
    proveMs
    status := ""
    payload := task.payload
    proof := none
    error := none }
  match res with
  | .ok proof => do
      carryOut (.succeedJob task.jobId proof)
      carryOut (.saveProof { rec' with status := "succeeded", proof := some proof })
  | .error e => do
      carryOut (.failJob task.jobId e)
      carryOut (.saveProof { rec' with status := "failed", error := some e })

end Strkd.Rpc
