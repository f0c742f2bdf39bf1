import Strkd.Rpc.Node

/-!
# The request handlers

The handlers of `dispatch.rs`, one definition each, in the order of the source.
-/

namespace Strkd.Rpc

open Wallet Prover

variable (K : Crates) (S : Setup)

/-! ## Approval -/

/-- Ask the user. -/
def askUser (clientLabel method summary : String) : Serve Decision :=
  perform (.requestApproval ⟨clientLabel, method, summary⟩)

/-- Approval that honors an active permission grant of the client. -/
def gatedApproval (client : PairedClient) (method summary : String) : Serve Decision := do
  let now ← perform (.clock (.gate client method))
  if client.grantActive now then return .approve
  askUser client.fullLabel method summary

/-- `if decision == Decision::Reject { return Err(UserRefused) }` -/
def confirmed : Decision → Except WalletRpcError Unit
  | .approve => .ok ()
  | .reject => .error .userRefused

/-! ## Accounts, chains and nodes -/

/-- The registry of the unlocked session. -/
def readRegistry : Serve Registry := do
  let s ← perform .session
  s.registry

/-- The account of the caller's scope with the given address. -/
def scopedAccount (client : PairedClient) (want : String) : Serve AccountRef := do
  let reg ← readRegistry
  match (reg.scopedFor client.scope).find? fun a => a.address = want with
  | some a => return a
  | none => throw .forbidden

/-- The account of the caller's scope with the given address, or its first account. -/
def scopedAccountOr (client : PairedClient) (param : Option String) (missing : WalletRpcError) :
    Serve AccountRef := do
  let reg ← readRegistry
  let found ← match param with
    | some s => do
        let want ← normalizeAddress K s
        pure ((reg.scopedFor client.scope).find? fun a => a.address = want)
    | none => pure (reg.scopedFor client.scope).head?
  match found with
  | some a => return a
  | none => throw missing

/-- The chain of an operation: the request's own `chainId`, else the wallet's default. -/
def resolveChain (params : Json) : Serve ChainId := do
  match params.get? "chainId" with
  | none | some .null => do
      let s ← perform .session
      return s.chain
  | some (.str text) =>
      match K.feltFromHex text with
      | none => throw (.invalidRequest
          "invalid chainId (expected a felt-encoded chain id, e.g. SN_SEPOLIA / SN_MAIN)")
      | some f =>
          match chainOfFelt f with
          | some chain => return chain
          | none => throw .chainIdNotSupported
  | some _ => throw (.invalidRequest "chainId must be a felt-encoded string")

def nodeError (e : NodeError) : WalletRpcError := .node e.display

/-- `node_for(chain).ok_or(NoNode)?` -/
def requireNode (chain : ChainId) : Serve Unit := do
  let configured ← perform (.nodeFor chain)
  if configured = false then throw .noNode

/-- The caller's nonce, or the node's. -/
def resolveNonce (chain : ChainId) (sender : Felt) (params : Json) : Serve Felt := do
  match ← optNonce K params with
  | some n => return n
  | none => do
      requireNode chain
      mapErr nodeError (Node.getNonce K chain sender)

/-- The nonce and fee bounds of an invoke. `proofCarrying` is the proof facts of a SNIP-36 invoke
with its proof. -/
def resolveExec (chain : ChainId) (sender : Felt) (encodedCalldata : List Felt) (params : Json)
    (proofCarrying : Option (List Felt × Option String)) : Serve (Felt × FeeBounds) := do
  let nonce ← resolveNonce K chain sender params
  match ← optFeeBounds params with
  | some b => return (nonce, b)
  | none =>
      match proofCarrying with
      | some (facts, some proof) => do
          requireNode chain
          let bounds ← mapErr nodeError
            (Node.estimateInvokeWithProof chain sender encodedCalldata nonce facts proof)
          return (nonce, bounds)
      | some (_, none) => throw (.invalidRequest
          ("proof-carrying invoke (proof_facts) without 'proof' needs explicit resource_bounds: " ++
          "the fee can only be estimated with the proof attached. Pass 'proof', or set " ++
          "resource_bounds manually (e.g. ~2× current gas prices)."))
      | none => do
          requireNode chain
          let bounds ← mapErr nodeError (Node.estimateInvoke chain sender encodedCalldata nonce)
          return (nonce, bounds)

/-! ## Pairing -/

/-- The outcome of a request with what the log records of it. -/
structure Handled where
  result : Except WalletRpcError Json
  decision : String
  client : Option String

/-- The count of accounts a client owns, zero while locked. -/
def ownedAccounts (id : String) : Serve ℕ := do
  let s ← perform .session
  match s.registry with
  | .ok r => return (r.scopedFor (some id)).length
  | .error _ => return 0

def parseKind (params : Json) : ClientKind :=
  if optParamStr params "kind" = some "agent" then .agent else .app

/-- The result of a pairing that was approved or refused. -/
def pairingHandled (name : String) : Except WalletRpcError Json → Handled
  | .ok v => ⟨.ok v, "approved", some name⟩
  | .error e => ⟨.error e, "rejected", some name⟩

/-- Re-attach the existing client `id`. -/
def reattachClient (name : String) (kind : ClientKind) (id : String) : Serve Json := do
  let accounts ← ownedAccounts id
  let decision ← askUser name "companion_requestPairing"
    ("Re-attach " ++ kind.debug ++ " client \"" ++ name ++ "\" (" ++ id ++
      ") — the caller will control " ++ toString accounts ++ " existing account(s)")
  confirmed decision
  match ← perform (.reattach name kind) with
  | some (id, token) => return .obj [
      ("client_id", .str id), ("token", .str token), ("reattached", .bool true)]
  -- `expect("client existed")`: the client was revoked while the prompt was open
  | none => do
      let crashed ← perform .halt
      nomatch crashed

def pairClient (name : String) (kind : ClientKind) : Serve Json := do
  let decision ← askUser name "companion_requestPairing"
    ("Pair new " ++ kind.debug ++ " client \"" ++ name ++ "\"")
  confirmed decision
  let (id, token) ← perform (.pair name kind)
  return .obj [("client_id", .str id), ("token", .str token)]

def handlePairing (params : Json) : Serve Json := do
  let name := (optParamStr params "name").getD "unnamed client"
  let kind := parseKind params
  let existing ← if paramFlag params "reattach" then perform (.findId name kind) else pure none
  match existing with
  | some id => reattachClient name kind id
  | none => pairClient name kind

/-! ## Reading and hashing -/

def handleDeploymentData (client : PairedClient) : Serve Json := do
  let reg ← readRegistry
  let some account := (reg.scopedFor client.scope).head? | throw .deploymentDataNotAvailable
  let s ← perform .session
  let d ← s.deploymentDataFor K account
  return .obj [("address", .str (addressHex d.address)), ("class_hash", .str (feltHex d.classHash)),
    ("salt", .str (feltHex d.salt)), ("constructor_calldata", feltArr d.constructorCalldata)]

def handleSignTypedData (client : PairedClient) (params : Json) : Serve Json := do
  let accountAddress ← paramStr params "account_address"
  let want ← normalizeAddress K accountAddress
  let document ← typedDataJson params
  let account ← scopedAccount client want
  let decision ← gatedApproval client "wallet_signTypedData"
    ("Sign typed data with account " ++ account.address)
  confirmed decision
  let sig ← propagate (← perform (.signTypedData account document))
  return feltArr (account.contract.serializeSignature sig)

/-- The SNIP-12 message hash `wallet_signTypedData` would sign. -/
def handleTypedDataHash (params : Json) : Except WalletRpcError Json := do
  let accountAddress ← paramStr params "account_address"
  let account ← match K.feltFromHex accountAddress with
    | some f => pure f
    | none => invalidRequest "invalid 'account_address'"
  let document ← typedDataJson params
  let hash ← liftCore (typedDataMessageHash K document account)
  return .obj [("hash", .str (feltHex hash)), ("revision", .str "1")]

/-! ## Invokes -/

/-- The sender felt of an account. -/
def senderOf (account : AccountRef) : Except WalletRpcError Felt :=
  WalletSession.storedAddress K account

/-- Sign an invoke and, if `submit`, broadcast it. -/
def signAndSubmit (chain : ChainId) (account : AccountRef) (calls : List Call) (nonce : Felt)
    (bounds : FeeBounds) (submit : Bool) (proofFacts : List Felt) (proof : Option String) :
    Serve Json := do
  let p : InvokeV3Params := {
    nonce
    tip := 0
    l1Gas := bounds.l1Gas
    l2Gas := bounds.l2Gas
    l1DataGas := bounds.l1DataGas
    proofFacts }
  let signed ← propagate (← perform (.signInvoke account calls chain p))
  let sender ← senderOf K account
  if submit then
    requireNode chain
    let hash ← mapErr nodeError (Node.addInvoke K chain sender signed.calldata signed.signature
      nonce bounds proofFacts proof)
    return .obj [("transaction_hash", .str (feltHex hash)), ("submitted", .bool true)]
  else
    return .obj [("transaction_hash", .str (feltHex signed.transactionHash)),
      ("signature", feltArr signed.signature),
      ("signed_transaction",
        invokeV3TxJson sender signed.calldata signed.signature nonce bounds proofFacts proof),
      ("submitted", .bool false)]

def handleAddInvoke (client : PairedClient) (params : Json) : Serve Json := do
  let submit := paramFlag params "submit"
  let accountAddress ← paramStr params "account_address"
  let want ← normalizeAddress K accountAddress
  let calls ← parseCalls K params
  let proofFacts ← parseProofFacts K params
  let proof ← parseProof params
  if submit ∧ proofFacts ≠ [] ∧ proof = none then
    throw (.invalidRequest
      "broadcasting a proof-carrying invoke (proof_facts) requires 'proof'")
  let account ← scopedAccount client want
  let sender ← senderOf K account
  let chain ← resolveChain K params
  let (nonce, bounds) ← resolveExec K chain sender (encodeCalls calls) params
    (if proofFacts = [] then none else some (proofFacts, proof))
  let decision ← gatedApproval client "wallet_addInvokeTransaction"
    ((if submit then "Submit" else "Sign") ++ " " ++ toString calls.length ++ " call(s)" ++
      (if proofFacts = [] then "" else " (SNIP-36 proof-carrying)") ++ " from " ++ account.address ++
      " on " ++ chainName chain ++ ". " ++ summarizeCalls calls ++ ". Max fee: " ++
      boundsSummary bounds)
  confirmed decision
  signAndSubmit K chain account calls nonce bounds submit proofFacts proof

/-! ## Declarations -/

/-- The class hash to sign: derived from the class when there is one, and then a given hash has to
agree with it. -/
def declaredClassHash (contractClass : Option SierraClass) (given : Option Felt) :
    Except WalletRpcError Felt :=
  match contractClass, given with
  | some cc, some given =>
      let derived := cc.classHash K
      if derived = given then .ok derived
      else invalidRequest ("class_hash " ++ feltHex given ++
        " does not match the supplied contract_class, which hashes to " ++ feltHex derived ++
        ". The node derives the class hash from contract_class and validates the signature " ++
        "against THAT transaction hash, so signing " ++ feltHex given ++
        " would be rejected on-chain as an invalid signature. Check the class (the abi string " ++
        "is hashed byte-for-byte; pass the abi as the JSON array to have it serialised the way " ++
        "the compiler hashes it), or omit class_hash to sign the derived one.")
  | some cc, none => .ok (cc.classHash K)
  | none, some given => .ok given
  | none, none => invalidRequest
      "missing 'class_hash' (or pass 'contract_class' and it is derived)"

def parseContractClass (params : Json) : Except WalletRpcError (Option SierraClass) :=
  match presentParam params "contract_class" with
  | some v => do return some (← liftCore (SierraClass.fromJson K v))
  | none => .ok none

def parseClassHash (params : Json) : Except WalletRpcError (Option Felt) :=
  match presentParam params "class_hash" with
  | some v => do return some (← feltFrom K v "class_hash")
  | none => .ok none

def parseCompiledClassHash (params : Json) : Except WalletRpcError Felt :=
  match params.get? "compiled_class_hash" with
  | some v => feltFrom K v "compiled_class_hash"
  | none => invalidRequest "missing 'compiled_class_hash'"

/-- The fee bounds of a declaration: the caller's, or an estimate of the class. -/
def declareBounds (chain : ChainId) (sender compiledClassHash : Felt) (classJson : Option Json)
    (nonce : Felt) (params : Json) : Serve FeeBounds := do
  match ← optFeeBounds params with
  | some b => return b
  | none => do
      requireNode chain
      match classJson with
      | some cc => mapErr nodeError (Node.estimateDeclare chain sender compiledClassHash cc nonce)
      | none => throw (.invalidRequest
          "to estimate a declare, provide 'contract_class' (or pass resource_bounds)")

/-- Sign a declaration and, if `submit`, broadcast it. -/
def signAndDeclare (chain : ChainId) (account : AccountRef) (sender classHash compiledClassHash : Felt)
    (classJson : Option Json) (nonce : Felt) (bounds : FeeBounds) (submit : Bool) : Serve Json := do
  let p : InvokeV3Params := {
    nonce
    tip := 0
    l1Gas := bounds.l1Gas
    l2Gas := bounds.l2Gas
    l1DataGas := bounds.l1DataGas }
  let signed ← propagate (← perform (.signDeclare account classHash compiledClassHash chain p))
  if submit then
    requireNode chain
    match classJson with
    | none => throw (.invalidRequest "submit:true requires 'contract_class'")
    | some cc => do
        let hash ← mapErr nodeError (Node.addDeclare K chain sender compiledClassHash cc
          signed.signature nonce bounds)
        return .obj [("transaction_hash", .str (feltHex hash)),
          ("class_hash", .str (feltHex classHash)), ("submitted", .bool true)]
  else
    return .obj [("transaction_hash", .str (feltHex signed.transactionHash)),
      ("class_hash", .str (feltHex classHash)), ("signature", feltArr signed.signature),
      ("signed_transaction",
        declareV3TxJson sender compiledClassHash classJson signed.signature nonce bounds),
      ("submitted", .bool false)]

def handleAddDeclare (client : PairedClient) (params : Json) : Serve Json := do
  let submit := paramFlag params "submit"
  let accountAddress ← paramStr params "account_address"
  let want ← normalizeAddress K accountAddress
  let account ← scopedAccount client want
  let sender ← senderOf K account
  let contractClass ← parseContractClass K params
  let given ← parseClassHash K params
  let classHash ← declaredClassHash K contractClass given
  let compiledClassHash ← parseCompiledClassHash K params
  let classJson := contractClass.map SierraClass.toRpcJson
  let chain ← resolveChain K params
  let nonce ← resolveNonce K chain sender params
  let bounds ← declareBounds chain sender compiledClassHash classJson nonce params
  let decision ← gatedApproval client "wallet_addDeclareTransaction"
    ((if submit then "Declare" else "Sign declaration of") ++ " class " ++ feltHex classHash ++
      " from " ++ account.address ++ " on " ++ chainName chain ++ ". Max fee: " ++
      boundsSummary bounds)
  confirmed decision
  signAndDeclare K chain account sender classHash compiledClassHash classJson nonce bounds submit

/-! ## Issue reports -/

/-- Percent-encode a string as a URL query component. -/
def encodeQuery (s : String) : String :=
  String.join (s.toUTF8.toList.map fun b =>
    let c := Char.ofNat b.toNat
    if c.isAlphanum ∨ c = '-' ∨ c = '_' ∨ c = '.' ∨ c = '~' then String.singleton c
    else String.ofList ['%', (Nat.digitChar (b.toNat / 16)).toUpper,
      (Nat.digitChar (b.toNat % 16)).toUpper])

/-- Truncate to at most `max` characters, with an ellipsis if cut. -/
def truncateChars (s : String) (max : ℕ) : String :=
  if s.toList.length ≤ max then s else String.ofList (s.toList.take (max - 1)) ++ "…"

/-- A markdown line `**label:** value`, or nothing for a blank value. -/
def issueField (label value : String) : String :=
  let v := trim value
  if v = "" then "" else "**" ++ label ++ ":** " ++ v ++ "\n\n"

def optionalIssueFields : List (String × String) := [
  ("Attempted", "attempted"), ("Observed", "observed"), ("Limitation", "limitation"),
  ("Impact", "impact"), ("Workaround avoided", "workaround_avoided"), ("Context", "context")]

def handleReportIssue (client : PairedClient) (params : Json) : Except WalletRpcError Json := do
  let goal ← paramStr params "goal"
  let needed ← paramStr params "needed"
  if trim goal = "" ∨ trim needed = "" then
    invalidRequest "`goal` and `needed` must be non-empty"
  let rawTitle := (optParamStr params "title").getD goal
  let title := "[agent-feedback] " ++ truncateChars (trim rawTitle) 120
  let fields := String.join (optionalIssueFields.map fun (label, key) =>
    match optParamStr params key with
    | some v => issueField label v
    | none => "")
  let body := truncateChars (issueField "Goal" goal ++ issueField "Needed" needed ++ fields ++
    "---\n_Filed via strkd `companion_reportIssue` by **" ++ client.label ++ "** (" ++ client.id ++
    "). strkd is alpha — review and edit before submitting, and remove anything sensitive._") 5000
  let url := "https://github.com/" ++ S.issueRepo ++ "/issues/new?title=" ++ encodeQuery title ++
    "&body=" ++ encodeQuery body
  return .obj [("url", .str url), ("title", .str title), ("body", .str body),
    ("repo", .str S.issueRepo), ("filed", .bool false),
    ("instructions", .str ("Give this `url` to your operator. Opening it loads a prefilled " ++
      "GitHub issue draft; they review, edit, and submit it in their browser. strkd does not " ++
      "file it for you, and stores no GitHub credential."))]

/-! ## Proving -/

def requireProver : Except WalletRpcError Unit :=
  if S.hasProver then .ok ()
  else .error (.notImplemented "on-device proving is not available on this service")

/-- Create a job and prove its payload in the background. -/
def enqueueProve (payload : Json) (label : Option String) (network : String) : Serve String := do
  let now ← perform .jobClock
  let jobId ← perform (.createJob label now.toNat)
  perform (.spawnProve ⟨jobId, payload, label, network⟩)
  return jobId

def handleProve (params : Json) : Serve Json := do
  requireProver S
  let network := (optParamStr params "network").getD "mainnet"
  let label := optParamStr params "label"
  let payload := (params.get? "payload").getD params
  let jobId ← enqueueProve payload label network
  return .obj [("job_id", .str jobId), ("status", .str "queued"),
    ("next", .str ("poll companion_proveStatus \x7b job_id \x7d until status is \"succeeded\" or " ++
      "\"failed\""))]

def handleProveStatus (params : Json) : Serve Json := do
  requireProver S
  let jobId ← paramStr params "job_id"
  match ← perform (.getJob jobId) with
  | some job => return job.toJson
  | none => throw (.invalidRequest ("unknown job '" ++ jobId ++ "'"))

def handleProofActivity : Serve Json := do
  requireProver S
  let feed ← perform .recentActivity
  return .obj [("activity", .arr (feed.map Activity.toJson))]

/-- The prover's name of a network. -/
def proverNetwork : ChainId → String
  | .mainnet => "mainnet"
  | .sepolia => "testnet"

/-- Sign a virtual invoke and hand it to the prover. -/
def signAndEnqueue (chain : ChainId) (account : AccountRef) (sender : Felt) (calls : List Call)
    (nonce : Felt) (bounds : FeeBounds) (params : Json) : Serve Json := do
  let p : InvokeV3Params := {
    nonce
    tip := 0
    l1Gas := bounds.l1Gas
    l2Gas := bounds.l2Gas
    l1DataGas := bounds.l1DataGas }
  let signed ← propagate (← perform (.signInvoke account calls chain p))
  let tx := invokeV3TxJson sender signed.calldata signed.signature nonce bounds [] none
  let block := match (params.get? "block_number").bind Json.asU64 with
    | some n => [("block_number", Json.int n)]
    | none => []
  let payload := Json.obj (("transaction", tx) :: block)
  let jobId ← enqueueProve payload (optParamStr params "label") (proverNetwork chain)
  return .obj [("job_id", .str jobId), ("status", .str "queued"),
    ("transaction_hash", .str (feltHex signed.transactionHash)),
    ("next", .str ("poll companion_proveStatus \x7b job_id \x7d; on success take result.proof / " ++
      "result.proof_facts / result.l2_to_l1_messages, build the verifier invoke from the " ++
      "message, and broadcast it via wallet_addInvokeTransaction \x7b proof_facts, proof, " ++
      "submit:true \x7d"))]

def handleSignAndProve (client : PairedClient) (params : Json) : Serve Json := do
  requireProver S
  let accountAddress ← paramStr params "account_address"
  let want ← normalizeAddress K accountAddress
  let calls ← parseCalls K params
  let chain ← resolveChain K params
  let account ← scopedAccount client want
  let sender ← senderOf K account
  let nonce ← resolveNonce K chain sender params
  let some bounds ← optFeeBounds params | throw (.invalidRequest
    ("companion_signAndProve requires explicit resource_bounds: the virtual tx carries private " ++
    "calldata, so it must NOT be fee-estimated online (that would send the private inputs to " ++
    "the RPC node). Set resource_bounds manually (~2× current gas prices)."))
  let decision ← gatedApproval client "companion_signAndProve"
    ("Sign + locally prove " ++ toString calls.length ++ " virtual call(s) from " ++
      account.address ++ " on " ++ chainName chain ++ " (SNIP-36; the signed tx is proven " ++
      "on-device, never broadcast). " ++ summarizeCalls calls ++ ". Max fee: " ++
      boundsSummary bounds)
  confirmed decision
  signAndEnqueue chain account sender calls nonce bounds params

/-! ## Funding, grants and wallet settings -/

def handleFundingSource : Serve Json := do
  let s ← perform .session
  let manager ← s.managerAccount K 0
  return .obj [("address", .str manager.address), ("index", .int 0)]

/-- `clamp(1, 90)` -/
def clampDays (days : ℕ) : ℕ := min (max days 1) 90

def handleRequestGrant (client : PairedClient) (params : Json) : Serve Json := do
  let days := clampDays (((params.get? "days").bind Json.asU64).getD 30)
  let decision ← askUser client.fullLabel "companion_requestGrant"
    ("Agent " ++ client.label ++ " (" ++ client.id ++ ") requests auto-approval for " ++
      toString days ++ " day(s) — its own-account operations would skip prompts (funding still " ++
      "always prompts). Approve?")
  confirmed decision
  let now ← perform (.clock .grant)
  let untilMs := now + BitVec.ofNat 64 (days * 24 * 60 * 60 * 1000)
  let _ ← perform (.grant client.id untilMs)
  return .obj [("granted", .bool true), ("expires_at", .int untilMs.toNat), ("days", .int days)]

def handleEstimateFee (client : PairedClient) (params : Json) : Serve Json := do
  let accountAddress ← paramStr params "account_address"
  let want ← normalizeAddress K accountAddress
  let calls ← parseCalls K params
  let account ← scopedAccount client want
  let sender ← senderOf K account
  let chain ← resolveChain K params
  requireNode chain
  let nonce ← match ← optNonce K params with
    | some n => pure n
    | none => mapErr nodeError (Node.getNonce K chain sender)
  let bounds ← mapErr nodeError (Node.estimateInvoke chain sender (encodeCalls calls) nonce)
  return .obj [("nonce", .str (feltHex nonce)), ("resource_bounds", boundsJson bounds)]

def handleSwitchChain (client : PairedClient) (params : Json) : Serve Json := do
  let chainId ← paramStr params "chainId"
  let some f := K.feltFromHex chainId | throw (.invalidRequest "invalid chainId")
  let some target := chainOfFelt f | throw .chainIdNotSupported
  let decision ← askUser client.fullLabel "wallet_switchStarknetChain"
    ("Switch the wallet network to " ++ chainName target)
  confirmed decision
  perform (.setChain target)
  return .bool true

def handleWatchAsset (client : PairedClient) (params : Json) : Serve Json := do
  let asset := (firstOf params ["asset", "options"]).getD params
  let some address := optParamStr asset "address" |
    throw (.invalidRequest "asset missing 'address'")
  let symbol := (optParamStr asset "symbol").getD "token"
  let decision ← askUser client.fullLabel "wallet_watchAsset"
    ("Watch token " ++ symbol ++ " at " ++ address)
  confirmed decision
  perform (.addWatchedAsset asset)
  return .bool true

def strkTokenAddress : String :=
  "0x04718f5a0fc34cc1af16a1cdee98ffb20c31f5cd61d6ab07201858f4287c938d"

def fundingSourceIndex (params : Json) : Except WalletRpcError U32 :=
  match presentParam params "funding_source_index" with
  | none => .ok 0
  | some v =>
      match v.asU64 with
      | some n =>
          if n < 2 ^ 32 then .ok (BitVec.ofNat 32 n) else invalidRequest "bad funding_source_index"
      | none => invalidRequest "bad funding_source_index"

/-- `transfer(recipient, amount_low, amount_high = 0)` on a token. -/
def transferCall (token recipient : Felt) (amount : ℕ) : Call where
  toAddr := token
  selector := getSelectorFromName K "transfer"
  calldata := [recipient, .ofNat amount, 0]

/-- Add fields to an object. -/
def insertFields (fields : List (String × Json)) : Json → Json
  | .obj old => .obj (old ++ fields)
  | v => v

/-- Refuse a manager account that is not deployed, where a node can tell. -/
def requireDeployed (chain : ChainId) (manager : AccountRef) (sender : Felt) : Serve Unit := do
  let configured ← perform (.nodeFor chain)
  if configured then
    let deployed ← mapErr nodeError (Node.isDeployed chain sender)
    if deployed = false then
      throw (.precondition ("funding source (manager) account " ++ manager.address ++
        " is not deployed on " ++ chainName chain ++ ". Deploy and fund it on " ++
        chainName chain ++ " first — it pays the transfer fee."))

def handleRequestFunding (client : PairedClient) (params : Json) : Serve Json := do
  if client.kind ≠ .agent then throw .forbidden
  let submit := paramFlag params "submit"
  let amount ← parseU128Field params "amount"
  if amount = 0 then throw (.invalidRequest "amount must be > 0")
  let tokenStr := (optParamStr params "token").getD strkTokenAddress
  let some token := K.feltFromHex tokenStr | throw (.invalidRequest "bad token address")
  let managerIndex ← fundingSourceIndex params
  let recipientAcct ← scopedAccountOr K client (optParamStr params "recipient") (.invalidRequest
    ("no account to fund (create one with companion_createAgentAccount, or pass a recipient " ++
    "you own)"))
  let recipient ← senderOf K recipientAcct
  let s ← perform .session
  let manager ← s.managerAccount K managerIndex
  let some managerSender := K.feltFromHex manager.address |
    throw (.unknown "bad manager address")
  let calls := [transferCall K token recipient amount]
  let chain ← resolveChain K params
  requireDeployed chain manager managerSender
  let (nonce, bounds) ← resolveExec K chain managerSender (encodeCalls calls) params none
  let decision ← askUser client.fullLabel "companion_requestFunding"
    ("Agent " ++ client.label ++ " (" ++ client.id ++ ") requests a top-up of " ++
      strkText amount ++ " STRK (" ++ toString amount ++ " fri) on " ++
      chainName chain ++ " from manager #" ++ toString managerIndex.toNat ++ " " ++
      manager.address ++ " → account " ++ recipientAcct.address)
  confirmed decision
  let result ← signAndSubmit K chain manager calls nonce bounds submit [] none
  return insertFields [("recipient", .str recipientAcct.address),
    ("amount", .str (toString amount)), ("token", .str tokenStr)] result

/-! ## Deployment and new accounts -/

/-- Refuse an account that is deployed already, where a node can tell. -/
def requireUndeployed (chain : ChainId) (account : AccountRef) : Serve Unit := do
  let configured ← perform (.nodeFor chain)
  if configured then
    let addr ← senderOf K account
    let deployed ← mapErr nodeError (Node.isDeployed chain addr)
    if deployed then
      throw (.precondition ("account " ++ account.address ++ " is already deployed on " ++
        chainName chain))

def deployBounds (chain : ChainId) (d : DeploymentData) (params : Json) : Serve FeeBounds := do
  match ← optFeeBounds params with
  | some b => return b
  | none => do
      requireNode chain
      mapErr nodeError (Node.estimateDeployAccount chain d.classHash d.constructorCalldata d.salt)

/-- Sign a deployment and, if `submit`, broadcast it. -/
def signAndDeploy (chain : ChainId) (account : AccountRef) (bounds : FeeBounds) (submit : Bool) :
    Serve Json := do
  let p : InvokeV3Params := {
    nonce := 0
    tip := 0
    l1Gas := bounds.l1Gas
    l2Gas := bounds.l2Gas
    l1DataGas := bounds.l1DataGas }
  let signed ← propagate (← perform (.signDeployAccount account chain p))
  if submit then
    requireNode chain
    let hash ← mapErr nodeError (Node.addDeployAccount K chain signed.classHash
      signed.constructorCalldata signed.salt signed.signature bounds)
    return .obj [("transaction_hash", .str (feltHex hash)),
      ("contract_address", .str account.address), ("submitted", .bool true)]
  else
    return .obj [("transaction_hash", .str (feltHex signed.transactionHash)),
      ("contract_address", .str account.address), ("signature", feltArr signed.signature),
      ("signed_transaction", .obj [("type", .str "DEPLOY_ACCOUNT"), ("version", .str "0x3"),
        ("class_hash", .str (feltHex signed.classHash)),
        ("contract_address_salt", .str (feltHex signed.salt)),
        ("constructor_calldata", feltArr signed.constructorCalldata), ("nonce", .str "0x0")]),
      ("submitted", .bool false)]

def handleDeployAccount (client : PairedClient) (params : Json) : Serve Json := do
  let submit := paramFlag params "submit"
  let account ← scopedAccountOr K client (optParamStr params "account")
    (.invalidRequest "no account in scope to deploy")
  let chain ← resolveChain K params
  requireUndeployed K chain account
  let s ← perform .session
  let d ← s.deploymentDataFor K account
  let bounds ← deployBounds chain d params
  let decision ← gatedApproval client "companion_deployAccount"
    ((if submit then "Deploy" else "Sign deployment of") ++ " account " ++ account.address ++
      " on " ++ chainName chain ++ ". Max fee: " ++ boundsSummary bounds)
  confirmed decision
  signAndDeploy K chain account bounds submit

/-- Re-seal the session under its passphrase. -/
def resealSession : Serve EncryptedVault := do
  let s ← perform .session
  let draws ← perform .entropy
  propagate (s.reseal K draws)

/-- Re-seal the session and write it back to the vault file. -/
def persistVault : Serve Unit := do
  let vault ← resealSession K
  mapErr (fun _ => .unknown "failed to persist vault") (saveVault vault)

/-- Persist a new account, or take it out of the registry again. -/
def persistOrRollback (account : AccountRef) : Serve Unit := do
  match ← ExceptT.lift (persistVault K).run with
  | .ok () => return ()
  | .error e => do
      perform (.rollbackAccount account.address)
      throw e

def handleCreateAgentAccount (client : PairedClient) (params : Json) : Serve Json := do
  if client.kind ≠ .agent then throw .forbidden
  let label := (optParamStr params "label").getD client.label
  let decision ← gatedApproval client "companion_createAgentAccount"
    ("Create a new agent account labelled \"" ++ label ++ "\"")
  confirmed decision
  holdingSession do
    let account ← propagate (← perform (.createAgentAccount client.id label))
    if S.hasVaultStore then persistOrRollback K account
    return accountToJson account

end Strkd.Rpc
