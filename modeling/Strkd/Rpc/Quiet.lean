import Strkd.Rpc.Outward

/-!
# Quiet computations

The operations that ask nobody, derive no key and change nothing anybody has authority over, and
the computations of the service that perform no others: everything it asks of the nodes, the relay,
the provers and its own job store.
-/

namespace Strkd.Rpc

open Wallet Prover

def quiet : Op → Bool
  | .clock (.gate _ _) => false
  | .clock _ | .seconds | .instant | .elapsed | .jobClock | .proveElapsed | .entropy | .osRandomness
  | .halt | .verify _ | .findId _ _ | .session | .touchActivity | .lastActivity | .readSettings | .strk20Config _
  | .createJob _ _ | .setJobStatus _ _ | .succeedJob _ _ | .failJob _ _ | .getJob _
  | .recentActivity | .spawnProve _ | .saveProof _ | .record _ | .nodeFor _ | .nodeRpc _ _ _
  | .prove _ _ _ | .remoteProve _ _ _ _ | .paymasterRpc _ _ _ _ => true
  | _ => false

/-- A computation that performs quiet operations only. -/
abbrev Quiet {ε α : Type} (m : Handler ε Op Ans α) : Prop := Confined (fun op => quiet op = true) m

/-! ## Quiet computations -/

theorem quiet_act {ε : Type} {op : Op} (h : quiet op = true) :
    Quiet (ExceptT.lift (Prog.perform op) : Handler ε Op Ans (Ans op)) :=
  confined_perform h

theorem quiet_of_outward {op : Op} (h : outward op = true) : quiet op = true := by
  cases op with
  | clock use => cases use <;> first | rfl | cases h
  | _ => first | rfl | cases h

theorem Outward.quiet {ε α : Type} {m : Handler ε Op Ans α} (h : Outward m) : Quiet m :=
  Only.mono h fun _ => quiet_of_outward

theorem Reading.quiet {ε α : Type} {m : Handler ε Op Ans α} (h : Reading m) : Quiet m :=
  h.outward.quiet

theorem quiet_propagate {ε α : Type} (r : Except ε α) : Quiet (propagate r) := trivial

variable (K : Crates) (S : Setup)

/-! ## The node and the relay -/

theorem quiet_call (chain : ChainId) (method : String) (params : Json) :
    Quiet (Node.call chain method params) :=
  (outward_call ..).quiet

theorem quiet_getNonce (chain : ChainId) (address : Felt) : Quiet (Node.getNonce K chain address) :=
  (reading_getNonce ..).quiet

theorem quiet_estimate (chain : ChainId) (tx : Json) : Quiet (Node.estimate chain tx) :=
  (reading_estimate ..).quiet

theorem quiet_addInvoke (chain : ChainId) (sender : Felt) (calldata signature : List Felt)
    (nonce : Felt) (bounds : FeeBounds) (proofFacts : List Felt) (proof : Option String) :
    Quiet (Node.addInvoke K chain sender calldata signature nonce bounds proofFacts proof) :=
  (outward_addInvoke ..).quiet

theorem quiet_addDeployAccount (chain : ChainId) (classHash : Felt)
    (constructorCalldata : List Felt) (salt : Felt) (signature : List Felt) (bounds : FeeBounds) :
    Quiet (Node.addDeployAccount K chain classHash constructorCalldata salt signature bounds) :=
  (outward_addDeployAccount ..).quiet

theorem quiet_addDeclare (chain : ChainId) (sender compiledClassHash : Felt) (contractClass : Json)
    (signature : List Felt) (nonce : Felt) (bounds : FeeBounds) :
    Quiet (Node.addDeclare K chain sender compiledClassHash contractClass signature nonce bounds) :=
  (outward_addDeclare ..).quiet

theorem quiet_isDeployed (chain : ChainId) (address : Felt) :
    Quiet (Node.isDeployed chain address) :=
  (reading_isDeployed ..).quiet

theorem quiet_quote (p : Paymaster) (pool user : Felt) : Quiet (Paymaster.quote K p pool user) :=
  (reading_quote ..).quiet

theorem quiet_execute (p : Paymaster) (c : Call) (proof : String) (proofFacts : List Felt) :
    Quiet (Paymaster.execute K p c proof proofFacts) :=
  (reading_execute ..).quiet

/-! ## Accounts, chains, nonces and fees -/

theorem quiet_readRegistry : Quiet readRegistry := confined_readRegistry rfl

theorem quiet_scopedAccountOr (client : PairedClient) (param : Option String)
    (missing : WalletRpcError) : Quiet (scopedAccountOr K client param missing) :=
  confined_scopedAccountOr K (by rfl) client param missing

theorem quiet_resolveChain (params : Json) : Quiet (resolveChain K params) :=
  confined_resolveChain K (by rfl) params

theorem quiet_requireNode (chain : ChainId) : Quiet (requireNode chain) :=
  (reading_requireNode ..).quiet

theorem quiet_resolveNonce (chain : ChainId) (sender : Felt) (params : Json) :
    Quiet (resolveNonce K chain sender params) :=
  (reading_resolveNonce ..).quiet

theorem quiet_resolveExec (chain : ChainId) (sender : Felt) (calldata : List Felt) (params : Json)
    (proofCarrying : Option (List Felt × Option String)) :
    Quiet (resolveExec K chain sender calldata params proofCarrying) :=
  (reading_resolveExec ..).quiet

theorem quiet_declareBounds (chain : ChainId) (sender compiledClassHash : Felt)
    (classJson : Option Json) (nonce : Felt) (params : Json) :
    Quiet (declareBounds chain sender compiledClassHash classJson nonce params) :=
  (reading_declareBounds ..).quiet

theorem quiet_requireDeployed (chain : ChainId) (manager : AccountRef) (sender : Felt) :
    Quiet (requireDeployed chain manager sender) :=
  (reading_requireDeployed ..).quiet

theorem quiet_requireUndeployed (chain : ChainId) (account : AccountRef) :
    Quiet (requireUndeployed K chain account) :=
  (reading_requireUndeployed ..).quiet

theorem quiet_deployBounds (chain : ChainId) (d : DeploymentData) (params : Json) :
    Quiet (deployBounds chain d params) :=
  (reading_deployBounds ..).quiet

theorem quiet_ownedAccounts (id : String) : Quiet (ownedAccounts id) := by
  refine .bind (quiet_act rfl) fun s => ?_
  split
  · exact .pure _
  · exact .pure _

/-! ## Proving -/

theorem quiet_enqueueProve (payload : Json) (label : Option String) (network : String) :
    Quiet (enqueueProve payload label network) :=
  (outward_enqueueProve ..).quiet

/-! ## Methods that need no approval -/

theorem quiet_handleRequestChainId : Quiet handleRequestChainId :=
  .bind (quiet_act rfl) fun _ => .pure _

theorem quiet_handleAccounts (client : PairedClient) (detailed : Bool) :
    Quiet (handleAccounts client detailed) :=
  .bind quiet_readRegistry fun _ => .pure _

theorem quiet_handleDeploymentData (client : PairedClient) :
    Quiet (handleDeploymentData K client) := by
  refine .bind quiet_readRegistry fun reg => ?_
  split
  · exact .bind (quiet_act rfl) fun _ => .bind (.lift _) fun _ => .pure _
  · exact .throw _

theorem quiet_handleFundingSource : Quiet (handleFundingSource K) :=
  .bind (quiet_act rfl) fun _ => .bind (.lift _) fun _ => .pure _

theorem quiet_scopedAccount (client : PairedClient) (want : String) :
    Quiet (scopedAccount client want) := confined_scopedAccount (by rfl) client want

theorem quiet_handleEstimateFee (client : PairedClient) (params : Json) :
    Quiet (handleEstimateFee K client params) := by
  refine .bind (.lift _) fun accountAddress => .bind (.lift _) fun want => .bind (.lift _) fun calls =>
    .bind (quiet_scopedAccount ..) fun account => .bind (.lift _) fun sender =>
    .bind (quiet_resolveChain ..) fun chain => .bind (quiet_requireNode _) fun _ =>
    .bind (.lift _) fun given => ?_
  have hrest : ∀ nonce, Quiet (do
      let bounds ← mapErr nodeError (Node.estimateInvoke chain sender (encodeCalls calls) nonce)
      return Json.obj [("nonce", .str (feltHex nonce)), ("resource_bounds", boundsJson bounds)] :
        Serve Json) :=
    fun nonce => .bind (.mapErr (quiet_estimate ..)) fun _ => .pure _
  split
  · exact .bind (.pure _) hrest
  · exact .bind (.mapErr (quiet_getNonce ..)) hrest

theorem quiet_handleProve (params : Json) : Quiet (handleProve S params) :=
  (outward_handleProve ..).quiet

theorem quiet_handleProveStatus (params : Json) : Quiet (handleProveStatus S params) :=
  (reading_handleProveStatus ..).quiet

theorem quiet_handleProofActivity : Quiet (handleProofActivity S) :=
  (reading_handleProofActivity ..).quiet

/-! ## The private batches -/

section Batches

open Strkd.Strk20 (Intent State Channels ProvedInvocation Plan)
open Rpc.Strk20

theorem quiet_reader (c : Ctx) (block : Json) :
    ConfinedReader (fun op => quiet op = true) (c.reader K block) where
  call _ _ := .bind (.mapErr (quiet_call ..)) fun _ => .lift _
  stuck _ := .bind (quiet_act rfl) fun crashed => nomatch crashed

theorem quiet_blockNumber (c : Ctx) : Quiet (blockNumber c) :=
  (reading_blockNumber ..).quiet

theorem quiet_proveInvocation (c : Ctx) (method : String) (proving : Proving) (userSk : Felt)
    (block : ℕ) (tx : Json) : Quiet (proveInvocation c method proving userSk block tx) :=
  (outward_proveInvocation ..).quiet

theorem quiet_poolNonce (c : Ctx) (block : ℕ) : Quiet (poolNonce K c block) :=
  (reading_poolNonce ..).quiet

theorem quiet_freshPlan (c : Ctx) (userSk : Felt) (block : ℕ) (intent : Intent) :
    Quiet (freshPlan K S c userSk block intent) :=
  (reading_freshPlan ..).quiet

theorem quiet_poolFee (c : Ctx) : Quiet (poolFee K c) :=
  (reading_poolFee ..).quiet

theorem quiet_checkPublicFunds (c : Ctx) (deposits : List (Felt × U128)) :
    Quiet (checkPublicFunds K c deposits) :=
  (reading_checkPublicFunds ..).quiet

theorem quiet_requireFreshAttestation (p : ProvedInvocation) :
    Quiet (requireFreshAttestation p) :=
  (reading_requireFreshAttestation ..).quiet

end Batches

end Strkd.Rpc
