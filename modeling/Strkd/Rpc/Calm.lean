import Strkd.Rpc.Unsent

/-!
# Calm computations

All methods of the service but one leave the session lock, the open session and the vault files
alone, also where they hand a transaction on.
-/

namespace Strkd.Rpc

open Wallet Prover

/-- A computation that leaves the session lock, the open session and the vault files alone. -/
abbrev Calming {ε α : Type} (m : Handler ε Op Ans α) : Prop := Confined (fun op => calm op = true) m

theorem Idling.calm {ε α : Type} {m : Handler ε Op Ans α} (h : Idling m) : Calming m :=
  Only.mono h fun _ hop => (Bool.and_eq_true_iff.1 hop).1

theorem Outward.calm {ε α : Type} {m : Handler ε Op Ans α} (h : Outward m) : Calming m :=
  Only.mono h fun _ hop => calm_of_outward hop

theorem Reading.calm {ε α : Type} {m : Handler ε Op Ans α} (h : Reading m) : Calming m :=
  Idling.calm (Reading.idle h)

theorem calm_act {ε : Type} {op : Op} (h : calm op = true) :
    Calming (ExceptT.lift (Prog.perform op) : Handler ε Op Ans (Ans op)) := confined_perform h

theorem calm_propagate {ε α : Type} (r : Except ε α) : Calming (propagate r) := trivial

variable (K : Crates) (S : Setup)

/-! ## Transactions -/

theorem calm_signAndSubmit (chain : ChainId) (account : AccountRef) (calls : List Call)
    (nonce : Felt) (bounds : FeeBounds) (submit : Bool) (proofFacts : List Felt)
    (proof : Option String) :
    Calming (signAndSubmit K chain account calls nonce bounds submit proofFacts proof) := by
  refine .bind (calm_act rfl) fun answer => .bind (calm_propagate _) fun signed =>
    .bind (.lift _) fun sender => ?_
  split
  · exact .bind (reading_requireNode chain).calm fun _ =>
      .bind (.mapErr (outward_addInvoke ..).calm) fun _ => .pure _
  · exact .pure _

theorem calm_handleAddInvoke (client : PairedClient) (params : Json) :
    Calming (handleAddInvoke K client params) := by
  refine .bind (.lift _) fun _ => .bind (.lift _) fun want => .bind (.lift _) fun calls =>
    .bind (.lift _) fun proofFacts => .bind (.lift _) fun proof => .exit (.throw _) fun _ => ?_
  exact .bind (idle_scopedAccount ..).calm fun account => .bind (.lift _) fun sender =>
    .bind (idle_resolveChain ..).calm fun chain => .bind (reading_resolveExec ..).calm fun exec =>
    .bind (idle_gatedApproval ..).calm fun _ => .bind (.lift _) fun _ => calm_signAndSubmit ..

theorem calm_handleRequestFunding (client : PairedClient) (params : Json) :
    Calming (handleRequestFunding K client params) := by
  unfold handleRequestFunding
  refine .exit (.throw _) fun _ => ?_
  dsimp only
  refine .bind (.lift _) fun amount => .exit (.throw _) fun _ => ?_
  split
  · refine .bind (.lift _) fun managerIndex => .bind (idle_scopedAccountOr ..).calm
      fun recipient => .bind (.lift _) fun toAddr => .bind (calm_act rfl) fun s =>
      .bind (.lift _) fun manager => ?_
    split
    · exact .bind (idle_resolveChain ..).calm fun chain =>
        .bind (reading_requireDeployed ..).calm fun _ => .bind (reading_resolveExec ..).calm
        fun exec => .bind (calm_act rfl) fun _ => .bind (.lift _) fun _ =>
        .bind (calm_signAndSubmit ..) fun _ => .pure _
    · exact .throw _
  · exact .throw _

theorem calm_signAndEnqueue (chain : ChainId) (account : AccountRef) (sender : Felt)
    (calls : List Call) (nonce : Felt) (bounds : FeeBounds) (params : Json) :
    Calming (signAndEnqueue chain account sender calls nonce bounds params) :=
  .bind (calm_act rfl) fun _ => .bind (calm_propagate _) fun _ =>
    .bind (outward_enqueueProve ..).calm fun _ => .pure _

theorem calm_handleSignAndProve (client : PairedClient) (params : Json) :
    Calming (handleSignAndProve K S client params) := by
  refine .bind (.lift _) fun _ => .bind (.lift _) fun _ => .bind (.lift _) fun want =>
    .bind (.lift _) fun calls => .bind (idle_resolveChain ..).calm fun chain =>
    .bind (idle_scopedAccount ..).calm fun account => .bind (.lift _) fun sender =>
    .bind (reading_resolveNonce ..).calm fun nonce => .bind (.lift _) fun bounds => ?_
  cases bounds with
  | none => exact .throw _
  | some bounds =>
      exact .bind (idle_gatedApproval ..).calm fun _ => .bind (.lift _) fun _ =>
        calm_signAndEnqueue ..

theorem calm_signAndDeclare (chain : ChainId) (account : AccountRef)
    (sender classHash compiledClassHash : Felt) (classJson : Option Json) (nonce : Felt)
    (bounds : FeeBounds) (submit : Bool) : Calming (signAndDeclare K chain account sender classHash
      compiledClassHash classJson nonce bounds submit) := by
  refine .bind (calm_act rfl) fun _ => .bind (calm_propagate _) fun signed => ?_
  split
  · refine .bind (reading_requireNode chain).calm fun _ => ?_
    cases classJson with
    | none => exact .throw _
    | some cc => exact .bind (.mapErr (outward_addDeclare ..).calm) fun _ => .pure _
  · exact .pure _

theorem calm_handleAddDeclare (client : PairedClient) (params : Json) :
    Calming (handleAddDeclare K client params) :=
  .bind (.lift _) fun _ => .bind (.lift _) fun _ => .bind (idle_scopedAccount ..).calm
    fun _ => .bind (.lift _) fun _ => .bind (.lift _) fun _ =>
    .bind (.lift _) fun _ => .bind (.lift _) fun _ => .bind (.lift _) fun _ =>
    .bind (idle_resolveChain ..).calm fun _ => .bind (reading_resolveNonce ..).calm
    fun _ => .bind (reading_declareBounds ..).calm fun _ =>
    .bind (idle_gatedApproval ..).calm fun _ => .bind (.lift _) fun _ => calm_signAndDeclare ..

theorem calm_signAndDeploy (chain : ChainId) (account : AccountRef) (bounds : FeeBounds)
    (submit : Bool) : Calming (signAndDeploy K chain account bounds submit) := by
  refine .bind (calm_act rfl) fun _ => .bind (calm_propagate _) fun signed => ?_
  split
  · exact .bind (reading_requireNode chain).calm fun _ =>
      .bind (.mapErr (outward_addDeployAccount ..).calm) fun _ => .pure _
  · exact .pure _

theorem calm_handleDeployAccount (client : PairedClient) (params : Json) :
    Calming (handleDeployAccount K client params) :=
  .bind (idle_scopedAccountOr ..).calm fun _ => .bind (idle_resolveChain ..).calm fun _ =>
    .bind (reading_requireUndeployed ..).calm fun _ => .bind (calm_act rfl) fun _ =>
    .bind (.lift _) fun _ => .bind (reading_deployBounds ..).calm fun _ =>
    .bind (idle_gatedApproval ..).calm fun _ => .bind (.lift _) fun _ => calm_signAndDeploy ..

/-! ## The private batches -/

section Batches

open Rpc.Strk20

theorem calm_ctx (caller : Caller) (params : Json) : Calming (ctx K S caller params) := by
  refine .bind (idle_resolveChain ..).calm fun chain => .bind (idle_callerAccount ..).calm
    fun account => .bind (.lift _) fun user => .bind (reading_requireNode chain).calm fun _ => ?_
  have hpool : ∀ cfg : Strk20Config, Calming (do
      let pool ← poolFor K cfg chain
      return { account, user, chain, pool, cfg } : Serve Ctx) :=
    fun _ => .bind (.lift _) fun _ => .pure _
  split
  · exact .bind (calm_act rfl) hpool
  · exact .bind (.pure _) hpool

theorem calm_signAndProveBatch (c : Ctx) (method : String) (proving : Proving) (userSk : Felt)
    (block : ℕ) (plan : Strkd.Strk20.Plan) :
    Calming (signAndProveBatch K c method proving userSk block plan) := by
  refine .bind (reading_poolNonce ..).calm fun nonce => .bind (calm_act rfl) fun _ =>
    .bind (calm_propagate _) fun _ => .bind (outward_proveInvocation ..).calm fun result => ?_
  split
  · exact .throw _
  · split
    · exact .throw _
    · exact .pure _

theorem calm_prepare (caller : Caller) (method : String) (c : Ctx) (intent : Strkd.Strk20.Intent)
    (proving : Proving) (submission : String) :
    Calming (prepare K S caller method c intent proving submission) :=
  .bind (.lift _) fun _ => .bind (reading_blockNumber c).calm fun _ =>
    .bind (idle_viewingKey c).calm fun _ => .bind (reading_freshPlan ..).calm fun _ =>
    .bind (idle_approve ..).calm fun _ => calm_signAndProveBatch ..

theorem calm_submitFromAccount (c : Ctx) (prepared : Prepared) (deposits : List (Felt × U128)) :
    Calming (submitFromAccount K c prepared deposits) :=
  .bind (reading_requireFreshAttestation _).calm fun _ => .bind (reading_poolFee ..).calm fun _ =>
    .bind (.mapErr (reading_getNonce ..).calm) fun _ =>
    .bind (.mapErr (reading_estimate ..).calm) fun _ => .bind (calm_act rfl) fun _ =>
    .bind (calm_propagate _) fun _ => .mapErr (outward_addInvoke ..).calm

theorem calm_balances (caller : Caller) (params : Json) : Calming (balances K S caller params) := by
  refine .bind (.lift _) fun tokens => .bind (calm_ctx ..) fun c => .bind (idle_approve ..).calm
    fun _ => .bind (idle_viewingKey c).calm fun userSk => .bind (.mapErr (Reading.calm
    (confined_registeredKey K (reading_reader ..) _))) fun key => .exit (.throw _) fun _ => ?_
  exact .bind (.mapErr (Reading.calm (confined_discoverNotes K (reading_reader ..) ..)))
    fun _ => .pure _

theorem calm_register (caller : Caller) (params : Json) : Calming (register K S caller params) := by
  refine .bind (calm_ctx ..) fun c => .bind (.mapErr (Reading.calm
    (confined_registeredKey K (reading_reader ..) _))) fun key => .exit (.throw _) fun _ => ?_
  exact .bind (calm_prepare ..) fun _ => .bind (calm_submitFromAccount ..) fun _ => .pure _

theorem calm_prepareInvoke (caller : Caller) (params : Json) :
    Calming (prepareInvoke K S caller params) :=
  .bind (.lift _) fun _ => .bind (calm_ctx ..) fun _ => .bind (.lift _) fun _ =>
    .bind (calm_prepare ..) fun _ => .pure _

theorem calm_invokeDeposit (caller : Caller) (c : Ctx) (actions : List Action)
    (intent : Strkd.Strk20.Intent) : Calming (invokeDeposit K S caller c actions intent) := by
  unfold invokeDeposit
  refine .exit (.throw _) fun _ => ?_
  exact .bind (.lift _) fun proving => .bind (reading_checkPublicFunds ..).calm fun _ =>
    .bind (calm_prepare ..) fun _ => .bind (calm_submitFromAccount ..) fun _ => .pure _

theorem calm_invokeRelayed (caller : Caller) (c : Ctx) (intent : Strkd.Strk20.Intent) :
    Calming (invokeRelayed K S caller c intent) := by
  unfold invokeRelayed
  refine .exit (.throw _) fun _ => ?_
  exact .bind (.mapErr (reading_quote ..).calm) fun fee => .bind (.mapErr (calm_prepare ..))
    fun _ => .bind (.mapErr (reading_execute ..).calm) fun _ => .pure _

theorem calm_invokeTransaction (caller : Caller) (params : Json) :
    Calming (invokeTransaction K S caller params) := by
  refine .bind (.lift _) fun actions => .bind (calm_ctx ..) fun c => ?_
  split
  · exact calm_invokeDeposit ..
  · exact calm_invokeRelayed ..

end Batches

/-! ## All methods but one -/

theorem calm_serve (client : PairedClient) (req : Request) {m : Option Method}
    (hm : m ≠ some .createAgentAccount) : Calming (serve K S client req m) := by
  cases m with
  | none => exact .throw _
  | some m =>
      cases m with
      | requestChainId => exact idle_handleRequestChainId.calm
      | requestAccounts => exact (idle_handleAccounts ..).calm
      | listAccounts => exact (idle_handleAccounts ..).calm
      | deploymentData => exact (idle_handleDeploymentData ..).calm
      | signTypedData => exact (idle_handleSignTypedData ..).calm
      | addInvokeTransaction => exact calm_handleAddInvoke ..
      | addDeclareTransaction => exact calm_handleAddDeclare ..
      | createAgentAccount => exact absurd rfl hm
      | switchStarknetChain => exact (idle_handleSwitchChain ..).calm
      | watchAsset => exact (idle_handleWatchAsset ..).calm
      | fundingSource => exact (idle_handleFundingSource _).calm
      | reportIssue => exact calm_propagate _
      | typedDataHash => exact calm_propagate _
      | estimateFee => exact (idle_handleEstimateFee ..).calm
      | requestGrant => exact (idle_handleRequestGrant ..).calm
      | requestFunding => exact calm_handleRequestFunding ..
      | deployAccount => exact calm_handleDeployAccount ..
      | prove => exact (outward_handleProve ..).calm
      | proveStatus => exact (idle_handleProveStatus ..).calm
      | proofActivity => exact (idle_handleProofActivity _).calm
      | signAndProve => exact calm_handleSignAndProve ..
      | strk20Balances => exact calm_balances ..
      | strk20PrepareInvoke => exact calm_prepareInvoke ..
      | strk20InvokeTransaction => exact calm_invokeTransaction ..
      | strk20Register => exact calm_register ..
      | _ => exact .throw _

end Strkd.Rpc
