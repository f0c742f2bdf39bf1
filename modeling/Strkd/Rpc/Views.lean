import Strkd.Lib.Twins
import Strkd.Rpc.Outward

/-!
# What a request sees of the session

A paired client's request looks at the session through the client's scope: its lock state, its
chain, its seed and the accounts in scope.  Two sessions that agree in these are the same to every
handler but the one that creates accounts (`oblivious_serve`).
-/

namespace Strkd.Rpc

open Wallet Prover

/-! ## Views -/

/-- Two sessions that show the same to a scope. -/
structure SameView (scope : Option String) (s₁ s₂ : WalletSession) : Prop where
  chain : s₁.chain = s₂.chain
  unlocked : Option.Rel (fun u₁ u₂ => u₁.mnemonic = u₂.mnemonic ∧
    u₁.registry.scopedFor scope = u₂.registry.scopedFor scope) s₁.unlocked s₂.unlocked

/-- What a request of a paired client does besides looking at the session and creating accounts. -/
def plain : Op → Bool
  | .clock _ | .requestApproval _ | .setChain _ | .grant _ _ | .addWatchedAsset _
  | .signTypedData _ _ | .signInvoke _ _ _ _ | .signDeclare _ _ _ _ _ | .signDeployAccount _ _ _
  | .signHash _ _ | .viewingKey _ _ _ => true
  | op => outward op

/-- Like answers are equal, but that the session may differ outside the scope. -/
structure Sees (L : Likeness Op Ans) (scope : Option String) : Prop where
  plain : ∀ op, plain op = true → L.op op op ∧ ∀ a b, L.ans op a op b → a = b
  session : L.op .session .session
  view : ∀ s₁ s₂, L.ans .session s₁ .session s₂ → SameView scope s₁ s₂

theorem plain_of_outward {op : Op} (h : outward op = true) : plain op = true := by
  cases op with
  | clock use => rfl
  | _ => first | exact h | cases h

namespace SameView

variable {scope : Option String} {s₁ s₂ : WalletSession}

theorem cases_unlocked (h : SameView scope s₁ s₂) :
    s₁.unlocked = none ∧ s₂.unlocked = none ∨
      ∃ u₁ u₂, s₁.unlocked = some u₁ ∧ s₂.unlocked = some u₂ ∧ u₁.mnemonic = u₂.mnemonic ∧
        u₁.registry.scopedFor scope = u₂.registry.scopedFor scope := by
  have hu := h.unlocked
  cases h₁ : s₁.unlocked with
  | none =>
      cases h₂ : s₂.unlocked with
      | none => exact .inl ⟨rfl, rfl⟩
      | some u₂ => rw [h₁, h₂] at hu; cases hu
  | some u₁ =>
      cases h₂ : s₂.unlocked with
      | none => rw [h₁, h₂] at hu; cases hu
      | some u₂ =>
          rw [h₁, h₂] at hu
          cases hu with
          | some hu => exact .inr ⟨u₁, u₂, rfl, rfl, hu⟩

theorem isLocked (h : SameView scope s₁ s₂) : s₁.isLocked = s₂.isLocked := by
  unfold WalletSession.isLocked
  rcases h.cases_unlocked with ⟨h₁, h₂⟩ | ⟨u₁, u₂, h₁, h₂, -⟩
  · rw [h₁, h₂]
  · rw [h₁, h₂]; rfl

/-- What needs the seed only comes out the same. -/
theorem deploymentDataFor {K : Crates} (h : SameView scope s₁ s₂) (a : AccountRef) :
    s₁.deploymentDataFor K a = s₂.deploymentDataFor K a := by
  unfold WalletSession.deploymentDataFor WalletSession.requireUnlocked
  rcases h.cases_unlocked with ⟨h₁, h₂⟩ | ⟨u₁, u₂, h₁, h₂, hm, -⟩
  · rw [h₁, h₂]; rfl
  · rw [h₁, h₂, h.chain]
    exact congrArg (fun m => liftCore (deploymentData K m a.domain a.index s₂.chain a.contract)) hm

theorem managerAccount {K : Crates} (h : SameView scope s₁ s₂) (index : U32) :
    s₁.managerAccount K index = s₂.managerAccount K index := by
  unfold WalletSession.managerAccount WalletSession.requireUnlocked
  rcases h.cases_unlocked with ⟨h₁, h₂⟩ | ⟨u₁, u₂, h₁, h₂, hm, -⟩
  · rw [h₁, h₂]; rfl
  · rw [h₁, h₂, h.chain]
    show (liftCore (accountAddress K u₁.mnemonic .user index s₂.chain .openZeppelin) >>= _) =
      (liftCore (accountAddress K u₂.mnemonic .user index s₂.chain .openZeppelin) >>= _)
    rw [hm]

end SameView

/-! ## Looking at the session -/

section

variable {K : Crates} {S : Setup} {L : Likeness Op Ans} {scope : Option String} {ε α β : Type}
variable (hL : Sees L scope)
include hL

theorem oblivious_outward {m : Handler ε Op Ans α} (h : Outward m) : Oblivious L m :=
  .of_confined h fun op hop => hL.plain op (plain_of_outward hop)

theorem oblivious_reading {m : Handler ε Op Ans α} (h : Reading m) : Oblivious L m :=
  oblivious_outward hL h.outward

/-- First an operation on neither, then the rest. -/
theorem oblivious_act {op : Op} (hop : plain op = true) {f : Ans op → Handler ε Op Ans α}
    (hf : ∀ a, Oblivious L (f a)) : Oblivious L (ExceptT.lift (Prog.perform op) >>= f) :=
  .act (hL.plain op hop).1 fun a b hab => by
    rw [(hL.plain op hop).2 a b hab]
    exact hf b

/-- First a look at the session, then the rest. -/
theorem oblivious_session {f : WalletSession → Serve α}
    (hf : ∀ s₁ s₂, SameView scope s₁ s₂ → Twins L Eq (f s₁).run (f s₂).run) :
    Oblivious L (perform .session >>= f) :=
  .act hL.session fun s₁ s₂ h => hf s₁ s₂ (hL.view s₁ s₂ h)

/-- First a look at the accounts, then the rest. -/
theorem oblivious_readRegistry {f : Registry → Serve α}
    (hf : ∀ r₁ r₂, r₁.scopedFor scope = r₂.scopedFor scope → Twins L Eq (f r₁).run (f r₂).run) :
    Oblivious L (readRegistry >>= f) := by
  refine ⟨hL.session, fun s₁ s₂ h => ?_⟩
  show Twins L Eq ((liftM s₁.registry : Serve Registry) >>= f).run
    ((liftM s₂.registry : Serve Registry) >>= f).run
  unfold WalletSession.registry
  rcases (hL.view s₁ s₂ h).cases_unlocked with ⟨h₁, h₂⟩ | ⟨u₁, u₂, h₁, h₂, -, hscope⟩
  · rw [h₁, h₂]
    rfl
  · rw [h₁, h₂]
    exact hf u₁.registry u₂.registry hscope

theorem oblivious_scopedAccount {client : PairedClient} (hscope : client.scope = scope)
    (want : String) : Oblivious L (scopedAccount client want) := by
  refine oblivious_readRegistry hL fun r₁ r₂ h => ?_
  rw [hscope, h]
  cases (r₂.scopedFor scope).find? fun a => a.address = want <;> rfl

theorem oblivious_scopedAccountOr {client : PairedClient} (hscope : client.scope = scope)
    (param : Option String) (missing : WalletRpcError) :
    Oblivious L (scopedAccountOr K client param missing) := by
  refine oblivious_readRegistry hL fun r₁ r₂ h => ?_
  rw [hscope, h]
  cases param with
  | none =>
      refine Oblivious.bind (.pure _) fun found => ?_
      cases found with
      | some a => exact .pure _
      | none => exact .throw _
  | some text =>
      refine Oblivious.bind (.lift _) fun _ => Oblivious.bind (.pure _) fun found => ?_
      cases found with
      | some a => exact .pure _
      | none => exact .throw _

theorem oblivious_resolveChain (params : Json) : Oblivious L (resolveChain K params) := by
  unfold resolveChain
  split
  · exact oblivious_session hL fun s₁ s₂ h => congrArg _ h.chain
  · exact oblivious_session hL fun s₁ s₂ h => congrArg _ h.chain
  · split
    · exact .throw _
    · split
      · exact .pure _
      · exact .throw _
  · exact .throw _

/-! ## Methods -/

theorem oblivious_gatedApproval (client : PairedClient) (method summary : String) :
    Oblivious L (gatedApproval client method summary) := by
  refine oblivious_act hL rfl fun now => ?_
  split
  · exact .pure _
  · exact oblivious_act hL rfl fun _ => .pure _

theorem oblivious_handleRequestChainId : Oblivious L handleRequestChainId :=
  oblivious_session hL fun s₁ s₂ h => by rw [h.chain]; rfl

theorem oblivious_handleAccounts {client : PairedClient} (hscope : client.scope = scope)
    (detailed : Bool) : Oblivious L (handleAccounts client detailed) :=
  oblivious_readRegistry hL fun r₁ r₂ h => by rw [hscope, h]; rfl

theorem oblivious_handleDeploymentData {client : PairedClient} (hscope : client.scope = scope) :
    Oblivious L (handleDeploymentData K client) := by
  refine oblivious_readRegistry hL fun r₁ r₂ h => ?_
  rw [hscope, h]
  cases (r₂.scopedFor scope).head? with
  | none => exact rfl
  | some account =>
      refine oblivious_session hL fun s₁ s₂ hs => ?_
      rw [hs.deploymentDataFor]
      exact Oblivious.bind (.lift _) fun _ => .pure _

theorem oblivious_handleFundingSource : Oblivious L (handleFundingSource K) := by
  refine oblivious_session hL fun s₁ s₂ hs => ?_
  rw [hs.managerAccount]
  exact Oblivious.bind (.lift _) fun _ => .pure _

theorem oblivious_handleSignTypedData {client : PairedClient} (hscope : client.scope = scope)
    (params : Json) : Oblivious L (handleSignTypedData K client params) :=
  .bind (.lift _) fun _ => .bind (.lift _) fun _ => .bind (.lift _) fun _ =>
    .bind (oblivious_scopedAccount hL hscope _) fun _ => .bind (oblivious_gatedApproval hL ..) fun _ =>
    .bind (.lift _) fun _ => oblivious_act hL rfl fun _ => .bind rfl fun _ => .pure _

theorem oblivious_signAndSubmit (chain : ChainId) (account : AccountRef) (calls : List Call)
    (nonce : Felt) (bounds : FeeBounds) (submit : Bool) (proofFacts : List Felt)
    (proof : Option String) :
    Oblivious L (signAndSubmit K chain account calls nonce bounds submit proofFacts proof) := by
  refine oblivious_act hL rfl fun _ => .bind rfl fun signed => .bind (.lift _) fun sender => ?_
  split
  · exact .bind (oblivious_reading hL (reading_requireNode chain)) fun _ =>
      .bind (.mapErr (oblivious_outward hL (outward_addInvoke ..))) fun _ => .pure _
  · exact .pure _

theorem oblivious_handleAddInvoke {client : PairedClient} (hscope : client.scope = scope)
    (params : Json) : Oblivious L (handleAddInvoke K client params) := by
  refine .bind (.lift _) fun _ => .bind (.lift _) fun _ => .bind (.lift _) fun calls =>
    .bind (.lift _) fun proofFacts => .bind (.lift _) fun proof => .exit (.throw _) fun _ => ?_
  exact .bind (oblivious_scopedAccount hL hscope _) fun account => .bind (.lift _) fun sender =>
    .bind (oblivious_resolveChain hL _) fun chain =>
    .bind (oblivious_reading hL (reading_resolveExec ..)) fun exec =>
    .bind (oblivious_gatedApproval hL ..) fun _ => .bind (.lift _) fun _ =>
    oblivious_signAndSubmit hL ..

theorem oblivious_handleAddDeclare {client : PairedClient} (hscope : client.scope = scope)
    (params : Json) : Oblivious L (handleAddDeclare K client params) := by
  refine .bind (.lift _) fun _ => .bind (.lift _) fun _ =>
    .bind (oblivious_scopedAccount hL hscope _) fun account => .bind (.lift _) fun sender =>
    .bind (.lift _) fun contractClass => .bind (.lift _) fun given => .bind (.lift _) fun classHash =>
    .bind (.lift _) fun compiled => .bind (oblivious_resolveChain hL _) fun chain =>
    .bind (oblivious_reading hL (reading_resolveNonce ..)) fun nonce =>
    .bind (oblivious_reading hL (reading_declareBounds ..)) fun bounds =>
    .bind (oblivious_gatedApproval hL ..) fun _ => .bind (.lift _) fun _ => ?_
  refine oblivious_act hL rfl fun _ => .bind rfl fun signed => ?_
  split
  · refine .bind (oblivious_reading hL (reading_requireNode chain)) fun _ => ?_
    split
    · exact .throw _
    · exact .bind (.mapErr (oblivious_outward hL (outward_addDeclare ..))) fun _ => .pure _
  · exact .pure _

theorem oblivious_askUser (label method summary : String) :
    Oblivious L (askUser label method summary) := oblivious_act hL rfl fun _ => .pure _

theorem oblivious_handleRequestGrant (client : PairedClient) (params : Json) :
    Oblivious L (handleRequestGrant client params) :=
  .bind (oblivious_askUser hL ..) fun _ => .bind (.lift _) fun _ => oblivious_act hL rfl fun _ =>
    oblivious_act hL rfl fun _ => .pure _

theorem oblivious_handleSwitchChain (client : PairedClient) (params : Json) :
    Oblivious L (handleSwitchChain K client params) := by
  refine .bind (.lift _) fun text => ?_
  split
  · split
    · exact .bind (oblivious_askUser hL ..) fun _ => .bind (.lift _) fun _ =>
        oblivious_act hL rfl fun _ => .pure _
    · exact .throw _
  · exact .throw _

theorem oblivious_handleWatchAsset (client : PairedClient) (params : Json) :
    Oblivious L (handleWatchAsset client params) := by
  unfold handleWatchAsset
  dsimp only
  split
  · exact .bind (oblivious_askUser hL ..) fun _ => .bind (.lift _) fun _ =>
      oblivious_act hL rfl fun _ => .pure _
  · exact .throw _

theorem oblivious_handleEstimateFee {client : PairedClient} (hscope : client.scope = scope)
    (params : Json) : Oblivious L (handleEstimateFee K client params) := by
  refine .bind (.lift _) fun _ => .bind (.lift _) fun _ => .bind (.lift _) fun calls =>
    .bind (oblivious_scopedAccount hL hscope _) fun account => .bind (.lift _) fun sender =>
    .bind (oblivious_resolveChain hL _) fun chain =>
    .bind (oblivious_reading hL (reading_requireNode chain)) fun _ => .bind (.lift _) fun given => ?_
  have hrest : ∀ nonce, Oblivious L (do
      let bounds ← mapErr nodeError (Node.estimateInvoke chain sender (encodeCalls calls) nonce)
      return Json.obj [("nonce", .str (feltHex nonce)), ("resource_bounds", boundsJson bounds)] :
        Serve Json) :=
    fun nonce => .bind (.mapErr (oblivious_reading hL (reading_estimate ..))) fun _ => .pure _
  split
  · exact .bind (.pure _) hrest
  · exact .bind (.mapErr (oblivious_reading hL (reading_getNonce ..))) hrest

theorem oblivious_handleRequestFunding {client : PairedClient} (hscope : client.scope = scope)
    (params : Json) : Oblivious L (handleRequestFunding K client params) := by
  refine .exit (.throw _) fun _ => .bind (.lift _) fun amount => ?_
  refine .exit (.throw _) fun _ => ?_
  dsimp only
  split
  · refine .bind (.lift _) fun index => .bind (oblivious_scopedAccountOr hL hscope ..) fun recipient =>
      .bind (.lift _) fun sender => oblivious_session hL fun s₁ s₂ hs => ?_
    rw [hs.managerAccount]
    refine Oblivious.bind (.lift _) fun manager => ?_
    split
    · exact .bind (oblivious_resolveChain hL _) fun chain =>
        .bind (oblivious_reading hL (reading_requireDeployed ..)) fun _ =>
        .bind (oblivious_reading hL (reading_resolveExec ..)) fun exec =>
        .bind (oblivious_askUser hL ..) fun _ => .bind (.lift _) fun _ =>
        .bind (oblivious_signAndSubmit hL ..) fun _ => .pure _
    · exact .throw _
  · exact .throw _

theorem oblivious_handleDeployAccount {client : PairedClient} (hscope : client.scope = scope)
    (params : Json) : Oblivious L (handleDeployAccount K client params) := by
  refine .bind (oblivious_scopedAccountOr hL hscope ..) fun account =>
    .bind (oblivious_resolveChain hL _) fun chain =>
    .bind (oblivious_reading hL (reading_requireUndeployed ..)) fun _ =>
    oblivious_session hL fun s₁ s₂ hs => ?_
  rw [hs.deploymentDataFor]
  refine Oblivious.bind (.lift _) fun d => .bind (oblivious_reading hL (reading_deployBounds ..))
    fun bounds => .bind (oblivious_gatedApproval hL ..) fun _ => .bind (.lift _) fun _ => ?_
  refine oblivious_act hL rfl fun _ => .bind rfl fun signed => ?_
  split
  · exact .bind (oblivious_reading hL (reading_requireNode chain)) fun _ =>
      .bind (.mapErr (oblivious_outward hL (outward_addDeployAccount ..))) fun _ => .pure _
  · exact .pure _

theorem oblivious_handleSignAndProve {client : PairedClient} (hscope : client.scope = scope)
    (params : Json) : Oblivious L (handleSignAndProve K S client params) := by
  refine .bind (.lift _) fun _ => .bind (.lift _) fun _ => .bind (.lift _) fun _ =>
    .bind (.lift _) fun calls => .bind (oblivious_resolveChain hL _) fun chain =>
    .bind (oblivious_scopedAccount hL hscope _) fun account => .bind (.lift _) fun sender =>
    .bind (oblivious_reading hL (reading_resolveNonce ..)) fun nonce => .bind (.lift _) fun given => ?_
  split
  · exact .bind (oblivious_gatedApproval hL ..) fun _ => .bind (.lift _) fun _ =>
      oblivious_act hL rfl fun _ => .bind rfl fun signed =>
      .bind (oblivious_outward hL (outward_enqueueProve ..)) fun _ => .pure _
  · exact .throw _

/-! ## The private batches -/

section Batches

open Rpc.Strk20

theorem oblivious_approve {caller : Rpc.Strk20.Caller} (method summary : String) :
    Oblivious L (caller.approve method summary) := by
  cases caller with
  | rpc client => exact .bind (oblivious_gatedApproval hL ..) fun _ => .lift _
  | desktop => exact .pure _

theorem oblivious_callerAccount {caller : Rpc.Strk20.Caller} (hscope : caller.scope = scope)
    (params : Json) : Oblivious L (callerAccount K caller params) := by
  refine oblivious_readRegistry hL fun r₁ r₂ h => ?_
  dsimp only
  rw [hscope, h]
  cases optParamStr params "account_address" with
  | none =>
      refine Oblivious.bind (.pure _) fun found => ?_
      cases found with
      | some a => exact .pure _
      | none => exact .throw _
  | some text =>
      refine Oblivious.bind (.lift _) fun _ => Oblivious.bind (.pure _) fun found => ?_
      cases found with
      | some a => exact .pure _
      | none => exact .throw _

theorem oblivious_ctx {caller : Rpc.Strk20.Caller} (hscope : caller.scope = scope) (params : Json) :
    Oblivious L (ctx K S caller params) := by
  refine .bind (oblivious_resolveChain hL _) fun chain =>
    .bind (oblivious_callerAccount hL hscope _) fun account => .bind (.lift _) fun user =>
    .bind (oblivious_reading hL (reading_requireNode chain)) fun _ => ?_
  dsimp only
  split
  · exact oblivious_act hL rfl fun _ => .bind (.lift _) fun _ => .pure _
  · exact .bind (.pure _) fun _ => .bind (.lift _) fun _ => .pure _

theorem oblivious_prepare {caller : Rpc.Strk20.Caller} (method : String) (c : Ctx)
    (intent : Strkd.Strk20.Intent) (proving : Proving) (submission : String) :
    Oblivious L (prepare K S caller method c intent proving submission) := by
  refine .bind (.lift _) fun _ => .bind (oblivious_reading hL (reading_blockNumber c)) fun head =>
    .bind (oblivious_act hL rfl fun _ => rfl) fun userSk =>
    .bind (oblivious_reading hL (reading_freshPlan ..)) fun plan =>
    .bind (oblivious_approve hL ..) fun _ => .bind (oblivious_reading hL (reading_poolNonce ..))
    fun nonce => oblivious_act hL rfl fun _ => .bind rfl fun signature =>
    .bind (oblivious_outward hL (outward_proveInvocation ..)) fun result => ?_
  split
  · exact .throw _
  · split
    · exact .throw _
    · exact .pure _

theorem oblivious_submitFromAccount (c : Ctx) (prepared : Prepared)
    (deposits : List (Felt × U128)) :
    Oblivious L (submitFromAccount K c prepared deposits) :=
  .bind (oblivious_reading hL (reading_requireFreshAttestation _)) fun _ =>
    .bind (oblivious_reading hL (reading_poolFee ..)) fun _ =>
    .bind (.mapErr (oblivious_reading hL (reading_getNonce ..))) fun _ =>
    .bind (.mapErr (oblivious_reading hL (reading_estimate ..))) fun _ =>
    oblivious_act hL rfl fun _ => .bind rfl fun _ =>
    .mapErr (oblivious_outward hL (outward_addInvoke ..))

theorem oblivious_balances {caller : Rpc.Strk20.Caller} (hscope : caller.scope = scope)
    (params : Json) : Oblivious L (balances K S caller params) := by
  refine .bind (.lift _) fun tokens => .bind (oblivious_ctx hL hscope _) fun c =>
    .bind (oblivious_approve hL ..) fun _ => .bind (oblivious_act hL rfl fun _ => rfl) fun userSk =>
    .bind (.mapErr (oblivious_reading hL (confined_registeredKey K (reading_reader ..) _)))
    fun key => .exit (.throw _) fun _ => ?_
  exact .bind (.mapErr (oblivious_reading hL (confined_discoverNotes K (reading_reader ..) ..)))
    fun _ => .pure _

theorem oblivious_register {caller : Rpc.Strk20.Caller} (hscope : caller.scope = scope)
    (params : Json) : Oblivious L (register K S caller params) := by
  refine .bind (oblivious_ctx hL hscope _) fun c =>
    .bind (.mapErr (oblivious_reading hL (confined_registeredKey K (reading_reader ..) _)))
    fun key => .exit (.throw _) fun _ => ?_
  exact .bind (oblivious_prepare hL ..) fun _ => .bind (oblivious_submitFromAccount hL ..) fun _ =>
    .pure _

theorem oblivious_prepareInvoke {caller : Rpc.Strk20.Caller} (hscope : caller.scope = scope)
    (params : Json) : Oblivious L (prepareInvoke K S caller params) :=
  .bind (.lift _) fun _ => .bind (oblivious_ctx hL hscope _) fun _ => .bind (.lift _) fun _ =>
    .bind (oblivious_prepare hL ..) fun _ => .pure _

theorem oblivious_invokeDeposit {caller : Rpc.Strk20.Caller} (c : Ctx)
    (actions : List Rpc.Strk20.Action) (intent : Strkd.Strk20.Intent) :
    Oblivious L (invokeDeposit K S caller c actions intent) := by
  unfold invokeDeposit
  refine .exit (.throw _) fun _ => ?_
  exact .bind (.lift _) fun _ => .bind (oblivious_reading hL (reading_checkPublicFunds ..)) fun _ =>
    .bind (oblivious_prepare hL ..) fun _ => .bind (oblivious_submitFromAccount hL ..) fun _ =>
    .pure _

theorem oblivious_invokeRelayed {caller : Rpc.Strk20.Caller} (c : Ctx)
    (intent : Strkd.Strk20.Intent) : Oblivious L (invokeRelayed K S caller c intent) := by
  unfold invokeRelayed
  refine .exit (.throw _) fun _ => ?_
  exact .bind (.mapErr (oblivious_reading hL (reading_quote ..))) fun _ =>
    .bind (.mapErr (oblivious_prepare hL ..)) fun _ =>
    .bind (.mapErr (oblivious_reading hL (reading_execute ..))) fun _ => .pure _

theorem oblivious_invokeTransaction {caller : Rpc.Strk20.Caller} (hscope : caller.scope = scope)
    (params : Json) : Oblivious L (invokeTransaction K S caller params) := by
  refine .bind (.lift _) fun actions => .bind (oblivious_ctx hL hscope _) fun c => ?_
  split
  · exact oblivious_invokeDeposit hL ..
  · exact oblivious_invokeRelayed hL ..

end Batches

/-! ## Every method -/

/-- The methods that look past the caller's accounts: a new account's index counts those of
every agent. -/
def Method.countsAgents : Method → Bool
  | .createAgentAccount => true
  | _ => false

/-- A paired client's request sees its scope only. -/
theorem oblivious_serve {client : PairedClient} (hscope : client.scope = scope) (req : Request)
    {method : Option Method} (hm : method.any Method.countsAgents = false) :
    Oblivious L (serve K S client req method) := by
  have hcaller : (Rpc.Strk20.Caller.rpc client).scope = scope := hscope
  cases method with
  | none => exact .throw _
  | some m =>
      cases m with
      | createAgentAccount => cases hm
      | requestChainId => exact oblivious_handleRequestChainId hL
      | requestAccounts => exact oblivious_handleAccounts hL hscope _
      | listAccounts => exact oblivious_handleAccounts hL hscope _
      | deploymentData => exact oblivious_handleDeploymentData hL hscope
      | signTypedData => exact oblivious_handleSignTypedData hL hscope _
      | addInvokeTransaction => exact oblivious_handleAddInvoke hL hscope _
      | addDeclareTransaction => exact oblivious_handleAddDeclare hL hscope _
      | switchStarknetChain => exact oblivious_handleSwitchChain hL ..
      | watchAsset => exact oblivious_handleWatchAsset hL ..
      | fundingSource => exact oblivious_handleFundingSource hL
      | reportIssue => exact rfl
      | typedDataHash => exact rfl
      | estimateFee => exact oblivious_handleEstimateFee hL hscope _
      | requestGrant => exact oblivious_handleRequestGrant hL ..
      | requestFunding => exact oblivious_handleRequestFunding hL hscope _
      | deployAccount => exact oblivious_handleDeployAccount hL hscope _
      | prove => exact oblivious_outward hL (outward_handleProve ..)
      | proveStatus => exact oblivious_reading hL (reading_handleProveStatus ..)
      | proofActivity => exact oblivious_reading hL (reading_handleProofActivity ..)
      | signAndProve => exact oblivious_handleSignAndProve hL hscope _
      | strk20Balances => exact oblivious_balances hL hcaller _
      | strk20PrepareInvoke => exact oblivious_prepareInvoke hL hcaller _
      | strk20InvokeTransaction => exact oblivious_invokeTransaction hL hcaller _
      | strk20Register => exact oblivious_register hL hcaller _
      | _ => exact .throw _

end

end Strkd.Rpc
