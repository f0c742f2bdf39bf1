import Strkd.Rpc.Quiet

/-!
# Mute computations

The computations that ask for no approval and never end with a refusal by the user.  Only
`confirmed` reports one, so every parser, every look at the wallet, the nodes, the relay and the
provers, and every signature is mute.
-/

namespace Strkd.Rpc

open Wallet Prover

/-- Whether an operation asks for an approval, or reads the clock to see whether a grant gives it. -/
def asks : Op → Bool
  | .requestApproval _ | .clock (.gate _ _) => true
  | _ => false

theorem asks_of_quiet {op : Op} (h : quiet op = true) : asks op = false := by
  cases op with
  | clock use => cases use <;> first | rfl | cases h
  | _ => first | rfl | cases h

/-! ## Results that are no refusal -/

/-- A result that is not a refusal by the user. -/
def NoRefusal {α : Type} (r : Except WalletRpcError α) : Prop := r ≠ .error .userRefused

namespace NoRefusal

variable {α β : Type}

@[simp] theorem ok (a : α) : NoRefusal (.ok a : Except WalletRpcError α) := by simp [NoRefusal]

@[simp] theorem pure (a : α) : NoRefusal (Pure.pure a : Except WalletRpcError α) := ok a

@[simp] theorem error_iff {e : WalletRpcError} :
    NoRefusal (.error e : Except WalletRpcError α) ↔ e ≠ .userRefused := by simp [NoRefusal]

@[simp] theorem throw_iff {e : WalletRpcError} :
    NoRefusal (throw e : Except WalletRpcError α) ↔ e ≠ .userRefused := error_iff

@[simp] theorem invalidRequest (m : String) :
    NoRefusal (invalidRequest m : Except WalletRpcError α) := by
  unfold Rpc.invalidRequest
  simp

theorem bind {r : Except WalletRpcError α} {f : α → Except WalletRpcError β} (h : NoRefusal r)
    (hf : ∀ a, NoRefusal (f a)) : NoRefusal (r >>= f) := by
  cases r with
  | ok a => exact hf a
  | error e => exact error_iff.2 (error_iff.1 h)

theorem map {r : Except WalletRpcError α} (f : α → β) (h : NoRefusal r) :
    NoRefusal (r.map f) := by
  cases r with
  | ok a => exact ok (f a)
  | error e => exact error_iff.2 (error_iff.1 h)

/-- `if c then return Err(e); rest` -/
theorem refuse {c : Prop} [Decidable c] {leave : Except WalletRpcError Unit}
    {f : Unit → Except WalletRpcError β} (h : NoRefusal leave) (hf : ∀ u, NoRefusal (f u)) :
    NoRefusal (if c then leave >>= f else f ()) := by
  by_cases hc : c
  · rw [if_pos hc]
    exact h.bind hf
  · rw [if_neg hc]
    exact hf ()

theorem mapM {f : α → Except WalletRpcError β} (hf : ∀ a, NoRefusal (f a)) (l : List α) :
    NoRefusal (l.mapM f) := by
  induction l with
  | nil => exact pure []
  | cons a rest ih =>
      rw [List.mapM_cons]
      exact (hf a).bind fun b => ih.bind fun bs => pure (b :: bs)

/-- The errors of the wallet core are no refusals. -/
theorem ofCore (e : CoreError) : WalletRpcError.ofCore e ≠ .userRefused := by
  unfold WalletRpcError.ofCore
  split <;> simp

theorem liftCore (r : Except CoreError α) : NoRefusal (liftCore r) := by
  cases r with
  | ok a => exact ok a
  | error e => exact error_iff.2 (ofCore e)

end NoRefusal

/-! ## Parameters -/

section Params

variable (K : Crates)

theorem noRefusal_paramStr (params : Json) (key : String) : NoRefusal (paramStr params key) := by
  unfold paramStr
  split <;> simp

theorem noRefusal_normalizeAddress (s : String) : NoRefusal (normalizeAddress K s) := by
  unfold normalizeAddress
  split <;> simp

theorem noRefusal_feltFrom (v : Json) (what : String) : NoRefusal (feltFrom K v what) := by
  unfold feltFrom
  split
  · simp
  · split <;> simp

theorem noRefusal_typedDataJson (params : Json) : NoRefusal (typedDataJson params) := by
  unfold typedDataJson
  split <;> simp

theorem noRefusal_boundField (v : Json) (field : String) : NoRefusal (boundField v field) := by
  unfold boundField
  split
  · dsimp only
    split
    · simp
    · simp
  · split <;> simp
  · simp
  · simp

theorem noRefusal_boundsOf (rb : Json) (key : String) : NoRefusal (boundsOf rb key) := by
  unfold boundsOf
  split
  · exact (noRefusal_boundField _ _).bind fun _ => (noRefusal_boundField _ _).bind fun _ => .pure _
  · simp

theorem noRefusal_optFeeBounds (params : Json) : NoRefusal (optFeeBounds params) := by
  unfold optFeeBounds
  split
  · simp
  · exact (noRefusal_boundsOf _ _).bind fun _ => (noRefusal_boundsOf _ _).bind fun _ =>
      (noRefusal_boundsOf _ _).bind fun _ => .pure _

theorem noRefusal_parseCalldata (c : Json) : NoRefusal (parseCalldata K c) := by
  unfold parseCalldata
  split
  · exact NoRefusal.mapM (fun v => noRefusal_feltFrom K v _) _
  · simp
  · simp
  · simp

theorem noRefusal_parseSelector (c : Json) : NoRefusal (parseSelector K c) := by
  unfold parseSelector
  split
  · simp
  · split <;> simp

theorem noRefusal_parseCalls (params : Json) : NoRefusal (parseCalls K params) := by
  have hcall : ∀ c, NoRefusal (parseCall K c) := by
    intro c
    unfold parseCall
    split
    · simp
    · exact (noRefusal_feltFrom K _ _).bind fun _ => (noRefusal_parseSelector K c).bind fun _ =>
        (noRefusal_parseCalldata K c).bind fun _ => .pure _
  unfold parseCalls
  split
  · simp
  · simp
  · exact NoRefusal.mapM hcall _

theorem noRefusal_optNonce (params : Json) : NoRefusal (optNonce K params) := by
  unfold optNonce
  split
  · simp
  · exact (noRefusal_feltFrom K _ _).bind fun _ => .pure _

theorem noRefusal_parseProofFacts (params : Json) : NoRefusal (parseProofFacts K params) := by
  unfold parseProofFacts
  split
  · exact NoRefusal.mapM (fun v => noRefusal_feltFrom K v _) _
  · simp
  · simp
  · simp

theorem noRefusal_parseProof (params : Json) : NoRefusal (parseProof params) := by
  unfold parseProof
  split
  · refine NoRefusal.bind ?_ fun _ => .pure _
    unfold normalizeProofB64
    dsimp only
    split_ifs <;> simp
  · simp

theorem noRefusal_parseU128Field (params : Json) (key : String) :
    NoRefusal (parseU128Field params key) := by
  unfold parseU128Field
  split
  · unfold parseU128Str
    dsimp only
    split
    · simp
    · simp
  · split <;> simp
  · simp
  · simp

theorem noRefusal_fundingSourceIndex (params : Json) : NoRefusal (fundingSourceIndex params) := by
  unfold fundingSourceIndex
  split
  · simp
  · split
    · split_ifs <;> simp
    · simp

theorem noRefusal_parseContractClass (params : Json) : NoRefusal (parseContractClass K params) := by
  unfold parseContractClass
  split
  · exact (NoRefusal.liftCore _).bind fun _ => .pure _
  · simp

theorem noRefusal_parseClassHash (params : Json) : NoRefusal (parseClassHash K params) := by
  unfold parseClassHash
  split
  · exact (noRefusal_feltFrom K _ _).bind fun _ => .pure _
  · simp

theorem noRefusal_parseCompiledClassHash (params : Json) :
    NoRefusal (parseCompiledClassHash K params) := by
  unfold parseCompiledClassHash
  split
  · exact noRefusal_feltFrom K _ _
  · simp

theorem noRefusal_declaredClassHash (contractClass : Option SierraClass) (given : Option Felt) :
    NoRefusal (declaredClassHash K contractClass given) := by
  unfold declaredClassHash
  split
  · dsimp only
    split_ifs <;> simp
  · simp
  · simp
  · simp

theorem noRefusal_requireProver (S : Setup) : NoRefusal (requireProver S) := by
  unfold requireProver
  split_ifs <;> simp

end Params

/-! ## The session -/

section Session

variable (K : Crates) (s : WalletSession) (a : AccountRef)

theorem noRefusal_senderOf : NoRefusal (senderOf K a) := by
  unfold senderOf WalletSession.storedAddress
  split <;> simp

theorem noRefusal_registry : NoRefusal s.registry := by
  unfold WalletSession.registry
  split <;> simp

theorem noRefusal_requireUnlocked : NoRefusal s.requireUnlocked := by
  unfold WalletSession.requireUnlocked
  split <;> simp

/-- What is done with the seed of an unlocked session: it is locked, or the wallet core answers. -/
theorem noRefusal_unlocked {α : Type} {f : Unlocked → Except WalletRpcError α}
    (hf : ∀ u, NoRefusal (f u)) : NoRefusal (s.requireUnlocked >>= f) := (noRefusal_requireUnlocked s).bind hf

theorem noRefusal_reseal (draws : SealDraws) : NoRefusal (s.reseal K draws) :=
  noRefusal_unlocked s fun _ => .liftCore _

theorem noRefusal_deploymentDataFor : NoRefusal (s.deploymentDataFor K a) :=
  noRefusal_unlocked s fun _ => .liftCore _

theorem noRefusal_managerAccount (index : U32) : NoRefusal (s.managerAccount K index) :=
  noRefusal_unlocked s fun _ => (NoRefusal.liftCore _).bind fun _ => .pure _

theorem noRefusal_signTypedDataFor (document : String) :
    NoRefusal (s.signTypedDataFor K a document) :=
  noRefusal_unlocked s fun _ => (noRefusal_senderOf K a).bind fun _ => .liftCore _

theorem noRefusal_signInvokeFor (calls : List Call) (chain : ChainId) (p : InvokeV3Params) :
    NoRefusal (s.signInvokeFor K a calls chain p) :=
  noRefusal_unlocked s fun _ => (noRefusal_senderOf K a).bind fun _ => .liftCore _

theorem noRefusal_signDeclareFor (classHash compiled : Felt) (chain : ChainId)
    (p : InvokeV3Params) : NoRefusal (s.signDeclareFor K a classHash compiled chain p) :=
  noRefusal_unlocked s fun _ => (noRefusal_senderOf K a).bind fun _ => .liftCore _

theorem noRefusal_signDeployAccountFor (chain : ChainId) (p : InvokeV3Params) :
    NoRefusal (s.signDeployAccountFor K a chain p) := noRefusal_unlocked s fun _ => .liftCore _

theorem noRefusal_signHashFor (hash : Felt) : NoRefusal (s.signHashFor K a hash) :=
  noRefusal_unlocked s fun _ => (NoRefusal.liftCore _).bind fun _ => .pure _

theorem noRefusal_viewingKeyFor (chain : ChainId) (pool : Felt) :
    NoRefusal (s.strk20ViewingKeyFor K a chain pool) := noRefusal_unlocked s fun _ => .liftCore _

theorem noRefusal_createAgentAccount (clientId label : String) :
    NoRefusal (s.createAgentAccount K clientId label) := by
  refine NoRefusal.bind (noRefusal_unlocked s fun u => ?_) fun _ => .pure _
  exact (NoRefusal.liftCore _).bind fun _ => .pure _

end Session

/-! ## Private batches -/

section Batches

open Rpc.Strk20

variable (K : Crates)

theorem noRefusal_invalid {α : Type} (m : String) :
    NoRefusal (Rpc.Strk20.invalid m : Except WalletRpcError α) := by
  unfold Rpc.Strk20.invalid
  simp

theorem noRefusal_poolFor (cfg : Strk20Config) (chain : ChainId) :
    NoRefusal (poolFor K cfg chain) := by
  unfold poolFor
  dsimp only
  split_ifs
  · simp
  · split
    · simp
    · exact noRefusal_invalid _

theorem noRefusal_fieldFelt (a : Json) (key : String) : NoRefusal (fieldFelt K a key) := by
  unfold fieldFelt
  split
  · simp
  · exact noRefusal_invalid _

theorem noRefusal_fieldAmount (a : Json) : NoRefusal (fieldAmount K a) := by
  refine NoRefusal.refuse (by simp) fun _ => (noRefusal_fieldFelt K a _).bind fun f => ?_
  refine NoRefusal.refuse (noRefusal_invalid _) fun _ => ?_
  exact NoRefusal.refuse (noRefusal_invalid _) fun _ => .pure _

theorem noRefusal_parseAction (a : Json) : NoRefusal (parseAction K a) := by
  unfold parseAction
  split
  · exact (noRefusal_fieldFelt K a _).bind fun _ => (noRefusal_fieldAmount K a).bind fun _ =>
      .pure _
  · exact (noRefusal_fieldFelt K a _).bind fun _ => (noRefusal_fieldAmount K a).bind fun _ =>
      (noRefusal_fieldFelt K a _).bind fun _ => .pure _
  · exact (noRefusal_fieldFelt K a _).bind fun _ => (noRefusal_fieldAmount K a).bind fun _ =>
      (noRefusal_fieldFelt K a _).bind fun _ => .pure _
  · split_ifs
    · simp
    · exact noRefusal_invalid _
  · exact noRefusal_invalid _

theorem noRefusal_parseActions (params : Json) : NoRefusal (parseActions K params) := by
  unfold parseActions
  split
  · exact noRefusal_invalid _
  · split_ifs
    · exact noRefusal_invalid _
    · exact NoRefusal.mapM (noRefusal_parseAction K) _

theorem noRefusal_parseTokens (params : Json) : NoRefusal (parseTokens K params) := by
  unfold parseTokens
  split
  · exact noRefusal_invalid _
  · refine (NoRefusal.mapM (fun t => ?_) _).bind fun tokens => ?_
    · split
      · simp
      · exact noRefusal_invalid _
    · exact NoRefusal.refuse (noRefusal_invalid _) fun _ => .pure _

theorem noRefusal_provingFor (c : Ctx) (actions : List Action) :
    NoRefusal (provingFor c actions) := by
  unfold provingFor
  split_ifs
  · refine NoRefusal.bind ?_ fun _ => .pure _
    unfold Rpc.Strk20.DepositProver.resolve
    split_ifs
    · simp
    · split <;> simp
    · split <;> simp
  · simp

theorem mapStrk20_ne (e : Strkd.Strk20.Error) : mapStrk20 e ≠ .userRefused := by
  intro h
  cases e <;> cases h

theorem submitErr_ne (e : NodeError) : submitErr e ≠ .userRefused := by
  unfold submitErr
  split
  · simp
  · simp
  · split_ifs <;> simp
  · simp

theorem nodeError_ne (e : NodeError) : nodeError e ≠ .userRefused := by simp [nodeError]

theorem withRelayFee_ne (fee : Paymaster.FeeAction) (e : WalletRpcError) :
    withRelayFee fee e = .userRefused ↔ e = .userRefused := by
  unfold withRelayFee
  split <;> simp

end Batches

/-! ## Mute computations -/

/-- The signer answers with errors of its own: it never reports a refusal by the user. -/
def candid : (op : Op) → Ans op → Prop
  | .signTypedData _ _, a => NoRefusal a
  | .signInvoke _ _ _ _, a => NoRefusal a
  | .signDeclare _ _ _ _ _, a => NoRefusal a
  | .signDeployAccount _ _ _, a => NoRefusal a
  | .signHash _ _, a => NoRefusal a
  | .viewingKey _ _ _, a => NoRefusal a
  | .createAgentAccount _ _, a => NoRefusal a
  | _, _ => True

/-- The program asks for no approval and does not end with a refusal by the user. -/
def MuteProg {α : Type} : Prog Op Ans (Except WalletRpcError α) → Prop
  | .pure r => NoRefusal r
  | .step op next => asks op = false ∧ ∀ a, candid op a → MuteProg (next a)

def Mute {α : Type} (m : Serve α) : Prop := MuteProg m.run

namespace Mute

variable {α β : Type}

theorem pure (a : α) : Mute (Pure.pure a : Serve α) := NoRefusal.ok a

theorem throw {e : WalletRpcError} (h : e ≠ .userRefused) : Mute (throw e : Serve α) :=
  NoRefusal.error_iff.2 h

theorem bindProg {p : Prog Op Ans (Except WalletRpcError α)}
    {f : Except WalletRpcError α → Prog Op Ans (Except WalletRpcError β)} (h : MuteProg p)
    (hf : ∀ r, NoRefusal r → MuteProg (f r)) : MuteProg (p.bind f) := by
  induction p with
  | pure r => exact hf r h
  | step op next ih => exact ⟨h.1, fun a ha => ih a (h.2 a ha)⟩

theorem bind {m : Serve α} {f : α → Serve β} (h : Mute m) (hf : ∀ a, Mute (f a)) :
    Mute (m >>= f) := by
  refine bindProg (p := m.run) h fun r hr => ?_
  cases r with
  | ok a => exact hf a
  | error e => exact NoRefusal.error_iff.2 (NoRefusal.error_iff.1 hr)

theorem propagate {r : Except WalletRpcError α} (h : NoRefusal r) : Mute (propagate r) := h

theorem lift {r : Except WalletRpcError α} (h : NoRefusal r) : Mute (liftM r : Serve α) := by
  cases r with
  | ok a => exact pure a
  | error e => exact throw (NoRefusal.error_iff.1 h)

theorem act {op : Op} {f : Ans op → Serve β} (h : asks op = false)
    (hf : ∀ a, candid op a → Mute (f a)) : Mute (ExceptT.lift (Prog.perform op) >>= f) :=
  ⟨h, hf⟩

/-- A quiet operation, whatever the answer. -/
theorem one {op : Op} (h : asks op = false) : Mute (perform op) :=
  ⟨h, fun a _ => NoRefusal.ok a⟩

/-- A branch that leaves early, then the rest. -/
theorem refuse {c : Prop} [Decidable c] {e : WalletRpcError} {f : Unit → Serve β}
    (h : e ≠ .userRefused) (hf : ∀ u, Mute (f u)) :
    Mute (if c then MonadExcept.throw e >>= f else f ()) := by
  by_cases hc : c
  · rw [if_pos hc]
    exact (throw h).bind hf
  · rw [if_neg hc]
    exact hf ()

/-- A program that asks for nothing, then the rest. -/
theorem of_only {γ : Type} {p : Prog Op Ans γ} {f : γ → Prog Op Ans (Except WalletRpcError β)}
    (h : Only (fun op => asks op = false) p) (hf : ∀ c, MuteProg (f c)) : MuteProg (p.bind f) := by
  induction p with
  | pure c => exact hf c
  | step op next ih => exact ⟨h.1, fun a _ => ih a (h.2 a)⟩

/-- A computation that asks for nothing, its errors translated. -/
theorem translated {ε : Type} {f : ε → WalletRpcError} {m : Handler ε Op Ans α}
    (h : Confined (fun op => asks op = false) m) (hf : ∀ e, f e ≠ .userRefused) :
    Mute (Strkd.mapErr f m) := by
  refine of_only (p := m.run) h fun r => ?_
  cases r with
  | ok a => exact NoRefusal.ok a
  | error e => exact NoRefusal.error_iff.2 (hf e)

/-- A quiet computation, its errors translated. -/
theorem mapErr {ε : Type} {f : ε → WalletRpcError} {m : Handler ε Op Ans α} (h : Quiet m)
    (hf : ∀ e, f e ≠ .userRefused) : Mute (Strkd.mapErr f m) :=
  translated (Only.mono h fun _ => asks_of_quiet) hf

end Mute

/-! ## Looking things up -/

section Lookups

variable (K : Crates)

theorem mute_readRegistry : Mute readRegistry :=
  .bind (.one rfl) fun s => .lift (noRefusal_registry s)

theorem mute_found {found : Option AccountRef} {missing : WalletRpcError}
    (h : missing ≠ .userRefused) : Mute (match found with
      | some a => return a
      | none => throw missing : Serve AccountRef) := by
  cases found with
  | some a => exact .pure a
  | none => exact .throw h

theorem mute_scopedAccount (client : PairedClient) (want : String) :
    Mute (scopedAccount client want) :=
  .bind mute_readRegistry fun _ => mute_found (by simp)

theorem mute_scopedAccountOr (client : PairedClient) (param : Option String)
    {missing : WalletRpcError} (h : missing ≠ .userRefused) :
    Mute (scopedAccountOr K client param missing) := by
  refine .bind mute_readRegistry fun reg => ?_
  split
  · exact .bind (.lift (noRefusal_normalizeAddress K _)) fun _ => mute_found h
  · exact mute_found h

theorem mute_resolveChain (params : Json) : Mute (resolveChain K params) := by
  unfold resolveChain
  split
  · exact .bind (.one rfl) fun _ => .pure _
  · exact .bind (.one rfl) fun _ => .pure _
  · split
    · exact .throw (by simp)
    · split
      · exact .pure _
      · exact .throw (by simp)
  · exact .throw (by simp)

theorem mute_requireNode (chain : ChainId) : Mute (requireNode chain) := by
  refine .bind (.one rfl) fun configured => ?_
  by_cases h : configured = false
  · simp only [h, if_true]
    exact .throw (by simp)
  · simp only [h]
    exact .pure _

theorem mute_resolveNonce (chain : ChainId) (sender : Felt) (params : Json) :
    Mute (resolveNonce K chain sender params) := by
  refine .bind (.lift (noRefusal_optNonce K params)) fun nonce => ?_
  split
  · exact .pure _
  · exact .bind (mute_requireNode _) fun _ => .mapErr (quiet_getNonce ..) nodeError_ne

theorem mute_resolveExec (chain : ChainId) (sender : Felt) (calldata : List Felt) (params : Json)
    (proofCarrying : Option (List Felt × Option String)) :
    Mute (resolveExec K chain sender calldata params proofCarrying) := by
  refine .bind (mute_resolveNonce ..) fun nonce =>
    .bind (.lift (noRefusal_optFeeBounds params)) fun bounds => ?_
  split
  · exact .pure _
  · split
    · exact .bind (mute_requireNode _) fun _ =>
        .bind (.mapErr (quiet_estimate ..) nodeError_ne) fun _ => .pure _
    · exact .throw (by simp)
    · exact .bind (mute_requireNode _) fun _ =>
        .bind (.mapErr (quiet_estimate ..) nodeError_ne) fun _ => .pure _

theorem mute_declareBounds (chain : ChainId) (sender compiledClassHash : Felt)
    (classJson : Option Json) (nonce : Felt) (params : Json) :
    Mute (declareBounds chain sender compiledClassHash classJson nonce params) := by
  refine .bind (.lift (noRefusal_optFeeBounds params)) fun bounds => ?_
  split
  · exact .pure _
  · refine .bind (mute_requireNode _) fun _ => ?_
    split
    · exact .mapErr (quiet_estimate ..) nodeError_ne
    · exact .throw (by simp)

theorem mute_requireDeployed (chain : ChainId) (manager : AccountRef) (sender : Felt) :
    Mute (requireDeployed chain manager sender) := by
  refine .bind (.one rfl) fun configured => ?_
  split
  · refine .bind (.mapErr (quiet_isDeployed ..) nodeError_ne) fun deployed => ?_
    split
    · exact .throw (by simp)
    · exact .pure _
  · exact .pure _

theorem mute_requireUndeployed (chain : ChainId) (account : AccountRef) :
    Mute (requireUndeployed K chain account) := by
  refine .bind (.one rfl) fun configured => ?_
  split
  · refine .bind (.lift (noRefusal_senderOf K account)) fun addr =>
      .bind (.mapErr (quiet_isDeployed ..) nodeError_ne) fun deployed => ?_
    split
    · exact .throw (by simp)
    · exact .pure _
  · exact .pure _

theorem mute_deployBounds (chain : ChainId) (d : DeploymentData) (params : Json) :
    Mute (deployBounds chain d params) := by
  refine .bind (.lift (noRefusal_optFeeBounds params)) fun bounds => ?_
  split
  · exact .pure _
  · exact .bind (mute_requireNode _) fun _ => .mapErr (quiet_estimate ..) nodeError_ne

theorem mute_enqueueProve (payload : Json) (label : Option String) (network : String) :
    Mute (enqueueProve payload label network) :=
  .bind (.one rfl) fun _ => .bind (.one rfl) fun _ => .bind (.one rfl) fun _ => .pure _

end Lookups

/-! ## After the approval -/

section Signing

variable (K : Crates)

theorem mute_signAndSubmit (chain : ChainId) (account : AccountRef) (calls : List Call)
    (nonce : Felt) (bounds : FeeBounds) (submit : Bool) (proofFacts : List Felt)
    (proof : Option String) :
    Mute (signAndSubmit K chain account calls nonce bounds submit proofFacts proof) := by
  refine .act rfl fun answer ha => .bind (.propagate ha) fun signed =>
    .bind (.lift (noRefusal_senderOf K account)) fun sender => ?_
  split
  · exact .bind (mute_requireNode _) fun _ =>
      .bind (.mapErr (quiet_addInvoke ..) nodeError_ne) fun _ => .pure _
  · exact .pure _

theorem mute_signAndDeclare (chain : ChainId) (account : AccountRef)
    (sender classHash compiledClassHash : Felt) (classJson : Option Json) (nonce : Felt)
    (bounds : FeeBounds) (submit : Bool) :
    Mute (signAndDeclare K chain account sender classHash compiledClassHash classJson nonce bounds
      submit) := by
  refine .act rfl fun answer ha => .bind (.propagate ha) fun signed => ?_
  split
  · refine .bind (mute_requireNode _) fun _ => ?_
    split
    · exact .throw (by simp)
    · exact .bind (.mapErr (quiet_addDeclare ..) nodeError_ne) fun _ => .pure _
  · exact .pure _

theorem mute_signAndEnqueue (chain : ChainId) (account : AccountRef) (sender : Felt)
    (calls : List Call) (nonce : Felt) (bounds : FeeBounds) (params : Json) :
    Mute (signAndEnqueue chain account sender calls nonce bounds params) :=
  .act rfl fun _ ha => .bind (.propagate ha) fun _ => .bind (mute_enqueueProve ..) fun _ => .pure _

theorem mute_signAndDeploy (chain : ChainId) (account : AccountRef) (bounds : FeeBounds)
    (submit : Bool) : Mute (signAndDeploy K chain account bounds submit) := by
  refine .act rfl fun answer ha => .bind (.propagate ha) fun signed => ?_
  split
  · exact .bind (mute_requireNode _) fun _ =>
      .bind (.mapErr (quiet_addDeployAccount ..) nodeError_ne) fun _ => .pure _
  · exact .pure _

/-- First a computation whose failure is caught, then the rest with its result. -/
theorem mute_attempt {α β : Type} {m : Serve α} {f : Except WalletRpcError α → Serve β}
    (h : Mute m) (hf : ∀ r, NoRefusal r → Mute (f r)) : Mute (ExceptT.lift m.run >>= f) := by
  show MuteProg ((m.run.bind fun r => .pure (Except.ok r)).bind (ExceptT.bindCont f))
  rw [Prog.bind_assoc']
  exact Mute.bindProg h hf

theorem mute_holdingSession {α : Type} {body : Serve α} (h : Mute body) :
    Mute (holdingSession body) :=
  .act rfl fun _ _ => mute_attempt h fun _ hr => .act rfl fun _ _ => .propagate hr

theorem silent_saveVault {vault : EncryptedVault} :
    Confined (fun op => asks op = false) (saveVault vault) := by
  refine ⟨rfl, fun written => ?_⟩
  cases written with
  | error e => trivial
  | ok u =>
      refine ⟨rfl, fun renamed => ?_⟩
      cases renamed with
      | error e => trivial
      | ok v => trivial

theorem mute_persistOrRollback (account : AccountRef) : Mute (persistOrRollback K account) := by
  have hpersist : Mute (persistVault K) := by
    refine .bind (.bind (.one rfl) fun s => .bind (.one rfl) fun draws =>
      .propagate (noRefusal_reseal K s draws)) fun vault => ?_
    exact .translated silent_saveVault fun _ => by simp
  refine mute_attempt hpersist fun r hr => ?_
  cases r with
  | ok u => exact .pure _
  | error e => exact .bind (.one rfl) fun _ => .throw (NoRefusal.error_iff.1 hr)

theorem mute_create (S : Setup) (clientId label : String) :
    Mute (holdingSession do
      let account ← propagate (← perform (.createAgentAccount clientId label))
      if S.hasVaultStore then persistOrRollback K account
      return accountToJson account) := by
  refine mute_holdingSession (.act rfl fun answer ha => .bind (.propagate ha) fun account => ?_)
  dsimp only
  split
  · exact .bind (mute_persistOrRollback K account) fun _ => .pure _
  · exact .pure _

end Signing

/-! ## STRK20 -/

section Strk20

open Strkd.Strk20 (Intent State Channels ProvedInvocation Plan)
open Rpc.Strk20

variable (K : Crates) (S : Setup)

theorem mute_fromPool {α : Type} {m : ExceptT Strkd.Strk20.Error (Prog Op Ans) α} (h : Quiet m) :
    Mute (fromPool m) := .mapErr h mapStrk20_ne

theorem mute_callerAccount (caller : Rpc.Strk20.Caller) (params : Json) :
    Mute (callerAccount K caller params) := by
  refine .bind mute_readRegistry fun reg => ?_
  dsimp only
  split
  · exact .bind (.lift (noRefusal_normalizeAddress K _)) fun _ => mute_found (by simp)
  · exact mute_found (by simp)

theorem mute_ctx (caller : Rpc.Strk20.Caller) (params : Json) : Mute (ctx K S caller params) := by
  refine .bind (mute_resolveChain ..) fun chain => .bind (mute_callerAccount ..) fun account =>
    .bind (.lift (noRefusal_senderOf K account)) fun user => .bind (mute_requireNode _) fun _ => ?_
  have hpool : ∀ cfg, Mute (do
      let pool ← poolFor K cfg chain
      return { account, user, chain, pool, cfg } : Serve Ctx) :=
    fun cfg => .bind (.lift (noRefusal_poolFor K cfg chain)) fun _ => .pure _
  split
  · exact .bind (.one rfl) hpool
  · exact .bind (.pure _) hpool

variable (c : Ctx)

theorem mute_viewingKey : Mute c.viewingKey := .act rfl fun _ ha => .propagate ha

theorem mute_blockNumber : Mute (blockNumber c) := by
  refine .bind (.mapErr (quiet_call ..) nodeError_ne) fun v => ?_
  split
  · exact .pure _
  · exact .throw (by simp)

theorem mute_discoverChannels {r : Strkd.Strk20.PoolReader (Prog Op Ans)}
    (hr : ConfinedReader (fun op => quiet op = true) r) (userSk : Felt) (recipients : List Felt)
    (channels : Channels) : Mute (discoverChannels K S c r userSk recipients channels) := by
  induction recipients generalizing channels with
  | nil => exact .pure _
  | cons recipient rest ih =>
      unfold discoverChannels
      split
      · exact ih _
      · exact .bind (mute_fromPool (confined_discoverChannel K hr ..)) fun _ => ih _

theorem mute_discoverState {r : Strkd.Strk20.PoolReader (Prog Op Ans)}
    (hr : ConfinedReader (fun op => quiet op = true) r) (userSk : Felt) (intent : Intent) :
    Mute (discoverState K S c r userSk intent) := by
  refine .bind (mute_fromPool (confined_registeredKey K hr _)) fun registered => ?_
  dsimp only
  split
  · refine .bind (mute_discoverChannels K S c hr ..) fun channels => ?_
    have hcount : ∀ f : U32 → State, Mute (do
        let outgoing ← fromPool (Strkd.Strk20.outgoingChannelCount K r c.user userSk)
        return f outgoing : Serve State) :=
      fun f => .bind (mute_fromPool (confined_outgoingChannelCount K hr ..)) fun _ => .pure _
    split
    · exact .bind (mute_fromPool (confined_discoverNotes K hr ..)) fun notes => hcount _
    · exact .bind (.pure _) fun notes => hcount _
  · rename_i hreg
    simp only [hreg]
    exact .bind (.pure _) fun _ => .bind (.pure _) fun _ => .bind (.pure _) fun _ => .pure _

theorem mute_planBatch (intent : Intent) (st : State) : Mute (planBatch K S intent st) := by
  refine .bind (.one rfl) fun draw => ?_
  split
  · exact .pure _
  · exact .throw (mapStrk20_ne _)
  · exact .bind (.one rfl) fun crashed => nomatch crashed

theorem mute_freshPlan (userSk : Felt) (block : ℕ) (intent : Intent) :
    Mute (freshPlan K S c userSk block intent) := by
  refine .bind (mute_discoverState K S c (quiet_reader ..) ..) fun st =>
    .bind (mute_discoverState K S c (quiet_reader ..) ..) fun now => ?_
  refine .refuse (by simp) fun _ => .bind (mute_planBatch ..) fun plan => ?_
  exact .refuse (by simp) fun _ => .pure _

theorem mute_proveInvocation (method : String) (proving : Proving) (userSk : Felt) (block : ℕ)
    (tx : Json) : Mute (proveInvocation c method proving userSk block tx) := by
  unfold proveInvocation
  split
  · have hprove : Mute (proveUnrecorded (.obj [("transaction", tx), ("block_number", .int block)])
        (some ("STRK20 " ++ method)) (proverNetwork c.chain)) := by
      refine .bind (.one rfl) fun now => .bind (.one rfl) fun jobId => .bind (.one rfl) fun _ =>
        .bind (.one rfl) fun res => ?_
      split
      · exact .bind (.one rfl) fun _ => .pure _
      · exact .bind (.one rfl) fun _ => .pure _
    refine .bind hprove fun res => ?_
    split
    · exact .pure _
    · exact .throw (by simp)
  · refine .bind (.one rfl) fun res => ?_
    split
    · exact .pure _
    · exact .throw (by simp)
    · exact .throw (by simp)

theorem mute_signAndProveBatch (method : String) (proving : Proving) (userSk : Felt) (block : ℕ)
    (plan : Plan) : Mute (signAndProveBatch K c method proving userSk block plan) := by
  have hnonce : Mute (poolNonce K c block) := by
    refine .bind (.mapErr (quiet_call ..) nodeError_ne) fun v => ?_
    split
    · exact .pure _
    · exact .throw (by simp)
  refine .bind hnonce fun nonce => .act rfl fun answer ha => .bind (.propagate ha) fun signature =>
    .bind (mute_proveInvocation ..) fun result => ?_
  split
  · exact .throw (by simp)
  · split
    · exact .throw (mapStrk20_ne _)
    · exact .pure _

theorem mute_poolFee : Mute (poolFee K c) := by
  refine .bind (mute_fromPool ((quiet_reader K c _).call _ _)) fun felts => ?_
  exact .refuse (by simp) fun _ => .pure _

theorem mute_checkBalances (fee : U128) (needs : List (Felt × U128)) :
    Mute (checkBalances K c fee needs) := by
  induction needs with
  | nil => exact .pure _
  | cons need rest ih =>
      refine .bind (.mapErr (quiet_call ..) nodeError_ne) fun v => ?_
      split
      · exact .refuse (by simp) fun _ => ih
      · exact .throw (by simp)

theorem mute_checkPublicFunds (deposits : List (Felt × U128)) :
    Mute (checkPublicFunds K c deposits) :=
  .bind (mute_poolFee ..) fun _ => mute_checkBalances ..

theorem mute_submitFromAccount (prepared : Prepared) (deposits : List (Felt × U128)) :
    Mute (submitFromAccount K c prepared deposits) := by
  have hfresh : Mute (requireFreshAttestation prepared.proved) := by
    unfold requireFreshAttestation
    split
    · exact .pure _
    · refine .bind (.one rfl) fun now => ?_
      split
      · exact .throw (by simp)
      · exact .pure _
  refine .bind hfresh fun _ => .bind (mute_poolFee ..) fun fee =>
    .bind (.mapErr (quiet_getNonce ..) nodeError_ne) fun nonce =>
    .bind (.mapErr (quiet_estimate ..) submitErr_ne) fun bounds => .act rfl fun answer ha => ?_
  exact .bind (.propagate ha) fun _ => .mapErr (quiet_addInvoke ..) submitErr_ne

theorem mute_revealed (tokens : List Felt) : Mute (do
    let userSk ← c.viewingKey
    let key ← fromPool (Strkd.Strk20.registeredKey K (c.latest K) c.user)
    if key = none then throw (.strk20NotRegistered c.account.address)
    let notes ← fromPool (Strkd.Strk20.discoverNotes K (c.latest K) c.user userSk tokens)
    return .arr (tokens.map fun t => .obj [("token", .str (feltHex t)),
      ("balance", .str ("0x" ++ hexText (balanceOf notes t).toNat))]) : Serve Json) := by
  refine .bind (mute_viewingKey c) fun userSk =>
    .bind (mute_fromPool (confined_registeredKey K (quiet_reader ..) _)) fun key => ?_
  refine .refuse (by simp) fun _ => ?_
  exact .bind (mute_fromPool (confined_discoverNotes K (quiet_reader ..) ..)) fun _ => .pure _

end Strk20

end Strkd.Rpc
