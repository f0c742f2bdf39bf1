import Strkd.Lib.Runs
import Strkd.Rpc.Prompts
import Strkd.Service.Requests

/-!
# The prompt and the signature after it

A request asks at most once, and what it signs after an approval agrees with the text of the prompt.
Two requests approved with one prompt therefore sign the same, up to what the prompt leaves out.
-/

namespace Strkd.Service

open Wallet Prover Rpc

/-! ## What a prompt shows of a signature -/

/-- The operations that sign. -/
def signs : Op → Bool
  | .signTypedData _ _ | .signInvoke _ _ _ _ | .signDeclare _ _ _ _ _ | .signDeployAccount _ _ _
  | .signHash _ _ => true
  | _ => false

/-- The token of a funding request. -/
def fundingToken (K : Crates) (params : Json) : Option Felt :=
  K.feltFromHex ((optParamStr params "token").getD strkTokenAddress)

/-- Client `c` asked with `r` for the signature of `op`, in a request with `params`. -/
inductive Shown (K : Crates) (params : Json) (c : PairedClient) :
    Method → ApprovalRequest → Op → Prop
  | typedData {a : AccountRef} {f : Felt} {document : String} (ha : a.address = addressHex f)
      (hdocument : typedDataJson params = .ok document) :
      Shown K params c .signTypedData
        ⟨c.fullLabel, Method.signTypedData.wire, typedDataText a.address⟩ (.signTypedData a document)
  | invoke {a : AccountRef} {f : Felt} {calls : List Call} {chain : ChainId} {p : InvokeV3Params}
      (ha : a.address = addressHex f) (hcalls : parseCalls K params = .ok calls) :
      Shown K params c .addInvokeTransaction
        ⟨c.fullLabel, Method.addInvokeTransaction.wire, invokeText (paramFlag params "submit") calls
          p.proofFacts a.address chain (feeBoundsOf p)⟩ (.signInvoke a calls chain p)
  | declare {a : AccountRef} {f classHash compiled : Felt} {chain : ChainId} {p : InvokeV3Params}
      (ha : a.address = addressHex f) (hcompiled : parseCompiledClassHash K params = .ok compiled) :
      Shown K params c .addDeclareTransaction
        ⟨c.fullLabel, Method.addDeclareTransaction.wire, declareText (paramFlag params "submit")
          classHash a.address chain (feeBoundsOf p)⟩ (.signDeclare a classHash compiled chain p)
  | deploy {a : AccountRef} {chain : ChainId} {p : InvokeV3Params} :
      Shown K params c .deployAccount
        ⟨c.fullLabel, Method.deployAccount.wire, deployText (paramFlag params "submit") a.address
          chain (feeBoundsOf p)⟩ (.signDeployAccount a chain p)
  | prove {a : AccountRef} {f : Felt} {calls : List Call} {chain : ChainId} {p : InvokeV3Params}
      (ha : a.address = addressHex f) (hcalls : parseCalls K params = .ok calls) :
      Shown K params c .signAndProve
        ⟨c.fullLabel, Method.signAndProve.wire, proveText calls a.address chain (feeBoundsOf p)⟩
        (.signInvoke a calls chain p)
  | funding {a b : AccountRef} {f toAddr token : Felt} {amount : ℕ} {i : U32} {chain : ChainId}
      {p : InvokeV3Params} (ha : a.address = addressHex f)
      (hb : K.feltFromHex b.address = some toAddr) (htoken : fundingToken K params = some token) :
      Shown K params c .requestFunding
        ⟨c.fullLabel, Method.requestFunding.wire, fundingText c amount chain i a.address b.address⟩
        (.signInvoke a [transferCall K token toAddr amount] chain p)

/-! ## The rule book -/

/-- Neither a prompt nor a signature so far. -/
def Fresh (tr : Trace) : Prop :=
  ∀ e ∈ tr, signs e.1 = false ∧ ∀ r, e.1 ≠ .requestApproval r

/-- What was approved so far is `r`. -/
def OnlyApproved (r : ApprovalRequest) (tr : Trace) : Prop :=
  ∀ r', (⟨.requestApproval r', .approve⟩ : Event Op Ans) ∈ tr → r' = r

/-- A prompt comes first, and a signature agrees with the prompts approved before it. -/
def Faithful (K : Crates) (m : Method) (params : Json) (tr : Trace) : Op → Prop
  | .requestApproval _ => Fresh tr
  | op => signs op = true → ∃ c, ∀ r,
      (⟨.requestApproval r, .approve⟩ : Event Op Ans) ∈ tr → Shown K params c m r op

def promptRules (K : Crates) (m : Method) (params : Json) : Rules Op Ans where
  allows := Faithful K m params
  legal _ _ _ := True

section Rules

variable {K : Crates} {S : Setup} {m : Method} {params : Json} {tr : Trace} {c : PairedClient}

theorem faithful_of_not_signs {op : Op} (hs : signs op = false)
    (hr : ∀ r, op ≠ .requestApproval r) : Faithful K m params tr op := by
  cases op with
  | requestApproval r => exact absurd rfl (hr r)
  | _ => exact fun h => absurd h (by simp_all [signs])

theorem promptRules_quiet : AllowsQuiet (promptRules K m params) := by
  intro tr op h
  refine faithful_of_not_signs ?_ fun r hr => ?_
  · cases op <;> first | rfl | cases h
  · subst hr
    cases h

theorem Fresh.append {e : Event Op Ans} (h : Fresh tr) (hs : signs e.1 = false)
    (hr : ∀ r, e.1 ≠ .requestApproval r) : Fresh (tr ++ [e]) := by
  intro e' he'
  rcases List.mem_append.1 he' with he' | he'
  · exact h e' he'
  · rw [List.mem_singleton.1 he']
    exact ⟨hs, hr⟩

/-- A computation of the rest of the world leaves the request fresh. -/
theorem Fresh.obeys {α : Type} {h : Serve α} (hq : Quiet h) (h0 : Fresh tr) :
    Obeys (promptRules K m params) tr h fun tr' _ => Fresh tr' := by
  refine (Confined.serves (P := fun op => quiet op = true) hq
    (fun tr op _ h => promptRules_quiet tr op h) (fun tr op a hI h => hI.append ?_ fun r hr => ?_)
    h0).weaken (fun _ _ _ h => h) fun _ _ _ _ => trivial
  · cases op <;> first | rfl | cases h
  · simp only at hr
    subst hr
    cases h

variable {β : Type} {Q : Trace → β → Prop}

/-- First a computation of the rest of the world, then the rest. -/
theorem Fresh.quiet {α : Type} {h : Serve α} {f : α → Serve β} (h0 : Fresh tr) (hq : Quiet h)
    (hf : ∀ tr' a, Fresh tr' → Obeys (promptRules K m params) tr' (f a) Q) :
    Obeys (promptRules K m params) tr (h >>= f) Q :=
  Serves.bind (h0.obeys hq) fun tr' a _ ha => hf tr' a ha

/-- First the user's approval, then the rest. -/
theorem Fresh.ask {label text summary : String} {f : Unit → Serve β} (h0 : Fresh tr)
    (hf : ∀ tr', OnlyApproved ⟨label, text, summary⟩ tr' →
      Obeys (promptRules K m params) tr' (f ()) Q) :
    Obeys (promptRules K m params) tr
      (askUser label text summary >>= fun d => liftM (confirmed d) >>= f) Q := by
  refine Obeys.act h0 fun d => Obeys.lift fun _ _ => hf _ fun r hr => ?_
  rcases List.mem_append.1 hr with hr | hr
  · exact absurd rfl ((h0 _ hr).2 r)
  · cases List.mem_singleton.1 hr
    rfl

/-- First an approval that honors a grant, then the rest. -/
theorem Fresh.gate {text summary : String} {f : Unit → Serve β} (h0 : Fresh tr)
    (hf : ∀ tr', OnlyApproved ⟨c.fullLabel, text, summary⟩ tr' →
      Obeys (promptRules K m params) tr' (f ()) Q) :
    Obeys (promptRules K m params) tr
      (gatedApproval c text summary >>= fun d => liftM (confirmed d) >>= f) Q := by
  unfold gatedApproval
  rw [bind_assoc]
  have hclock : Faithful K m params tr (.clock (.gate c text)) :=
    faithful_of_not_signs rfl fun r hr => nomatch hr
  refine Obeys.act hclock fun now => ?_
  have h1 : Fresh (tr ++ [⟨.clock (.gate c text), now⟩]) := h0.append rfl fun r hr => nomatch hr
  by_cases hg : c.grantActive now = true
  · simp only [hg, if_true, pure_bind]
    exact Obeys.lift fun _ _ => hf _ fun r hr => absurd rfl ((h1 _ hr).2 r)
  · simp only [hg]
    exact h1.ask hf

/-- The account found is the one asked for. -/
theorem Fresh.scopedAccount {want : String} {f : AccountRef → Serve β} (h0 : Fresh tr)
    (hf : ∀ tr' a, a.address = want → Fresh tr' → Obeys (promptRules K m params) tr' (f a) Q) :
    Obeys (promptRules K m params) tr (scopedAccount c want >>= f) Q := by
  refine Serves.bind (Q := fun tr' a => a.address = want ∧ Fresh tr') ?_
    fun tr' a _ h => hf tr' a h.1 h.2
  refine h0.quiet quiet_readRegistry fun tr' reg h => ?_
  split
  · rename_i a ha
    have haddress := List.find?_some ha
    exact serves_pure ⟨of_decide_eq_true haddress, h⟩
  · exact serves_throw trivial

/-- A signature that agrees with the one prompt approved before it, then the rest. -/
theorem OnlyApproved.sign {r : ApprovalRequest} {op : Op} {f : Ans op → Serve β}
    (h : OnlyApproved r tr) (hshown : Shown K params c m r op)
    (hf : ∀ a, Obeys (promptRules K m params) (tr ++ [⟨op, a⟩]) (f a) Q) :
    Obeys (promptRules K m params) tr (ExceptT.lift (Prog.perform op) >>= f) Q := by
  refine Obeys.act ?_ hf
  cases hshown <;> exact fun _ => ⟨c, fun r' hr' => by rw [h r' hr']; constructor <;> assumption⟩

end Rules

/-! ## The handlers -/

section Handlers

variable {K : Crates} {S : Setup} {params : Json} {tr : Trace} {c : PairedClient}

/-- From `tr` on, a request with `params` for `m` keeps the rules about prompts. -/
abbrev Honest (K : Crates) (m : Method) (params : Json) (tr : Trace) {α : Type} (h : Serve α) :
    Prop :=
  Obeys (promptRules K m params) tr h fun _ _ => True

theorem honest_quiet {m : Method} {α : Type} {h : Serve α} (hq : Quiet h) :
    Honest K m params tr h :=
  obeys_done hq promptRules_quiet

/-- The parameters of a transaction that carries no proof facts. -/
def signedWith (nonce : Felt) (bounds : FeeBounds) : InvokeV3Params := {
  nonce
  tip := 0
  l1Gas := bounds.l1Gas
  l2Gas := bounds.l2Gas
  l1DataGas := bounds.l1DataGas }

theorem normalizeAddress_eq_ok {s want : String} (h : normalizeAddress K s = .ok want) :
    ∃ f, want = addressHex f := by
  unfold normalizeAddress at h
  split at h
  · rename_i f _
    exact ⟨f, (Except.ok.inj h).symm⟩
  · cases h

theorem managerAccount_address {s : WalletSession} {i : U32} {a : AccountRef}
    (h : s.managerAccount K i = .ok a) : ∃ f, a.address = addressHex f := by
  simp only [WalletSession.managerAccount, except_bind_eq_ok, except_pure_eq_ok] at h
  obtain ⟨u, -, f, -, rfl⟩ := h
  exact ⟨f, rfl⟩

theorem honest_handleSignTypedData (h : Fresh tr) :
    Honest K .signTypedData params tr (handleSignTypedData K c params) := by
  refine .lift fun _ _ => .lift fun want hwant => .lift fun document hdocument =>
    h.scopedAccount fun tr₁ a ha h => h.gate fun tr₂ ho => ?_
  obtain ⟨f, rfl⟩ := normalizeAddress_eq_ok hwant
  exact ho.sign (.typedData ha hdocument) fun _ =>
    honest_quiet (.bind (quiet_propagate _) fun _ => .pure _)

/-- The rest of an invoke once it is signed. -/
theorem OnlyApproved.signAndSubmit {m : Method} {r : ApprovalRequest} {chain : ChainId}
    {a : AccountRef} {calls : List Call} {nonce : Felt} {bounds : FeeBounds} {submit : Bool}
    {facts : List Felt} {proof : Option String} (h : OnlyApproved r tr)
    (hshown : ∀ p : InvokeV3Params, p.proofFacts = facts → feeBoundsOf p = bounds →
      Shown K params c m r (.signInvoke a calls chain p)) :
    Honest K m params tr (signAndSubmit K chain a calls nonce bounds submit facts proof) := by
  refine h.sign (hshown _ rfl rfl) fun answer => honest_quiet (.bind (quiet_propagate _)
    fun signed => .bind (.lift _) fun sender => ?_)
  split
  · exact .bind (quiet_requireNode _) fun _ => .bind (.mapErr (quiet_addInvoke ..)) fun _ => .pure _
  · exact .pure _

theorem honest_handleAddInvoke (h : Fresh tr) :
    Honest K .addInvokeTransaction params tr (handleAddInvoke K c params) := by
  refine .lift fun _ _ => .lift fun want hwant => .lift fun calls hcalls => .lift fun facts _ =>
    .lift fun proof _ => .refuse fun _ => h.scopedAccount fun tr₁ a ha h => .lift fun sender _ =>
    h.quiet (quiet_resolveChain ..) fun tr₂ chain h => h.quiet (quiet_resolveExec ..)
    fun tr₃ ⟨nonce, bounds⟩ h => h.gate fun tr₄ ho => ho.signAndSubmit (c := c) fun p hp hb => ?_
  obtain ⟨f, rfl⟩ := normalizeAddress_eq_ok hwant
  subst hp hb
  exact .invoke ha hcalls

theorem honest_handleAddDeclare (h : Fresh tr) :
    Honest K .addDeclareTransaction params tr (handleAddDeclare K c params) := by
  refine .lift fun _ _ => .lift fun want hwant => h.scopedAccount fun tr₁ a ha h =>
    .lift fun sender _ => .lift fun contractClass _ => .lift fun given _ =>
    .lift fun classHash _ => .lift fun compiled hcompiled => h.quiet (quiet_resolveChain ..)
    fun tr₂ chain h => h.quiet (quiet_resolveNonce ..) fun tr₃ nonce h =>
    h.quiet (quiet_declareBounds ..) fun tr₄ bounds h => h.gate fun tr₅ ho => ?_
  obtain ⟨f, rfl⟩ := normalizeAddress_eq_ok hwant
  refine ho.sign (.declare (p := signedWith nonce bounds) ha
    hcompiled) fun answer => honest_quiet (.bind (quiet_propagate _) fun signed => ?_)
  split
  · refine .bind (quiet_requireNode _) fun _ => ?_
    split
    · exact .throw _
    · exact .bind (.mapErr (quiet_addDeclare ..)) fun _ => .pure _
  · exact .pure _

theorem honest_handleDeployAccount (h : Fresh tr) :
    Honest K .deployAccount params tr (handleDeployAccount K c params) := by
  refine h.quiet (quiet_scopedAccountOr ..) fun tr₁ a h => h.quiet (quiet_resolveChain ..)
    fun tr₂ chain h => h.quiet (quiet_requireUndeployed ..) fun tr₃ _ h =>
    h.quiet (quiet_act rfl) fun tr₄ s h => .lift fun d _ => h.quiet (quiet_deployBounds ..)
    fun tr₅ bounds h => h.gate fun tr₆ ho => ?_
  refine ho.sign (.deploy (p := signedWith 0 bounds))
    fun answer => honest_quiet (.bind (quiet_propagate _) fun signed => ?_)
  split
  · exact .bind (quiet_requireNode _) fun _ =>
      .bind (.mapErr (quiet_addDeployAccount ..)) fun _ => .pure _
  · exact .pure _

theorem honest_handleSignAndProve (h : Fresh tr) :
    Honest K .signAndProve params tr (handleSignAndProve K S c params) := by
  refine .lift fun _ _ => .lift fun _ _ => .lift fun want hwant => .lift fun calls hcalls =>
    h.quiet (quiet_resolveChain ..) fun tr₁ chain h => h.scopedAccount fun tr₂ a ha h =>
    .lift fun sender _ => h.quiet (quiet_resolveNonce ..) fun tr₃ nonce h =>
    .lift fun bounds _ => ?_
  obtain ⟨f, rfl⟩ := normalizeAddress_eq_ok hwant
  cases bounds with
  | none => exact serves_throw trivial
  | some bounds =>
      refine h.gate fun tr₄ ho => ?_
      exact ho.sign (.prove (p := signedWith nonce bounds) ha
        hcalls) fun _ => honest_quiet (.bind (quiet_propagate _) fun signed =>
          .bind (quiet_enqueueProve ..) fun _ => .pure _)

theorem honest_handleRequestFunding (h : Fresh tr) :
    Honest K .requestFunding params tr (handleRequestFunding K c params) := by
  unfold handleRequestFunding
  refine .refuse fun _ => .lift fun amount _ => .refuse fun _ => ?_
  dsimp only
  split
  · rename_i token htoken
    refine .lift fun i _ => h.quiet (quiet_scopedAccountOr ..) fun tr₁ b h =>
      .lift fun toAddr hto => h.quiet (quiet_act rfl) fun tr₂ s h => .lift fun a ha => ?_
    split
    · refine h.quiet (quiet_resolveChain ..) fun tr₃ chain h => h.quiet (quiet_requireDeployed ..)
        fun tr₄ _ h => h.quiet (quiet_resolveExec ..) fun tr₅ ⟨nonce, bounds⟩ h =>
        h.ask fun tr₆ ho => ?_
      obtain ⟨f, ha⟩ := managerAccount_address ha
      refine Serves.bind (Q := fun _ _ => True) (ho.signAndSubmit (c := c) fun p _ _ => ?_)
        fun _ _ _ _ => serves_pure trivial
      exact .funding ha (WalletSession.storedAddress_eq_ok hto) htoken
    · exact serves_throw trivial
  · exact serves_throw trivial

end Handlers

/-! ## Whole requests -/

/-- The methods that sign for the caller's own account. -/
def signingMethods : List Method :=
  [.signTypedData, .addInvokeTransaction, .addDeclareTransaction, .deployAccount, .signAndProve]

section Requests

variable {K : Crates} {S : Setup} {m : Method} {token : Option String} {req : Request} {tr : Trace}

theorem honest_serve {c : PairedClient} (hm : m ∈ .requestFunding :: signingMethods)
    (h : Fresh tr) : Honest K m req.params tr (serve K S c req (some m)) := by
  simp only [signingMethods, List.mem_cons, List.not_mem_nil, or_false] at hm
  rcases hm with rfl | rfl | rfl | rfl | rfl | rfl
  · exact honest_handleRequestFunding h
  · exact honest_handleSignTypedData h
  · exact honest_handleAddInvoke h
  · exact honest_handleAddDeclare h
  · exact honest_handleDeployAccount h
  · exact honest_handleSignAndProve h

theorem safe_handle_prompts (hname : Method.ofString req.method = some m)
    (hm : m ∈ .requestFunding :: signingMethods) (h : Fresh tr) :
    Safe (promptRules K m req.params) tr (handle K S token req) fun _ _ => True := by
  have hverify : Safe (promptRules K m req.params) tr (verifyToken token) fun tr' _ => Fresh tr' := by
    cases token with
    | none => exact h
    | some t => exact ⟨promptRules_quiet _ _ rfl, fun r _ => h.append rfl fun r hr => nomatch hr⟩
  have hpaired : ∀ f : Option PairedClient → Prog Op Ans Handled,
      f none = pure ⟨.error .notRegistered, "n/a", none⟩ →
      (∀ client, f (some client) = handlePaired K S client req (some m)) →
      Safe (promptRules K m req.params) tr (verifyToken token >>= f) fun _ _ => True := by
    intro f hnone hsome
    refine Safe.bind hverify fun tr' r _ h => ?_
    cases r with
    | none =>
        rw [hnone]
        trivial
    | some c =>
        rw [hsome]
        simp only [handlePaired]
        split
        · trivial
        · exact Safe.bind (honest_serve hm h) fun _ _ _ _ => trivial
  unfold handle
  rw [hname]
  simp only [signingMethods, List.mem_cons, List.not_mem_nil, or_false] at hm
  rcases hm with rfl | rfl | rfl | rfl | rfl | rfl <;>
    exact hpaired _ rfl fun _ => rfl

/-- Every request of a method that signs keeps the rules about prompts. -/
theorem safe_dispatch_prompts (hname : Method.ofString req.method = some m)
    (hm : m ∈ .requestFunding :: signingMethods) :
    Safe (promptRules K m req.params) [] (dispatch K S token req) fun _ _ => True := by
  have hq : ∀ {tr op}, quiet op = true → (promptRules K m req.params).allows tr op :=
    fun h => promptRules_quiet _ _ h
  refine Safe.bind (p := carryOut .touchActivity) (Q := fun tr _ => Fresh tr) ⟨hq rfl, fun now _ => ?_⟩
    fun tr _ _ h => Safe.bind (safe_handle_prompts hname hm h) fun tr handled _ _ => ?_
  · exact Fresh.append (fun e he => by cases he) rfl fun r hr => nomatch hr
  · refine ⟨hq rfl, fun s _ => ⟨hq rfl, fun now _ => ⟨hq rfl, fun latency _ => ⟨hq rfl, fun _ _ => ?_⟩⟩⟩⟩
    cases handled.result with
    | ok v => trivial
    | error e => trivial

/-- A request that was approved and signed did so with one prompt, and the signature agrees with
it. -/
theorem shown_of_performs (hname : Method.ofString req.method = some m)
    (hm : m ∈ .requestFunding :: signingMethods) (htr : Performs (dispatch K S token req) tr)
    {r : ApprovalRequest} (hr : (⟨.requestApproval r, .approve⟩ : Event Op Ans) ∈ tr) {op : Op}
    {a : Ans op} (hop : signs op = true) (ha : (⟨op, a⟩ : Event Op Ans) ∈ tr) :
    ∃ c, Shown K req.params c m r op := by
  have hallows : ∀ (before after : Trace) (e : Event Op Ans), tr = before ++ e :: after →
      Faithful K m req.params ([] ++ before) e.1 := fun _ _ _ heq =>
    (safe_dispatch_prompts hname hm).allows_of_performs (fun _ _ _ => trivial) htr heq
  obtain ⟨before, after, rfl⟩ := List.append_of_mem ha
  have hbefore : (⟨.requestApproval r, .approve⟩ : Event Op Ans) ∈ before := by
    rcases List.mem_append.1 hr with hr | hr
    · exact hr
    rcases List.mem_cons.1 hr with hr | hr
    · cases hr
      cases hop
    -- a prompt after the signature would not be fresh
    obtain ⟨before', after', rfl⟩ := List.append_of_mem hr
    have hfresh : Fresh ([] ++ (before ++ ⟨op, a⟩ :: before')) :=
      hallows (before ++ ⟨op, a⟩ :: before') after' ⟨.requestApproval r, .approve⟩ (by simp)
    have := (hfresh ⟨op, a⟩ (by simp)).1
    rw [hop] at this
    cases this
  have hsign := hallows before after _ rfl
  have hshown : ∃ c, ∀ r, (⟨.requestApproval r, .approve⟩ : Event Op Ans) ∈ [] ++ before →
      Shown K req.params c m r op := by
    cases op <;> first | exact hsign rfl | cases hop
  obtain ⟨c, hc⟩ := hshown
  exact ⟨c, hc r hbefore⟩

end Requests

/-! ## Two requests with one prompt -/

/-- What a signature is about. -/
inductive Matter where
  | document (text : String)
  | calls (calls : List Call)
  | classes (classHash compiledClassHash : Felt)
  | deployment
  deriving DecidableEq

/-- What a signature authorises. -/
structure Authorised where
  account : String
  chain : Option ChainId
  submit : Bool
  bounds : Option FeeBounds
  matter : Matter
  deriving DecidableEq

/-- What a signature of a request for `m` with `params` authorises. -/
def authorised (m : Method) (params : Json) : Op → Option Authorised
  | .signTypedData a document => some ⟨a.address, none, false, none, .document document⟩
  | .signInvoke a calls chain p =>
      -- `companion_signAndProve` never broadcasts
      let submit := m ≠ .signAndProve ∧ paramFlag params "submit" = true
      some ⟨a.address, some chain, submit, some (feeBoundsOf p), .calls calls⟩
  | .signDeclare a classHash compiled chain p =>
      some ⟨a.address, some chain, paramFlag params "submit", some (feeBoundsOf p),
        .classes classHash compiled⟩
  | .signDeployAccount a chain p =>
      some ⟨a.address, some chain, paramFlag params "submit", some (feeBoundsOf p), .deployment⟩
  | _ => none

/-- The parameters that reach the signature and that no prompt shows. -/
inductive Unshown where
  | document (text : Except WalletRpcError String)
  | calldata (calls : Except WalletRpcError (List (List Felt)))
  | compiledClass (hash : Except WalletRpcError Felt)
  | nothing

def unshown (K : Crates) (m : Method) (params : Json) : Unshown :=
  match m with
  | .signTypedData => .document (typedDataJson params)
  | .addInvokeTransaction | .signAndProve =>
      .calldata ((parseCalls K params).map fun calls => calls.map Call.calldata)
  | .addDeclareTransaction => .compiledClass (parseCompiledClassHash K params)
  | _ => .nothing

section Pairs

variable {K : Crates} {S S' : Setup} {m m' : Method} {params params' : Json} {c c' : PairedClient}
variable {r r' : ApprovalRequest} {op op' : Op}

theorem wire_injective : Function.Injective Method.wire := by
  intro m m' h
  have hfind : ∀ m, Method.ofString m.wire = some m := by
    intro m
    cases m <;> decide +kernel
  exact Option.some.inj ((hfind m).symm.trans (h ▸ hfind m'))

theorem Shown.method (h : Shown K params c m r op) : r.method = m.wire := by
  cases h <;> rfl

theorem calls_eq_iff {calls calls' : List Call}
    (h : calls.map shownCall = calls'.map shownCall) :
    calls = calls' ↔ calls.map Call.calldata = calls'.map Call.calldata := by
  refine ⟨fun heq => heq ▸ rfl, fun hdata => ?_⟩
  induction calls generalizing calls' with
  | nil =>
      cases calls' with
      | nil => rfl
      | cons b l => cases h
  | cons a l ih =>
      cases calls' with
      | nil => cases h
      | cons b l' =>
          obtain ⟨hab, hl⟩ := List.cons.inj h
          obtain ⟨hdata, hdatas⟩ := List.cons.inj hdata
          obtain ⟨hto, hsel⟩ := Prod.mk.inj hab
          have : a = b := by
            cases a
            cases b
            simp_all [shownCall]
          rw [this, ih hl hdatas]

/-- Signatures shown by one prompt authorise the same when what it leaves out is the same. -/
theorem Shown.authorised_eq_iff (hm : m ∈ signingMethods) (h : Shown K params c m r op)
    (h' : Shown K params' c' m r' op') (hr : r = r') :
    authorised m params op = authorised m params' op' ↔ unshown K m params = unshown K m params' := by
  have htext := congrArg ApprovalRequest.summary hr
  cases h with
  | typedData ha hdocument =>
      cases h' with
      | typedData ha' hdocument' =>
          have haddr := String.append_right_inj _ |>.1 htext
          simp [authorised, unshown, hdocument, hdocument', haddr]
  | @invoke a f calls chain p ha hcalls =>
      cases h' with
      | @invoke a' f' calls' chain' p' ha' hcalls' =>
          rw [ha, ha'] at htext
          obtain ⟨hsubmit, hshown, haddr, hchain, hbounds⟩ := invokeText_inj htext
          have hiff := calls_eq_iff hshown
          simp [authorised, unshown, hcalls, hcalls', ha, ha', haddr, hchain, hbounds, hsubmit,
            hiff, Except.map]
  | declare ha hcompiled =>
      cases h' with
      | declare ha' hcompiled' =>
          rw [ha, ha'] at htext
          obtain ⟨hsubmit, hclass, haddr, hchain, hbounds⟩ := declareText_inj htext
          simp [authorised, unshown, hcompiled, hcompiled', ha, ha', haddr, hchain, hbounds, hsubmit,
            hclass]
  | deploy =>
      cases h' with
      | deploy =>
          obtain ⟨hsubmit, haddr, hchain, hbounds⟩ := deployText_inj htext
          simp [authorised, unshown, haddr, hchain, hbounds, hsubmit]
  | @prove a f calls chain p ha hcalls =>
      cases h' with
      | @prove a' f' calls' chain' p' ha' hcalls' =>
          rw [ha, ha'] at htext
          obtain ⟨hshown, haddr, hchain, hbounds⟩ := proveText_inj htext
          have hiff := calls_eq_iff hshown
          simp [authorised, unshown, hcalls, hcalls', ha, ha', haddr, hchain, hbounds, hiff,
            Except.map]
  | funding => exact absurd hm (by decide)

variable {token token' : Option String} {req req' : Request} {tr tr' : Trace} {a : Ans op} {a' : Ans op'}

/-- Two requests approved with one prompt authorise the same exactly when the typed-data document,
the calldata of each call or the compiled class hash of the one is that of the other. -/
theorem prompt_binds (hname : Method.ofString req.method = some m)
    (hname' : Method.ofString req'.method = some m') (hm : m ∈ signingMethods)
    (hm' : m' ∈ signingMethods) (htr : Performs (dispatch K S token req) tr)
    (htr' : Performs (dispatch K S' token' req') tr')
    (hr : (⟨.requestApproval r, .approve⟩ : Event Op Ans) ∈ tr)
    (hr' : (⟨.requestApproval r, .approve⟩ : Event Op Ans) ∈ tr')
    (hop : (⟨op, a⟩ : Event Op Ans) ∈ tr) (hop' : (⟨op', a'⟩ : Event Op Ans) ∈ tr')
    {x x' : Authorised} (hx : authorised m req.params op = some x)
    (hx' : authorised m' req'.params op' = some x') :
    x = x' ↔ unshown K m req.params = unshown K m' req'.params := by
  have hsigns : ∀ {m params op x}, authorised m params op = some x → signs op = true := by
    intro m params op x h
    cases op <;> first | rfl | cases h
  obtain ⟨c, hc⟩ := shown_of_performs hname (List.mem_cons_of_mem _ hm) htr hr (hsigns hx) hop
  obtain ⟨c', hc'⟩ := shown_of_performs hname' (List.mem_cons_of_mem _ hm') htr' hr' (hsigns hx') hop'
  obtain rfl : m = m' := wire_injective (hc.method.symm.trans hc'.method)
  have hiff := hc.authorised_eq_iff hm hc' rfl
  rw [hx, hx', Option.some.injEq] at hiff
  exact hiff

end Pairs

/-! ## Runs against the prompts -/

/-- A wallet with one session whose user approves, and no node. -/
def approving (c : PairedClient) (s : WalletSession) : (op : Op) → Option (Ans op)
  | .touchActivity | .clock _ => some 0
  | .verify _ => some (some c)
  | .session => some s
  | .nodeFor _ => some false
  | .requestApproval _ => some .approve
  | .signTypedData a document => some (s.signTypedDataFor plainCrates a document)
  | .signInvoke a calls chain p => some (s.signInvokeFor plainCrates a calls chain p)
  | _ => none

def plainClient : PairedClient :=
  { id := "c1", label := "bot", kind := .agent, tokenHash := "", grantedUntil := none }

def plainAccount : AccountRef where
  domain := .agent
  index := 0
  address := addressHex 7
  label := "bot"
  contract := .openZeppelin
  ownerClientId := some "c1"

def plainSession : WalletSession := .newUnlocked .sepolia "test" "pass" ⟨[plainAccount]⟩

/-- What a request with a token does there. -/
def plainRun (req : Request) : Trace :=
  replay (approving plainClient plainSession) (dispatch plainCrates plainSetup (some "t") req)

theorem performs_plainRun (req : Request) :
    Performs (dispatch plainCrates plainSetup (some "t") req) (plainRun req) :=
  performs_replay _ _

def typedDataRequest (document : String) : Request where
  id := .int 1
  method := "wallet_signTypedData"
  params := .obj [("account_address", .str "0x7"), ("typed_data", .str document)]

def typedDataPrompt : ApprovalRequest :=
  ⟨"bot (c1)", "wallet_signTypedData", typedDataText (addressHex 7)⟩

theorem typedDataRequest_prompts (document : String) :
    (⟨.requestApproval typedDataPrompt, .approve⟩ : Event Op Ans) ∈
      plainRun (typedDataRequest document) :=
  List.mem_of_getElem? (i := 4) rfl

theorem typedDataRequest_signs (document : String) :
    (⟨.signTypedData plainAccount document,
      plainSession.signTypedDataFor plainCrates plainAccount document⟩ : Event Op Ans) ∈
      plainRun (typedDataRequest document) :=
  List.mem_of_getElem? (i := 5) rfl

/-- One prompt, two documents. -/
theorem prompt_binds_documents :
    let orders := typedDataRequest "order 1"
    let drains := typedDataRequest "order 1000"
    ((⟨addressHex 7, none, false, none, .document "order 1"⟩ : Authorised) =
        ⟨addressHex 7, none, false, none, .document "order 1000"⟩) ↔
      unshown plainCrates .signTypedData orders.params =
        unshown plainCrates .signTypedData drains.params :=
  prompt_binds (by decide +kernel) (by decide +kernel) (by decide) (by decide)
    (performs_plainRun (typedDataRequest "order 1"))
    (performs_plainRun (typedDataRequest "order 1000")) (typedDataRequest_prompts _)
    (typedDataRequest_prompts _) (typedDataRequest_signs _) (typedDataRequest_signs _) rfl rfl

/-- Two requests to sign typed data, approved with one prompt, that authorise two documents. -/
theorem prompt_omits_document :
    let before := plainRun (typedDataRequest "order 1")
    let after := plainRun (typedDataRequest "order 1000")
    Performs (dispatch plainCrates plainSetup (some "t") (typedDataRequest "order 1")) before ∧
      Performs (dispatch plainCrates plainSetup (some "t") (typedDataRequest "order 1000")) after ∧
      (⟨.requestApproval typedDataPrompt, .approve⟩ : Event Op Ans) ∈ before ∧
      (⟨.requestApproval typedDataPrompt, .approve⟩ : Event Op Ans) ∈ after ∧
      (∃ sig, (⟨.signTypedData plainAccount "order 1", sig⟩ : Event Op Ans) ∈ before) ∧
      (∃ sig, (⟨.signTypedData plainAccount "order 1000", sig⟩ : Event Op Ans) ∈ after) ∧
      authorised .signTypedData (typedDataRequest "order 1").params
          (.signTypedData plainAccount "order 1") ≠
        authorised .signTypedData (typedDataRequest "order 1000").params
          (.signTypedData plainAccount "order 1000") :=
  ⟨performs_plainRun _, performs_plainRun _, typedDataRequest_prompts _, typedDataRequest_prompts _,
    ⟨_, typedDataRequest_signs _⟩, ⟨_, typedDataRequest_signs _⟩, by decide⟩

/-! ## Funding -/

theorem Shown.funding_eq_iff {K : Crates} {params params' : Json} {c c' : PairedClient}
    {r r' : ApprovalRequest} {a a' : AccountRef} {calls calls' : List Call} {chain chain' : ChainId}
    {p p' : InvokeV3Params} (h : Shown K params c .requestFunding r (.signInvoke a calls chain p))
    (h' : Shown K params' c' .requestFunding r' (.signInvoke a' calls' chain' p')) (hr : r = r') :
    (a.address = a'.address ∧ chain = chain' ∧ calls = calls' ↔
      fundingToken K params = fundingToken K params') ∧
    ∀ call ∈ calls, fundingToken K params = some call.toAddr := by
  have hlabel := congrArg ApprovalRequest.clientLabel hr
  have htext := congrArg ApprovalRequest.summary hr
  cases h with
  | @funding _ b f toAddr token amount i _ _ ha hb htoken =>
      cases h' with
      | @funding _ b' f' toAddr' token' amount' i' _ _ ha' hb' htoken' =>
          rw [ha, ha'] at htext
          obtain ⟨hamount, hchain, haddr, hrecipient⟩ := fundingText_inj hlabel htext
          have hto : toAddr = toAddr' := by
            rw [hrecipient, hb'] at hb
            exact (Option.some.inj hb).symm
          refine ⟨?_, ?_⟩
          · rw [htoken, htoken', ha, ha', haddr, hto, hamount]
            refine ⟨fun h => ?_, fun h => ?_⟩
            · have := congrArg Call.toAddr (List.cons.inj h.2.2).1
              exact congrArg some this
            · rw [Option.some.inj h]
              exact ⟨rfl, hchain, rfl⟩
          · intro call hcall
            rw [List.mem_singleton.1 hcall]
            exact htoken

section Funding

variable {K : Crates} {S S' : Setup} {token token' : Option String} {req req' : Request}
variable {tr tr' : Trace} {r : ApprovalRequest} {a a' : AccountRef} {calls calls' : List Call}
variable {chain chain' : ChainId} {p p' : InvokeV3Params} {x x' : Except WalletRpcError SignedInvoke}

/-- Two top-ups approved with one prompt are the same transfer exactly when the two requests name
the same token; it is the contract that is called, whatever the prompt says of STRK. -/
theorem fundingPrompt_binds (hname : req.method = Method.requestFunding.wire)
    (hname' : req'.method = Method.requestFunding.wire)
    (htr : Performs (dispatch K S token req) tr) (htr' : Performs (dispatch K S' token' req') tr')
    (hr : (⟨.requestApproval r, .approve⟩ : Event Op Ans) ∈ tr)
    (hr' : (⟨.requestApproval r, .approve⟩ : Event Op Ans) ∈ tr')
    (hop : (⟨.signInvoke a calls chain p, x⟩ : Event Op Ans) ∈ tr)
    (hop' : (⟨.signInvoke a' calls' chain' p', x'⟩ : Event Op Ans) ∈ tr') :
    (a.address = a'.address ∧ chain = chain' ∧ calls = calls' ↔
      fundingToken K req.params = fundingToken K req'.params) ∧
    ∀ call ∈ calls, fundingToken K req.params = some call.toAddr := by
  have hof : Method.ofString Method.requestFunding.wire = some .requestFunding := by decide +kernel
  obtain ⟨c, hc⟩ := shown_of_performs (hname ▸ hof) List.mem_cons_self htr hr rfl hop
  obtain ⟨c', hc'⟩ := shown_of_performs (hname' ▸ hof) List.mem_cons_self htr' hr' rfl hop'
  exact hc.funding_eq_iff hc' rfl

end Funding

def fundingRequest (token : String) : Request where
  id := .int 1
  method := "companion_requestFunding"
  params :=
    let bound := Json.obj [("max_amount", .int 1), ("max_price_per_unit", .int 1)]
    .obj [("amount", .int 5), ("token", .str token), ("nonce", .str "0x0"),
      ("resource_bounds", .obj [("l1_gas", bound), ("l2_gas", bound), ("l1_data_gas", bound)])]

def plainManager : AccountRef where
  domain := .user
  index := 0
  address := addressHex 1
  label := "manager"
  contract := .openZeppelin
  ownerClientId := none

def fundingPrompt : ApprovalRequest :=
  ⟨"bot (c1)", "companion_requestFunding",
    fundingText plainClient 5 .sepolia 0 (addressHex 1) (addressHex 7)⟩

def plainBounds : FeeBounds := ⟨⟨1, 1⟩, ⟨1, 1⟩, ⟨1, 1⟩⟩

theorem fundingRequest_prompts :
    (⟨.requestApproval fundingPrompt, .approve⟩ : Event Op Ans) ∈ plainRun (fundingRequest "0x4") ∧
      (⟨.requestApproval fundingPrompt, .approve⟩ : Event Op Ans) ∈ plainRun (fundingRequest "0x6") :=
  ⟨List.mem_of_getElem? (i := 6) rfl, List.mem_of_getElem? (i := 6) rfl⟩

theorem fundingRequest_signs :
    (∃ x, (⟨.signInvoke plainManager [transferCall plainCrates 4 7 5] .sepolia
        (signedWith 0 plainBounds), x⟩ : Event Op Ans) ∈ plainRun (fundingRequest "0x4")) ∧
      ∃ x, (⟨.signInvoke plainManager [transferCall plainCrates 6 7 5] .sepolia
        (signedWith 0 plainBounds), x⟩ : Event Op Ans) ∈ plainRun (fundingRequest "0x6") :=
  ⟨⟨_, List.mem_of_getElem? (i := 7) rfl⟩, _, List.mem_of_getElem? (i := 7) rfl⟩

/-- One prompt about STRK, two tokens. -/
theorem fundingPrompt_binds_tokens :
    ((plainManager.address = plainManager.address ∧ ChainId.sepolia = ChainId.sepolia ∧
        [transferCall plainCrates 4 7 5] = [transferCall plainCrates 6 7 5]) ↔
      fundingToken plainCrates (fundingRequest "0x4").params =
        fundingToken plainCrates (fundingRequest "0x6").params) ∧
    ∀ call ∈ [transferCall plainCrates 4 7 5],
      fundingToken plainCrates (fundingRequest "0x4").params = some call.toAddr := by
  obtain ⟨⟨_, hop⟩, _, hop'⟩ := fundingRequest_signs
  exact fundingPrompt_binds rfl rfl (performs_plainRun (fundingRequest "0x4"))
    (performs_plainRun (fundingRequest "0x6")) fundingRequest_prompts.1 fundingRequest_prompts.2
    hop hop'

/-- Two top-ups approved with one prompt that announces STRK, and the transfers signed call two
contracts, neither of them the STRK token. -/
theorem fundingPrompt_omits_token :
    let before := plainRun (fundingRequest "0x4")
    let after := plainRun (fundingRequest "0x6")
    Performs (dispatch plainCrates plainSetup (some "t") (fundingRequest "0x4")) before ∧
      Performs (dispatch plainCrates plainSetup (some "t") (fundingRequest "0x6")) after ∧
      (⟨.requestApproval fundingPrompt, .approve⟩ : Event Op Ans) ∈ before ∧
      (⟨.requestApproval fundingPrompt, .approve⟩ : Event Op Ans) ∈ after ∧
      (∃ x, (⟨.signInvoke plainManager [transferCall plainCrates 4 7 5] .sepolia
        (signedWith 0 plainBounds), x⟩ : Event Op Ans) ∈ before) ∧
      (∃ x, (⟨.signInvoke plainManager [transferCall plainCrates 6 7 5] .sepolia
        (signedWith 0 plainBounds), x⟩ : Event Op Ans) ∈ after) ∧
      transferCall plainCrates 4 7 5 ≠ transferCall plainCrates 6 7 5 ∧
      plainCrates.feltFromHex strkTokenAddress ≠ some 4 ∧
      plainCrates.feltFromHex strkTokenAddress ≠ some 6 :=
  ⟨performs_plainRun _, performs_plainRun _, fundingRequest_prompts.1, fundingRequest_prompts.2,
    fundingRequest_signs.1, fundingRequest_signs.2, by decide, by decide +kernel, by decide +kernel⟩

end Strkd.Service
