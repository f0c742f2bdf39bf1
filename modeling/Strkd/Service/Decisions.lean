import Strkd.Rpc.Mute
import Strkd.Service.Audit

/-!
# The decision column of the log

The decision of a request's row is worked out from its method and its result.  It tells what the
user or a grant decided, except for a request that was approved and then failed: that one is
recorded as if nothing had been asked.
-/

namespace Strkd.Service

open Wallet Prover Rpc

/-! ## What was decided -/

/-- An approval was asked for. -/
def Asked (tr : Trace) : Prop := ∃ r d, (⟨.requestApproval r, d⟩ : Event Op Ans) ∈ tr

/-- An active grant stood in for an approval. -/
def GrantUsed (tr : Trace) : Prop :=
  ∃ c method now, (⟨.clock (.gate c method), now⟩ : Event Op Ans) ∈ tr ∧ c.grantActive now = true

/-- An approval was obtained, from the user or through a grant. -/
def Obtained (tr : Trace) : Prop := Approved tr ∨ GrantUsed tr

/-- What the decision column of a request's row ought to say. -/
structure Truthful (tr : Trace) (decision : String) : Prop where
  rejected : decision = "rejected" ↔ Rejected tr
  approved : decision = "approved" ↔ Obtained tr
  none : decision = "n/a" ↔ ¬ Asked tr ∧ ¬ GrantUsed tr

section Events

variable {tr : Trace} {e : Event Op Ans}

theorem asked_iff : Asked tr ↔ Approved tr ∨ Rejected tr := by
  constructor
  · rintro ⟨r, d, h⟩
    cases d with
    | approve => exact Or.inl ⟨r, h⟩
    | reject => exact Or.inr ⟨r, h⟩
  · rintro (⟨r, h⟩ | ⟨r, h⟩)
    · exact ⟨r, _, h⟩
    · exact ⟨r, _, h⟩

theorem mem_append_of_ne {e' : Event Op Ans} (h : e' ≠ e) : e' ∈ tr ++ [e] ↔ e' ∈ tr := by
  simp [h]

/-- An event that is neither an approval nor the use of a grant obtains nothing. -/
theorem not_obtained_append (h : ¬ Obtained tr) (ha : ∀ r, ⟨.requestApproval r, .approve⟩ ≠ e)
    (hg : ∀ c method now, c.grantActive now = true → ⟨.clock (.gate c method), now⟩ ≠ e) :
    ¬ Obtained (tr ++ [e]) := by
  rintro (⟨r, hr⟩ | ⟨c, method, now, hc, hnow⟩)
  · exact h (Or.inl ⟨r, (mem_append_of_ne (ha r)).1 hr⟩)
  · exact h (Or.inr ⟨c, method, now, (mem_append_of_ne (hg c method now hnow)).1 hc, hnow⟩)

theorem Obtained.append (h : Obtained tr) : Obtained (tr ++ [e]) := by
  rcases h with ⟨r, hr⟩ | ⟨c, method, now, hc, hnow⟩
  · exact Or.inl ⟨r, List.mem_append_left _ hr⟩
  · exact Or.inr ⟨c, method, now, List.mem_append_left _ hc, hnow⟩

theorem obtained_append (h : asks e.1 = false) : Obtained (tr ++ [e]) ↔ Obtained tr := by
  refine ⟨fun ho => not_imp_not.1 (fun hn => not_obtained_append hn ?_ ?_) ho, Obtained.append⟩
  · rintro r rfl
    cases h
  · rintro c method now - rfl
    cases h

theorem rejected_append (h : asks e.1 = false) : Rejected (tr ++ [e]) ↔ Rejected tr := by
  refine exists_congr fun r => mem_append_of_ne fun he => ?_
  subst he
  cases h

end Events

/-- Nothing was asked so far. -/
def Unasked (tr : Trace) : Prop := ∀ e ∈ tr, asks e.1 = false

/-- Not about to ask the user, after a grant that was not active. -/
def Idle (tr : Trace) : Prop :=
  ∀ c method now, c.grantActive now = false → tr.getLast? ≠ some ⟨.clock (.gate c method), now⟩

/-- An approval was obtained, and none refused. -/
def Settled (tr : Trace) : Prop := ¬ Rejected tr ∧ Obtained tr ∧ Idle tr

/-- A property of traces that only approvals and grants can change. -/
def Mild (P : Trace → Prop) : Prop :=
  ∀ tr (e : Event Op Ans), asks e.1 = false → P tr → P (tr ++ [e])

section Traces

variable {tr : Trace} {e : Event Op Ans}

theorem Unasked.kept (h : Unasked tr) : ¬ Rejected tr := by
  rintro ⟨r, hr⟩
  cases h _ hr

theorem Unasked.unobtained (h : Unasked tr) : ¬ Obtained tr := by
  rintro (⟨r, hr⟩ | ⟨c, method, now, hc, -⟩)
  · cases h _ hr
  · cases h _ hc

theorem idle_append (h : asks e.1 = false) : Idle (tr ++ [e]) := by
  intro c method now _ hlast
  rw [List.getLast?_append, List.getLast?_singleton] at hlast
  cases hlast
  cases h

theorem idle_decided {r : ApprovalRequest} {d : Decision} :
    Idle (tr ++ [⟨.requestApproval r, d⟩]) := by
  intro c method now _ hlast
  rw [List.getLast?_append, List.getLast?_singleton] at hlast
  cases hlast

theorem idle_granted {client : PairedClient} {text : String} {now : U64}
    (h : client.grantActive now = true) : Idle (tr ++ [⟨.clock (.gate client text), now⟩]) := by
  intro c method now' hinactive hlast
  rw [List.getLast?_append, List.getLast?_singleton] at hlast
  cases hlast
  rw [h] at hinactive
  cases hinactive

theorem Unasked.idle (h : Unasked tr) : Idle tr := by
  intro c method now _ hlast
  cases h _ (List.mem_of_getLast? hlast)

theorem mild_unasked : Mild Unasked := by
  intro tr e he h e' he'
  rcases List.mem_append.1 he' with he' | he'
  · exact h e' he'
  · rwa [List.mem_singleton.1 he']

theorem mild_settled : Mild Settled := fun _ _ he h =>
  ⟨fun hr => h.1 ((rejected_append he).1 hr), (obtained_append he).2 h.2.1, idle_append he⟩

end Traces

/-! ## Handlers that ask once -/

/-- A request looks for an approval once: it reads the clock at its gate, if it has one, and asks
the user right after if the grant is not active. -/
def Orderly (tr : Trace) : Op → Prop
  | .clock (.gate _ _) => Unasked tr
  | .requestApproval r => Unasked tr ∨ ∃ before c now, Unasked before ∧
      tr = before ++ [⟨.clock (.gate c r.method), now⟩] ∧ c.grantActive now = false ∧
      r.clientLabel = c.fullLabel
  | _ => Idle tr

theorem orderly_of_mute {tr : Trace} {op : Op} (h : asks op = false) (hi : Idle tr) :
    Orderly tr op := by
  cases op with
  | requestApproval r => cases h
  | clock use =>
      cases use with
      | gate c method => cases h
      | _ => exact hi
  | _ => exact hi

/-- The signer answers with its own errors. -/
def candidRules : Rules Op Ans where
  allows := Orderly
  legal _ := candid

/-- An error reports a refusal exactly if the user refused, and then nothing was obtained. -/
def Reports (tr : Trace) (e : WalletRpcError) : Prop :=
  (e = .userRefused → Rejected tr ∧ ¬ Obtained tr) ∧ (e ≠ .userRefused → ¬ Rejected tr) ∧ Idle tr

/-- A value is answered only with an approval, an error reports what the user decided. -/
abbrev Settles {α : Type} (tr : Trace) (m : Serve α) : Prop :=
  Serves candidRules tr m (fun tr' _ => Settled tr') Reports

section Stages

variable {tr : Trace} {α β : Type}

/-- A mute computation decides nothing. -/
theorem safe_muteProg {P : Trace → Prop} (hP : Mild P) (hidle : ∀ tr, P tr → Idle tr)
    {p : Prog Op Ans (Except WalletRpcError α)} (h : MuteProg p) (h0 : P tr) :
    Safe candidRules tr p fun tr' (r : Except WalletRpcError α) => P tr' ∧ NoRefusal r := by
  induction p generalizing tr with
  | pure r => exact ⟨h0, h⟩
  | step op next ih =>
      exact ⟨orderly_of_mute h.1 (hidle tr h0),
        fun a ha => ih a (h.2 a ha) (hP tr ⟨op, a⟩ h.1 h0)⟩

theorem serves_mute {P : Trace → Prop} (hP : Mild P) (hidle : ∀ tr, P tr → Idle tr)
    {m : Serve α} (h : Mute m) (h0 : P tr) :
    Serves candidRules tr m (fun tr' _ => P tr') fun tr' e => P tr' ∧ e ≠ .userRefused := by
  refine (safe_muteProg hP hidle h h0).mono fun tr' r _ hr => ?_
  cases r with
  | ok a => exact hr.1
  | error e => exact ⟨hr.1, NoRefusal.error_iff.1 hr.2⟩

/-- First something mute, then the rest. -/
theorem Settles.mute {m : Serve α} {f : α → Serve β} (h : Unasked tr) (hm : Mute m)
    (hf : ∀ tr' a, Unasked tr' → Settles tr' (f a)) : Settles tr (m >>= f) := by
  refine Serves.bind ((serves_mute mild_unasked (fun _ h => h.idle) hm h).weaken
    (fun _ _ _ h => h) ?_) fun tr' a _ h => hf tr' a h
  exact fun tr' e _ he => ⟨fun h => absurd h he.2, fun _ => he.1.kept, he.1.idle⟩

/-- Once settled, something mute. -/
theorem Settles.rest {m : Serve α} (h : Settled tr) (hm : Mute m) : Settles tr m :=
  (serves_mute mild_settled (fun _ h => h.2.2) hm h).weaken (fun _ _ _ h => h)
    fun _ _ _ he => ⟨fun h => absurd h he.2, fun _ => he.1.1, he.1.2.2⟩

/-- A refusal that does not happen, then the rest. -/
theorem Settles.refuse {c : Prop} [Decidable c] {e : WalletRpcError} {f : Unit → Serve β}
    (h : Unasked tr) (he : e ≠ .userRefused) (hf : ¬ c → Settles tr (f ())) :
    Settles tr (if c then MonadExcept.throw e >>= f else f ()) := by
  by_cases hc : c
  · rw [if_pos hc]
    exact Serves.bind (Q := fun _ _ => False)
      (serves_throw ⟨fun h => absurd h he, fun _ => h.kept, h.idle⟩) fun _ _ _ h => h.elim
  · rw [if_neg hc]
    exact hf hc

theorem settles_throw {e : WalletRpcError} (h : Unasked tr) (he : e ≠ .userRefused) :
    Settles tr (throw e : Serve α) :=
  serves_throw ⟨fun h => absurd h he, fun _ => h.kept, h.idle⟩

/-- First the user's decision, then the rest. -/
theorem serves_ask {label method summary : String} {f : Unit → Serve β} {Q : Trace → β → Prop}
    {E : Trace → WalletRpcError → Prop} (hk : ¬ Rejected tr) (ho : ¬ Obtained tr)
    (hop : Orderly tr (.requestApproval ⟨label, method, summary⟩))
    (hE : ∀ tr', Rejected tr' → ¬ Obtained tr' → Idle tr' → E tr' .userRefused)
    (hf : ∀ tr', Settled tr' → Serves candidRules tr' (f ()) Q E) :
    Serves candidRules tr (askUser label method summary >>= fun d => liftM (confirmed d) >>= f)
      Q E := by
  refine Serves.act hop fun d _ => ?_
  cases d with
  | reject =>
      refine serves_throw (hE _ ⟨_, List.mem_append_right _ List.mem_cons_self⟩ ?_ idle_decided)
      apply not_obtained_append ho
      · exact fun r hr => by cases hr
      · exact fun c method now _ hr => by cases hr
  | approve =>
      refine hf _ ⟨?_, Or.inl ⟨_, List.mem_append_right _ List.mem_cons_self⟩, idle_decided⟩
      exact not_rejected_append hk fun r hr => by cases hr

theorem Settles.ask {label method summary : String} {f : Unit → Serve β} (h : Unasked tr)
    (hf : ∀ tr', Settled tr' → Settles tr' (f ())) :
    Settles tr (askUser label method summary >>= fun d => liftM (confirmed d) >>= f) :=
  serves_ask h.kept h.unobtained (Or.inl h)
    (fun _ hr ho hi => ⟨fun _ => ⟨hr, ho⟩, fun he => absurd rfl he, hi⟩) hf

/-- First an approval that honors a grant, then the rest. -/
theorem Settles.gate {client : PairedClient} {method summary : String} {f : Unit → Serve β}
    (h : Unasked tr) (hf : ∀ tr', Settled tr' → Settles tr' (f ())) :
    Settles tr (gatedApproval client method summary >>= fun d => liftM (confirmed d) >>= f) := by
  unfold gatedApproval
  rw [bind_assoc]
  refine Serves.act h fun now _ => ?_
  by_cases hg : client.grantActive now = true
  · simp only [hg, if_true, pure_bind]
    refine hf _ ⟨?_, Or.inr ⟨client, method, now, List.mem_append_right _ List.mem_cons_self, hg⟩,
      idle_granted hg⟩
    exact not_rejected_append h.kept fun r hr => by cases hr
  · simp only [hg]
    have hinactive : client.grantActive now = false := Bool.eq_false_iff.2 hg
    refine serves_ask (not_rejected_append h.kept ?_) ?_
      (Or.inr ⟨tr, client, now, h, rfl, hinactive, rfl⟩)
      (fun _ hr ho hi => ⟨fun _ => ⟨hr, ho⟩, fun he => absurd rfl he, hi⟩) hf
    · exact fun r hr => by cases hr
    · apply not_obtained_append h.unobtained
      · exact fun r hr => by cases hr
      · intro c method' now' hactive heq
        cases heq
        exact hg hactive

end Stages

/-! ## The handlers -/

section Handlers

open Rpc.Strk20

variable {K : Crates} {S : Setup} {tr : Trace} {client : PairedClient} {params : Json}

theorem settles_handleSignTypedData (h : Unasked tr) :
    Settles tr (handleSignTypedData K client params) := by
  refine .mute h (.lift (noRefusal_paramStr _ _)) fun tr _ h =>
    .mute h (.lift (noRefusal_normalizeAddress K _)) fun tr want h =>
    .mute h (.lift (noRefusal_typedDataJson _)) fun tr document h =>
    .mute h (mute_scopedAccount ..) fun tr account h => .gate h fun tr h => .rest h ?_
  exact .act rfl fun _ ha => .bind (.propagate ha) fun _ => .pure _

theorem settles_handleAddInvoke (h : Unasked tr) : Settles tr (handleAddInvoke K client params) := by
  refine .mute h (.lift (noRefusal_paramStr _ _)) fun tr _ h =>
    .mute h (.lift (noRefusal_normalizeAddress K _)) fun tr want h =>
    .mute h (.lift (noRefusal_parseCalls K _)) fun tr calls h =>
    .mute h (.lift (noRefusal_parseProofFacts K _)) fun tr proofFacts h =>
    .mute h (.lift (noRefusal_parseProof _)) fun tr proof h => .refuse h (by simp) fun _ =>
    .mute h (mute_scopedAccount ..) fun tr account h =>
    .mute h (.lift (noRefusal_senderOf K _)) fun tr sender h =>
    .mute h (mute_resolveChain ..) fun tr chain h =>
    .mute h (mute_resolveExec ..) fun tr ⟨nonce, bounds⟩ h => .gate h fun tr h => .rest h ?_
  exact mute_signAndSubmit ..

theorem settles_handleAddDeclare (h : Unasked tr) :
    Settles tr (handleAddDeclare K client params) := by
  refine .mute h (.lift (noRefusal_paramStr _ _)) fun tr _ h =>
    .mute h (.lift (noRefusal_normalizeAddress K _)) fun tr want h =>
    .mute h (mute_scopedAccount ..) fun tr account h =>
    .mute h (.lift (noRefusal_senderOf K _)) fun tr sender h =>
    .mute h (.lift (noRefusal_parseContractClass K _)) fun tr contractClass h =>
    .mute h (.lift (noRefusal_parseClassHash K _)) fun tr given h =>
    .mute h (.lift (noRefusal_declaredClassHash K _ _)) fun tr classHash h =>
    .mute h (.lift (noRefusal_parseCompiledClassHash K _)) fun tr compiled h =>
    .mute h (mute_resolveChain ..) fun tr chain h =>
    .mute h (mute_resolveNonce ..) fun tr nonce h =>
    .mute h (mute_declareBounds ..) fun tr bounds h => .gate h fun tr h => .rest h ?_
  exact mute_signAndDeclare ..

theorem settles_handleSignAndProve (h : Unasked tr) :
    Settles tr (handleSignAndProve K S client params) := by
  refine .mute h (.lift (noRefusal_requireProver S)) fun tr _ h =>
    .mute h (.lift (noRefusal_paramStr _ _)) fun tr _ h =>
    .mute h (.lift (noRefusal_normalizeAddress K _)) fun tr want h =>
    .mute h (.lift (noRefusal_parseCalls K _)) fun tr calls h =>
    .mute h (mute_resolveChain ..) fun tr chain h =>
    .mute h (mute_scopedAccount ..) fun tr account h =>
    .mute h (.lift (noRefusal_senderOf K _)) fun tr sender h =>
    .mute h (mute_resolveNonce ..) fun tr nonce h =>
    .mute h (.lift (noRefusal_optFeeBounds _)) fun tr bounds h => ?_
  cases bounds with
  | none => exact settles_throw h (by simp)
  | some bounds => exact .gate h fun tr h => .rest h (mute_signAndEnqueue ..)

theorem settles_handleRequestGrant (h : Unasked tr) :
    Settles tr (handleRequestGrant client params) :=
  .ask h fun _ h => .rest h (.bind (.one rfl) fun _ => .bind (.one rfl) fun _ => .pure _)

theorem settles_handleSwitchChain (h : Unasked tr) :
    Settles tr (handleSwitchChain K client params) := by
  refine .mute h (.lift (noRefusal_paramStr _ _)) fun tr chainId h => ?_
  split
  · split
    · exact .ask h fun _ h => .rest h (.bind (.one rfl) fun _ => .pure _)
    · exact settles_throw h (by simp)
  · exact settles_throw h (by simp)

theorem settles_handleWatchAsset (h : Unasked tr) :
    Settles tr (handleWatchAsset client params) := by
  unfold handleWatchAsset
  dsimp only
  split
  · exact .ask h fun _ h => .rest h (.bind (.one rfl) fun _ => .pure _)
  · exact settles_throw h (by simp)

theorem settles_handleRequestFunding (h : Unasked tr) :
    Settles tr (handleRequestFunding K client params) := by
  unfold handleRequestFunding
  refine .refuse h (by simp) fun _ => ?_
  refine .mute h (.lift (noRefusal_parseU128Field _ _)) fun tr amount h =>
    .refuse h (by simp) fun _ => ?_
  dsimp only
  split
  · refine .mute h (.lift (noRefusal_fundingSourceIndex _)) fun tr index h =>
      .mute h (mute_scopedAccountOr K _ _ (by simp)) fun tr recipient h =>
      .mute h (.lift (noRefusal_senderOf K _)) fun tr toAddr h =>
      .mute h (.one rfl) fun tr s h =>
      .mute h (.lift (noRefusal_managerAccount K s index)) fun tr manager h => ?_
    split
    · refine .mute h (mute_resolveChain ..) fun tr chain h =>
        .mute h (mute_requireDeployed ..) fun tr _ h =>
        .mute h (mute_resolveExec ..) fun tr ⟨nonce, bounds⟩ h => .ask h fun tr h => .rest h ?_
      exact .bind (mute_signAndSubmit ..) fun _ => .pure _
    · exact settles_throw h (by simp)
  · exact settles_throw h (by simp)

theorem settles_handleDeployAccount (h : Unasked tr) :
    Settles tr (handleDeployAccount K client params) := by
  refine .mute h (mute_scopedAccountOr K _ _ (by simp)) fun tr account h =>
    .mute h (mute_resolveChain ..) fun tr chain h =>
    .mute h (mute_requireUndeployed ..) fun tr _ h => .mute h (.one rfl) fun tr s h =>
    .mute h (.lift (noRefusal_deploymentDataFor K s account)) fun tr d h =>
    .mute h (mute_deployBounds ..) fun tr bounds h => .gate h fun tr h => .rest h ?_
  exact mute_signAndDeploy ..

theorem settles_handleCreateAgentAccount (h : Unasked tr) :
    Settles tr (handleCreateAgentAccount K S client params) := by
  unfold handleCreateAgentAccount
  exact .refuse h (by simp) fun _ => .gate h fun _ h => .rest h (mute_create ..)

/-! ### Private batches -/

theorem settles_prepare {method : String} {c : Ctx} {intent : Strkd.Strk20.Intent}
    {proving : Proving} {submission : String} (h : Unasked tr) :
    Settles tr (prepare K S (.rpc client) method c intent proving submission) := by
  refine .mute h (.lift (noRefusal_requireProver S)) fun tr _ h =>
    .mute h (mute_blockNumber c) fun tr head h => .mute h (mute_viewingKey c) fun tr userSk h =>
    .mute h (mute_freshPlan ..) fun tr plan h => ?_
  unfold Rpc.Strk20.Caller.approve
  dsimp only
  rw [bind_assoc]
  exact .gate h fun tr h => .rest h (mute_signAndProveBatch ..)

/-- First something that settles, then something mute. -/
theorem Settles.andThen {α β : Type} {m : Serve α} {f : α → Serve β} (h : Settles tr m)
    (hf : ∀ a, Mute (f a)) : Settles tr (m >>= f) :=
  Serves.bind h fun _ a _ h => Settles.rest h (hf a)

theorem settles_balances (h : Unasked tr) : Settles tr (balances K S (.rpc client) params) := by
  refine .mute h (.lift (noRefusal_parseTokens K _)) fun tr tokens h =>
    .mute h (mute_ctx ..) fun tr c h => ?_
  unfold Rpc.Strk20.Caller.approve
  dsimp only
  rw [bind_assoc]
  exact .gate h fun tr h => .rest h (mute_revealed K c tokens)

theorem settles_register (h : Unasked tr) : Settles tr (register K S (.rpc client) params) := by
  refine .mute h (mute_ctx ..) fun tr c h =>
    .mute h (mute_fromPool (confined_registeredKey K (quiet_reader ..) _)) fun tr key h =>
    .refuse h (by simp) fun _ => ?_
  exact (settles_prepare h).andThen fun prepared =>
    .bind (mute_submitFromAccount ..) fun _ => .pure _

theorem settles_prepareInvoke (h : Unasked tr) :
    Settles tr (prepareInvoke K S (.rpc client) params) := by
  refine .mute h (.lift (noRefusal_parseActions K _)) fun tr actions h =>
    .mute h (mute_ctx ..) fun tr c h =>
    .mute h (.lift (noRefusal_provingFor c actions)) fun tr proving h => ?_
  exact (settles_prepare h).andThen fun _ => .pure _

theorem settles_invokeTransaction (h : Unasked tr) :
    Settles tr (invokeTransaction K S (.rpc client) params) := by
  refine .mute h (.lift (noRefusal_parseActions K _)) fun tr actions h =>
    .mute h (mute_ctx ..) fun tr c h => ?_
  split
  · unfold invokeDeposit
    refine .refuse h (by simp) fun _ => .mute h (.lift (noRefusal_provingFor c actions))
      fun tr proving h => .mute h (mute_checkPublicFunds ..) fun tr _ h => ?_
    exact (settles_prepare h).andThen fun prepared =>
      .bind (mute_submitFromAccount ..) fun _ => .pure _
  · unfold invokeRelayed
    refine .refuse h (by simp) fun _ =>
      .mute h (.mapErr (quiet_quote ..) (by simp)) fun tr fee h => ?_
    have hprepared : ∀ method intent submission, Settles tr (mapErr (withRelayFee fee)
        (prepare K S (.rpc client) method c intent .local submission)) := by
      intro method intent submission
      refine Serves.mapErr ((settles_prepare h).weaken (fun _ _ _ h => h) fun tr e _ he => ?_)
      exact ⟨fun h => he.1 ((withRelayFee_ne fee e).1 h),
        fun h => he.2.1 fun he => h ((withRelayFee_ne fee e).2 he), he.2.2⟩
    exact (hprepared _ _ _).andThen fun prepared =>
      .bind (.mapErr (quiet_execute ..) (by simp)) fun _ => .pure _

end Handlers

/-! ## Every request -/

section Requests

variable {K : Crates} {S : Setup} {tr : Trace} {client : PairedClient} {req : Request}

theorem settles_serve {m : Method} (hm : m.reportsDecision = true) (h : Unasked tr) :
    Settles tr (serve K S client req (some m)) := by
  cases m with
  | signTypedData => exact settles_handleSignTypedData h
  | addInvokeTransaction => exact settles_handleAddInvoke h
  | addDeclareTransaction => exact settles_handleAddDeclare h
  | createAgentAccount => exact settles_handleCreateAgentAccount h
  | switchStarknetChain => exact settles_handleSwitchChain h
  | watchAsset => exact settles_handleWatchAsset h
  | requestGrant => exact settles_handleRequestGrant h
  | requestFunding => exact settles_handleRequestFunding h
  | deployAccount => exact settles_handleDeployAccount h
  | signAndProve => exact settles_handleSignAndProve h
  | strk20Balances => exact settles_balances h
  | strk20PrepareInvoke => exact settles_prepareInvoke h
  | strk20InvokeTransaction => exact settles_invokeTransaction h
  | strk20Register => exact settles_register h
  | _ => cases hm

theorem quiet_serve {m : Option Method} (hm : m.any Method.reportsDecision = false) :
    Quiet (serve K S client req m) := by
  cases m with
  | none => exact .throw _
  | some m =>
      cases m with
      | requestChainId => exact quiet_handleRequestChainId
      | requestAccounts | listAccounts => exact quiet_handleAccounts ..
      | deploymentData => exact quiet_handleDeploymentData ..
      | fundingSource => exact quiet_handleFundingSource _
      | reportIssue | typedDataHash => exact quiet_propagate _
      | estimateFee => exact quiet_handleEstimateFee ..
      | prove => exact quiet_handleProve ..
      | proveStatus => exact quiet_handleProveStatus ..
      | proofActivity => exact quiet_handleProofActivity _
      | _ => first | exact .throw _ | cases hm

/-- The decision tells what was decided, unless an approval was obtained for nothing. -/
def Fits (tr : Trace) (handled : Handled) : Prop :=
  Truthful tr handled.decision ↔ (Obtained tr → ∃ v, handled.result = .ok v)

theorem truthful_none (hr : ¬ Rejected tr) (ho : ¬ Obtained tr) : Truthful tr "n/a" where
  rejected := by simp [hr]
  approved := by simp [ho]
  none := by
    refine iff_of_true rfl ⟨fun ha => ?_, fun hg => ho (Or.inr hg)⟩
    exact (asked_iff.1 ha).elim (fun ha => ho (Or.inl ha)) hr

theorem Settled.truthful (h : Settled tr) : Truthful tr "approved" where
  rejected := by simp [h.1]
  approved := by simp [h.2.1]
  none := by
    refine iff_of_false (by simp) fun hn => ?_
    exact h.2.1.elim (fun ha => hn.1 (asked_iff.2 (Or.inl ha))) hn.2

theorem truthful_rejected (h : Rejected tr) (ho : ¬ Obtained tr) : Truthful tr "rejected" where
  rejected := by simp [h]
  approved := by simp [ho]
  none := iff_of_false (by simp) fun hn => hn.1 (asked_iff.2 (Or.inr h))

theorem Unasked.fits {handled : Handled} (h : Unasked tr) (hd : handled.decision = "n/a") :
    Fits tr handled ∧ Idle tr :=
  ⟨iff_of_true (hd ▸ truthful_none h.kept h.unobtained) fun ho => absurd ho h.unobtained, h.idle⟩

/-- A row that says that nothing was asked is right only if nothing was obtained. -/
theorem fits_error {handled : Handled} {e : WalletRpcError} (hr : ¬ Rejected tr)
    (hd : handled.decision = "n/a") (he : handled.result = .error e) : Fits tr handled := by
  refine ⟨fun ht ho => ?_, fun hok => ?_⟩
  · have := ht.approved.2 ho
    rw [hd] at this
    simp at this
  · have ho : ¬ Obtained tr := fun ho => by
      obtain ⟨v, hv⟩ := hok ho
      rw [he] at hv
      cases hv
    exact hd ▸ truthful_none hr ho

theorem fits_decisionLabel {r : Except WalletRpcError Json} {label : Option String}
    (h : Ends (fun tr' _ => Settled tr') Reports tr r) :
    Fits tr ⟨r, decisionLabel r, label⟩ ∧ Idle tr := by
  cases r with
  | ok v => exact ⟨iff_of_true (Settled.truthful h) fun _ => ⟨v, rfl⟩, h.2.2⟩
  | error e =>
      by_cases he : e = .userRefused
      · subst he
        obtain ⟨hr, ho⟩ := h.1 rfl
        exact ⟨iff_of_true (truthful_rejected hr ho) fun h => absurd h ho, h.2.2⟩
      · refine ⟨fits_error (e := e) (h.2.1 he) ?_ rfl, h.2.2⟩
        cases e with
        | userRefused => exact absurd rfl he
        | _ => rfl

theorem safe_handlePaired_fits {m : Option Method} (h : Unasked tr) :
    Safe candidRules tr (handlePaired K S client req m) fun tr' handled =>
      Fits tr' handled ∧ Idle tr' := by
  unfold handlePaired
  split
  · exact h.fits rfl
  · by_cases hm : m.any Method.reportsDecision = true
    · cases m with
      | none => cases hm
      | some m =>
          refine Safe.bind (settles_serve hm h) fun tr' r _ hr => ?_
          rw [if_pos hm]
          exact fits_decisionLabel hr
    · have hq : Quiet (serve K S client req m) := quiet_serve (Bool.eq_false_iff.2 hm)
      refine Safe.bind (Only.safe hq (fun _ _ hu hop => orderly_of_mute (asks_of_quiet hop) hu.idle)
        (fun tr op a hu hop => mild_unasked tr ⟨op, a⟩ (asks_of_quiet hop) hu) h)
        fun tr' r _ hu => ?_
      rw [if_neg hm]
      exact hu.fits rfl

/-- The user refused, and nothing was obtained. -/
def Refused (tr : Trace) : Prop := Rejected tr ∧ ¬ Obtained tr ∧ Idle tr

theorem serves_reattachClient {name : String} {kind : ClientKind} {id : String}
    (h : Unasked tr) : Serves candidRules tr (reattachClient name kind id)
      (fun tr' _ => Settled tr') fun tr' _ => Refused tr' := by
  refine Serves.bind (Q := fun tr' _ => Unasked tr') ?_ fun tr' n _ h =>
    serves_ask h.kept h.unobtained (Or.inl h) (fun _ hr ho hi => ⟨hr, ho, hi⟩) fun tr' h =>
      Serves.act h.2.2 fun answer _ => ?_
  · refine Serves.act h.idle fun s _ => ?_
    split <;> exact serves_pure (mild_unasked _ _ rfl h)
  · cases answer with
    | some client => exact serves_pure (mild_settled _ _ rfl h)
    | none => exact ⟨idle_append rfl, fun crashed _ => nomatch crashed⟩

theorem serves_pairClient {name : String} {kind : ClientKind} (h : Unasked tr) :
    Serves candidRules tr (pairClient name kind) (fun tr' _ => Settled tr')
      fun tr' _ => Refused tr' :=
  serves_ask h.kept h.unobtained (Or.inl h) (fun _ hr ho hi => ⟨hr, ho, hi⟩) fun _ h =>
    Serves.act h.2.2 fun _ _ =>
    serves_pure (mild_settled _ _ rfl h)

/-- A pairing is answered with an approval, or refused by the user. -/
theorem serves_handlePairing {params : Json} (h : Unasked tr) :
    Serves candidRules tr (handlePairing params) (fun tr' _ => Settled tr')
      fun tr' _ => Refused tr' := by
  unfold handlePairing
  dsimp only
  split
  · refine Serves.act h.idle fun existing _ => ?_
    have hu := mild_unasked tr ⟨_, existing⟩ rfl h
    cases existing with
    | some id => exact serves_reattachClient hu
    | none => exact serves_pairClient hu
  · exact serves_pairClient h

theorem safe_verifyToken_unasked {token : Option String} (h : Unasked tr) :
    Safe candidRules tr (verifyToken token) fun tr' _ => Unasked tr' := by
  cases token with
  | none => exact h
  | some token => exact ⟨h.idle, fun r _ => mild_unasked _ _ rfl h⟩

theorem safe_handle_fits {token : Option String} (h : Unasked tr) :
    Safe candidRules tr (handle K S token req) fun tr' handled => Fits tr' handled ∧ Idle tr' := by
  unfold handle
  split
  · exact h.fits rfl
  · exact h.fits rfl
  · exact Safe.bind (safe_verifyToken_unasked h) fun _ _ _ h => h.fits rfl
  · refine Safe.bind (Q := fun tr' _ => Unasked tr')
      (Safe.bind (safe_verifyToken_unasked h) fun tr' r _ h => ?_) fun tr' grant _ h => ?_
    · cases r with
      | none => exact h
      | some client => exact ⟨h.idle, fun now _ => mild_unasked _ ⟨_, now⟩ rfl h⟩
    · exact ⟨h.idle, fun s _ => (mild_unasked _ ⟨_, s⟩ rfl h).fits rfl⟩
  · refine Safe.bind (serves_handlePairing h) fun tr' r _ hr => ?_
    cases r with
    | ok v => exact ⟨iff_of_true (Settled.truthful hr) fun _ => ⟨v, rfl⟩, hr.2.2⟩
    | error e =>
        exact ⟨iff_of_true (truthful_rejected hr.1 hr.2.1) fun ho => absurd ho hr.2.1, hr.2.2⟩
  · refine Safe.bind (safe_verifyToken_unasked h) fun tr' r _ h => ?_
    cases r with
    | none => exact h.fits rfl
    | some client => exact safe_handlePaired_fits h

/-- The last thing a request does is to have its row written. -/
def RowWritten (req : Request) (tr : Trace) (r : Response) : Prop :=
  ∃ before entry written, tr = before ++ [⟨.record entry, written⟩] ∧ entry.method = req.method ∧
    (Truthful tr entry.decision ↔ (Obtained tr → ∃ v, r.outcome = .ok v))

theorem truthful_append {e : Event Op Ans} {decision : String} (h : asks e.1 = false) :
    Truthful (tr ++ [e]) decision ↔ Truthful tr decision := by
  have hr : Rejected (tr ++ [e]) ↔ Rejected tr := rejected_append h
  have ho : Obtained (tr ++ [e]) ↔ Obtained tr := obtained_append h
  have hn : ¬ Asked (tr ++ [e]) ∧ ¬ GrantUsed (tr ++ [e]) ↔ ¬ Asked tr ∧ ¬ GrantUsed tr := by
    have hboth : ∀ tr, (¬ Asked tr ∧ ¬ GrantUsed tr) ↔ ¬ Rejected tr ∧ ¬ Obtained tr := by
      intro tr
      rw [asked_iff]
      unfold Obtained
      tauto
    rw [hboth, hboth, hr, ho]
  exact ⟨fun t => ⟨t.rejected.trans hr, t.approved.trans ho, t.none.trans hn⟩,
    fun t => ⟨t.rejected.trans hr.symm, t.approved.trans ho.symm, t.none.trans hn.symm⟩⟩

theorem Fits.append {e : Event Op Ans} {handled : Handled} (h : Fits tr handled)
    (he : asks e.1 = false) : Fits (tr ++ [e]) handled := by
  unfold Fits
  rw [truthful_append he, obtained_append he]
  exact h

theorem safe_dispatch_row {token : Option String} :
    Safe candidRules [] (dispatch K S token req) fun tr r => RowWritten req tr r := by
  have hnone : Unasked [] := fun e he => nomatch he
  refine Safe.bind (p := carryOut .touchActivity) (Q := fun tr _ => Unasked tr)
    ⟨hnone.idle, fun now _ => mild_unasked [] ⟨.touchActivity, now⟩ rfl hnone⟩ fun tr _ _ h =>
    Safe.bind (safe_handle_fits h) fun tr handled _ ⟨h, hidle⟩ => ?_
  refine ⟨hidle, fun s _ => ⟨idle_append rfl, fun logged _ => ⟨idle_append rfl, fun latency _ =>
    ⟨idle_append rfl, fun written _ => ?_⟩⟩⟩⟩
  have hfits : ∀ entry, Fits (tr ++ [⟨.session, s⟩] ++ [⟨.clock .log, logged⟩] ++
      [⟨.elapsed, latency⟩] ++ [⟨.record entry, written⟩]) handled := fun entry =>
    (((h.append rfl).append rfl).append rfl).append rfl
  cases hres : handled.result with
  | ok v =>
      refine ⟨_, _, _, rfl, rfl, (hfits _).trans ?_⟩
      exact imp_congr_right fun _ => iff_of_true ⟨v, hres⟩ ⟨v, rfl⟩
  | error e =>
      refine ⟨_, _, _, rfl, rfl, (hfits _).trans (imp_congr_right fun _ => ?_)⟩
      refine iff_of_false (fun ⟨v, hv⟩ => ?_) fun ⟨v, hv⟩ => by cases hv
      rw [hres] at hv
      cases hv

end Requests

/-! ## In every run -/

/-- How a task ends: a request with its row. -/
def EndsWithRow : Task → Trace → Reply → Prop
  | .request _ req, tr, reply => ∃ r, reply = .response r ∧ RowWritten req tr r
  | _, _, _ => True

/-- The rules of a request; the other tasks have none. -/
def rowRules : Task → Rules Op Ans
  | .request _ _ => candidRules
  | _ => noRules

theorem safe_start_row {K : Crates} {S : Setup} (task : Task) :
    Safe (rowRules task) [] (task.start K S) (EndsWithRow task) := by
  cases task with
  | request token req => exact Safe.bind safe_dispatch_row fun _ r _ h => ⟨r, rfl, h⟩
  | command c => exact safe_noRules fun _ _ => trivial
  | proving task => exact safe_noRules fun _ _ => trivial

/-- The sessions of the wallet answer candidly. -/
theorem candid_of_exec {K : Crates} {w w' : World} {pid : ℕ} {op : Op} {a : Ans op}
    (h : World.Exec K w pid op a w') : candid op a := by
  have ha := h.answers
  cases op with
  | signTypedData account document =>
      exact ha.2 ▸ noRefusal_signTypedDataFor K w.session account document
  | signInvoke account calls chain p =>
      exact ha.2 ▸ noRefusal_signInvokeFor K w.session account calls chain p
  | signDeclare account classHash compiled chain p =>
      exact ha.2 ▸ noRefusal_signDeclareFor K w.session account classHash compiled chain p
  | signDeployAccount account chain p =>
      exact ha.2 ▸ noRefusal_signDeployAccountFor K w.session account chain p
  | signHash account hash => exact ha.2 ▸ noRefusal_signHashFor K w.session account hash
  | viewingKey account chain pool =>
      exact ha.2 ▸ noRefusal_viewingKeyFor K w.session account chain pool
  | createAgentAccount id label =>
      exact ha.2 ▸ (noRefusal_createAgentAccount K w.session id label).map Prod.fst
  | _ => trivial

section

variable {K : Crates} {S : Setup} {init : State → Prop} {C : State → Act → Prop} {s : State}

theorem endsWithRow_reach (h : Sys.Reach (service K S) init C s)
    (hinit : ∀ s, init s → s.procs = []) : s.Safe rowRules EndsWithRow := by
  refine h.invariant (fun s hs pid p hp => ?_) fun s m s' _ hsafe _ hs =>
    hsafe.step hs safe_start_row fun _ p _ _ _ _ _ hx => ?_
  · rw [hinit s hs] at hp
    cases hp
  · cases p.task with
    | request token req => exact candid_of_exec hx
    | command c => trivial
    | proving task => trivial

/-- In every state reached a request looks for an approval once. -/
theorem orderly_reach (h : Sys.Reach (service K S) init C s) (hinit : ∀ s, init s → s.procs = [])
    {pid : ℕ} {p : Proc} {token : Option String} {req : Request} {op : Op}
    {next : Ans op → Prog Op Ans Reply} (hp : s.procs[pid]? = some p)
    (ht : p.task = .request token req) (hr : p.rest = some (.step op next)) :
    Orderly p.trace op := by
  have hallowed := (endsWithRow_reach h hinit).allows hp hr
  rw [ht] at hallowed
  exact hallowed

/-- In every run a request that was answered has tried to insert one row of its method, which is in
the log if the insert went well, and which tells what was decided exactly if the request was not
one that obtained an approval and then failed. -/
theorem decision_truthful_iff (h : Sys.Reach (service K S) init C s)
    (hinit : ∀ s, init s → s.procs = []) {pid : ℕ} {p : Proc} {token : Option String}
    {req : Request} {r : Response} (hp : s.procs[pid]? = some p)
    (htask : p.task = .request token req) (hdone : p.rest = some (.pure (.response r))) :
    ∃ before entry written, p.trace = before ++ [⟨.record entry, written⟩] ∧
      entry.method = req.method ∧ (written = true → s.world.recorded entry ∈ s.world.log) ∧
      (Truthful p.trace (s.world.recorded entry).decision ↔
        (Obtained p.trace → ∃ v, r.outcome = .ok v)) := by
  have hend := endsWithRow_reach h hinit pid p hp _ hdone
  rw [htask] at hend
  obtain ⟨_, hreply, before, entry, written, htrace, hmethod, hfits⟩ := hend
  cases hreply
  have hrow : written = true → s.world.recorded entry ∈ s.world.log := by
    rintro rfl
    refine rowsKept_reach h hinit pid entry ?_
    rw [Sys.traceAt_eq hp, htrace]
    exact List.mem_append_right _ List.mem_cons_self
  have hdecision : (s.world.recorded entry).decision = entry.decision := by
    unfold World.recorded
    split_ifs <;> rfl
  exact ⟨before, entry, written, htrace, hmethod, hrow, by rw [hdecision]; exact hfits⟩

end

/-! ## A request under a grant -/

def usesGrant : Event Op Ans → Bool
  | ⟨.clock (.gate c _), now⟩ => c.grantActive now
  | _ => false

theorem grantUsed_of_any {tr : Trace} (h : tr.any usesGrant = true) : GrantUsed tr := by
  obtain ⟨⟨op, a⟩, he, hu⟩ := List.any_eq_true.1 h
  unfold usesGrant at hu
  split at hu
  · rename_i c method now heq
    cases heq
    exact ⟨c, method, now, he, hu⟩
  · cases hu

/-- Whether an event writes a row with a decision. -/
def rowSays (decision : String) : Event Op Ans → Bool
  | ⟨.record entry, written⟩ => written && entry.decision = decision
  | _ => false

theorem recorded_of_any {tr : Trace} {decision : String} (h : tr.any (rowSays decision) = true) :
    ∃ entry, (⟨.record entry, true⟩ : Event Op Ans) ∈ tr ∧ entry.decision = decision := by
  obtain ⟨⟨op, a⟩, he, hu⟩ := List.any_eq_true.1 h
  unfold rowSays at hu
  split at hu
  · rename_i entry written heq
    cases heq
    obtain ⟨rfl, hdecision⟩ := Bool.and_eq_true_iff.1 hu
    exact ⟨entry, he, of_decide_eq_true hdecision⟩
  · cases hu

/-- Whether the last thing done was to write a row. -/
def endsWritten (tr : Trace) : Bool :=
  match tr.getLast? with
  | some ⟨.record _, written⟩ => written
  | _ => false

theorem written_of_endsWritten {before : Trace} {entry : LogEntry} {written : Bool}
    (h : endsWritten (before ++ [⟨.record entry, written⟩]) = true) : written = true := by
  rw [endsWritten, List.getLast?_append, List.getLast?_singleton] at h
  exact h

/-- A node that cannot be reached, at time 0. -/
def unreachable : (op : Op) → Option (Ans op)
  | .touchActivity | .clock _ | .elapsed => some 0
  | .nodeFor _ => some true
  | .nodeRpc _ _ _ => some (.transport "connection refused")
  | _ => none

/-- A broadcast by an agent with a grant, served on its own for a number of operations. -/
def servedBy (oracle : (op : Op) → Option (Ans op)) (n : ℕ) : Option (List Act × State) :=
  Sys.play (service plainCrates plainSetup) (answering plainCrates oracle)
    ⟨grantedWorld, [Task.request (some "t") broadcastRequest].map
      (service plainCrates plainSetup).fresh⟩ (List.replicate n 0)

/-- What the first process did, and its response. -/
def answerOf (s : State) : Option (Trace × Response) :=
  match (s.procs[0]? : Option Proc) with
  | some ⟨.request _ _, tr, some (.pure (.response r))⟩ => some (tr, r)
  | _ => none

theorem answerOf_eq_some {s : State} {tr : Trace} {r : Response} (h : answerOf s = some (tr, r)) :
    ∃ token req, s.procs[0]? = some ⟨.request token req, tr, some (.pure (.response r))⟩ := by
  unfold answerOf at h
  split at h
  · rename_i token req tr' r' hp
    cases h
    exact ⟨token, req, hp⟩
  · cases h

theorem reach_servedBy {oracle : (op : Op) → Option (Ans op)} {n : ℕ}
    {check : Trace × Response → Bool}
    (h : ((servedBy oracle n).bind fun x => answerOf x.2).any check = true) :
    ∃ s tr r token req, Sys.Reach (service plainCrates plainSetup) (Starts grantedWorld)
      (fun _ _ => True) s ∧
      s.procs[0]? = some ⟨.request token req, tr, some (.pure (.response r))⟩ ∧
      check (tr, r) = true := by
  obtain ⟨⟨tr, r⟩, hanswer, hcheck⟩ := (Option.any_eq_true _ _).1 h
  obtain ⟨⟨moves, s⟩, hplay, hs⟩ := Option.bind_eq_some_iff.1 hanswer
  obtain ⟨token, req, hp⟩ := answerOf_eq_some hs
  refine ⟨s, tr, r, token, req,
    reach_tasks (fun _ _ => trivial) (fun _ _ _ _ _ => trivial) ?_ hplay, hp, hcheck⟩
  intro task ht
  rw [List.mem_singleton.1 ht]
  trivial

/-- A broadcast that a grant approved and no node took is recorded as if nothing had been asked. -/
theorem failed_broadcast_untruthful : ∃ s p token req r entry,
    Sys.Reach (service plainCrates plainSetup) (Starts grantedWorld) (fun _ _ => True) s ∧
      s.procs[0]? = some p ∧ p.task = .request token req ∧ p.rest = some (.pure (.response r)) ∧
      (⟨.record entry, true⟩ : Event Op Ans) ∈ p.trace ∧ Obtained p.trace ∧
      entry.decision = "n/a" ∧ ¬ Truthful p.trace entry.decision := by
  have hplay : ((servedBy unreachable 12).bind fun x => answerOf x.2).any
      (fun x => x.1.any usesGrant && x.1.any (rowSays "n/a")) = true := by decide +kernel
  obtain ⟨s, tr, r, token, req, hreach, hp, hcheck⟩ := reach_servedBy hplay
  obtain ⟨hgrant, hrow⟩ := Bool.and_eq_true_iff.1 hcheck
  obtain ⟨entry, hentry, hrecord⟩ := recorded_of_any hrow
  have hobtained : Obtained tr := Or.inr (grantUsed_of_any hgrant)
  refine ⟨s, _, token, req, r, entry, hreach, hp, rfl, rfl, hentry, hobtained, hrecord, fun ht => ?_⟩
  have happroved := ht.approved.2 hobtained
  rw [hrecord] at happroved
  simp at happroved

/-- The same broadcast, taken by the node, is recorded as approved. -/
theorem broadcast_truthful : ∃ s p entry,
    Sys.Reach (service plainCrates plainSetup) (Starts grantedWorld) (fun _ _ => True) s ∧
      s.procs[0]? = some p ∧ Obtained p.trace ∧ s.world.recorded entry ∈ s.world.log ∧
      Truthful p.trace (s.world.recorded entry).decision := by
  have hplay : ((servedBy accepting 12).bind fun x => answerOf x.2).any
      (fun x => x.1.any usesGrant && x.2.outcome.toBool && endsWritten x.1) = true := by
    decide +kernel
  obtain ⟨s, tr, r, token, req, hreach, hp, hcheck⟩ := reach_servedBy hplay
  simp only [Bool.and_eq_true] at hcheck
  obtain ⟨⟨hgrant, hok⟩, hwritten⟩ := hcheck
  obtain ⟨before, entry, written, htrace, -, hrow, htruth⟩ :=
    decision_truthful_iff hreach (fun _ => Starts.procs) hp rfl rfl
  have htrace : tr = before ++ [⟨.record entry, written⟩] := htrace
  rw [htrace] at hwritten
  refine ⟨s, _, entry, hreach, hp, Or.inr (grantUsed_of_any hgrant),
    hrow (written_of_endsWritten hwritten), htruth.2 fun _ => ?_⟩
  cases hr : r.outcome with
  | ok v => exact ⟨v, rfl⟩
  | error e =>
      rw [hr] at hok
      cases hok

end Strkd.Service
