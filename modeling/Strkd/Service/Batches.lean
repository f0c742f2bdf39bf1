import Strkd.Lib.Outcomes
import Strkd.Lib.Runs
import Strkd.Rpc.BatchPrompts
import Strkd.Service.Prompts
import Strkd.Strk20.Value

/-!
# What a STRK20 prompt stands for

A request that prepares a batch asks with the summary of its intent, and signs the invocation of a
plan for that intent.  Two requests that ask with one prompt have the same batch.
-/

namespace Strkd.Service

open Wallet Prover Rpc Rpc.Strk20 Strkd.Strk20

variable {K : Crates} {S : Setup}

/-! ## Batches -/

/-- A batch that is put to the user. -/
structure Batch where
  c : Ctx
  intent : Intent
  proving : Proving
  plan : Plan
  submission : String

/-- What `client` is shown to ask in a request for `m`. -/
def Batch.prompt (S : Setup) (client : PairedClient) (m : Method) (b : Batch) : ApprovalRequest :=
  ⟨client.fullLabel, m.wire, batchSummary S b.c b.intent b.proving b.plan b.submission⟩

/-- What a relayed batch says of its fee. -/
def relayedFor (fee : Paymaster.FeeAction) : String :=
  "relayed privately by the AVNU paymaster for a fee of " ++ toString fee.amount.toNat ++
    " (base units of " ++ feltHex fee.token ++ ")"

/-- The intent of a request for a method, and how the batch is submitted. -/
inductive Intends (K : Crates) (params : Json) : Method → Intent → String → Prop
  | register : Intends K params .strk20Register { register := true } "submitted from this account"
  | prepare (actions : List Action) (h : parseActions K params = .ok actions) :
      Intends K params .strk20PrepareInvoke (intentOf actions) "returned to the caller unsubmitted"
  | deposit (actions : List Action) (h : parseActions K params = .ok actions) :
      Intends K params .strk20InvokeTransaction (intentOf actions) "submitted from this account"
  | relayed (actions : List Action) (h : parseActions K params = .ok actions)
      (fee : Paymaster.FeeAction) :
      Intends K params .strk20InvokeTransaction
        { intentOf actions with
          withdrawals := (intentOf actions).withdrawals ++ [(fee.recipient, fee.token, fee.amount)] }
        (relayedFor fee)

/-- A batch of a request: its intent comes from the parameters, and its plan from the intent. -/
structure IsBatch (K : Crates) (S : Setup) (m : Method) (params : Json) (b : Batch) : Prop where
  intends : Intends K params m b.intent b.submission
  user : senderOf K b.c.account = .ok b.c.user
  known : b.proving.Known
  planned : ∃ draw st s', st.user = b.c.user ∧
    Returns (plan (osRandomness draw) K.curve S.fuel b.intent st) 0 b.plan s'

/-! ## The rule book -/

/-- Whoever was asked was asked about `b`. -/
def AskedOf (S : Setup) (m : Method) (b : Batch) (tr : Trace) : Prop :=
  ∀ r d, (⟨.requestApproval r, d⟩ : Event Op Ans) ∈ tr → ∃ client, r = b.prompt S client m

/-- A prompt is about a batch of the request, and what is signed after it is of that batch. -/
def MayBatch (K : Crates) (S : Setup) (m : Method) (params : Json) (tr : Trace) : Op → Prop
  | .requestApproval r => Fresh tr ∧ ∃ client b, IsBatch K S m params b ∧ r = b.prompt S client m
  | .signHash a h => ∃ b nonce userSk, IsBatch K S m params b ∧ AskedOf S m b tr ∧
      a = b.c.account ∧
      h = (ProofInvocation.new K b.c.pool b.c.chain nonce b.c.user userSk b.plan.actions).hash K
  | _ => True

def batchRules (K : Crates) (S : Setup) (m : Method) (params : Json) : Rules Op Ans where
  allows := MayBatch K S m params
  legal _ _ _ := True

variable {m : Method} {params : Json} {tr : Trace}

theorem batchRules_quiet : AllowsQuiet (batchRules K S m params) := by
  intro tr op h
  cases op <;> trivial

/-- A property of traces that quiet operations keep. -/
def Calm (P : Trace → Prop) : Prop :=
  ∀ tr (e : Event Op Ans), quiet e.1 = true → P tr → P (tr ++ [e])

theorem calm_fresh : Calm Fresh := by
  intro tr e he h
  obtain ⟨op, a⟩ := e
  refine h.append ?_ fun r hr => ?_
  · cases op <;> first | rfl | cases he
  · simp only at hr
    subst hr
    cases he

theorem AskedOf.append {b : Batch} {e : Event Op Ans} (h : AskedOf S m b tr)
    (he : ∀ r, e.1 ≠ .requestApproval r) : AskedOf S m b (tr ++ [e]) := by
  intro r d hr
  rcases List.mem_append.1 hr with hr | hr
  · exact h r d hr
  · rw [← List.mem_singleton.1 hr] at he
    exact absurd rfl (he r)

theorem calm_askedOf (b : Batch) : Calm (AskedOf S m b) := by
  intro tr e he h
  refine h.append fun r hr => ?_
  rw [hr] at he
  cases he

/-! ## What computations give -/

/-- Any answer at all. -/
abbrev anyAnswer : Outcomes (Prog Op Ans) := .prog fun _ _ => True

/-- First a quiet computation, then the rest with a value it can give. -/
theorem Obeys.gives {R : Rules Op Ans} {ε α β : Type} {h : Handler ε Op Ans α}
    {f : α → Handler ε Op Ans β} {Q : Trace → β → Prop} (hq : Quiet h) (hR : AllowsQuiet R)
    {P : Trace → Prop} (hP : Calm P) (h0 : P tr)
    (hf : ∀ tr' a, P tr' → anyAnswer.Gives h a → Obeys R tr' (f a) Q) :
    Obeys R tr (h >>= f) Q := by
  have hserves : Serves R tr h (fun tr' _ => P tr') fun tr' _ => P tr' :=
    Confined.serves (P := fun op => Rpc.quiet op = true) hq (fun tr op _ h => hR tr op h)
      (fun tr op a hI h => hP tr ⟨op, a⟩ h hI) h0
  have hends : Safe R tr h.run fun tr' r => Ends (fun tr' _ => P tr') (fun tr' _ => P tr') tr' r ∧
      Outcomes.progEnds (fun _ _ => True) h.run r :=
    Outcomes.safe_progEnds (fun _ _ _ _ => trivial) hserves
  refine Serves.bind (Q := fun tr' a => P tr' ∧ anyAnswer.Gives h a) ?_ fun tr' a _ ha =>
    hf tr' a ha.1 ha.2
  refine Safe.mono hends fun tr' r _ hr => ?_
  cases r with
  | ok a => exact ⟨hr.1, hr.2⟩
  | error e => trivial

theorem quiet_callerAccount (caller : Rpc.Strk20.Caller) (params : Json) :
    Quiet (callerAccount K caller params) := confined_callerAccount K (by rfl) caller params

theorem quiet_ctx (caller : Rpc.Strk20.Caller) (params : Json) : Quiet (ctx K S caller params) := by
  refine .bind (quiet_resolveChain ..) fun chain => .bind (quiet_callerAccount ..) fun account =>
    .bind (.lift _) fun user => .bind (quiet_requireNode _) fun _ => ?_
  split
  · exact .bind (quiet_act rfl) fun cfg => .bind (.lift _) fun pool => .pure _
  · exact .bind (.pure _) fun cfg => .bind (.lift _) fun pool => .pure _

theorem gives_ctx {caller : Rpc.Strk20.Caller} {params : Json} {c : Ctx}
    (h : anyAnswer.Gives (ctx K S caller params) c) : senderOf K c.account = .ok c.user := by
  obtain ⟨chain, -, h⟩ := h.bind
  obtain ⟨account, -, h⟩ := h.bind
  obtain ⟨user, huser, h⟩ := h.bind
  obtain ⟨_, -, h⟩ := h.bind
  split at h
  · obtain ⟨cfg, -, h⟩ := h.bind
    obtain ⟨pool, -, h⟩ := h.bind
    rw [h.pure]
    exact huser.lift
  · obtain ⟨cfg, -, h⟩ := h.bind
    obtain ⟨pool, -, h⟩ := h.bind
    rw [h.pure]
    exact huser.lift

theorem gives_discoverState {c : Ctx} {r : PoolReader (Prog Op Ans)} {userSk : Felt}
    {intent : Intent} {st : Strkd.Strk20.State}
    (h : anyAnswer.Gives (discoverState K S c r userSk intent) st) : st.user = c.user := by
  obtain ⟨registered, -, h⟩ := h.bind
  dsimp only at h
  split at h
  · obtain ⟨channels, -, h⟩ := h.bind
    split at h
    · obtain ⟨notes, -, h⟩ := h.bind
      obtain ⟨outgoing, -, h⟩ := h.bind
      rw [h.pure]
    · obtain ⟨notes, -, h⟩ := h.bind
      obtain ⟨outgoing, -, h⟩ := h.bind
      rw [h.pure]
  · rename_i hreg
    simp only [hreg] at h
    obtain ⟨channels, -, h⟩ := h.bind
    obtain ⟨notes, -, h⟩ := h.bind
    obtain ⟨outgoing, -, h⟩ := h.bind
    rw [h.pure]

theorem gives_planBatch {intent : Intent} {st : Strkd.Strk20.State} {p : Plan}
    (h : anyAnswer.Gives (planBatch K S intent st) p) :
    ∃ draw s', Returns (plan (osRandomness draw) K.curve S.fuel intent st) 0 p s' := by
  obtain ⟨draw, -, h⟩ := h.bind
  split at h
  · rename_i q s' hplan
    rw [h.pure]
    exact ⟨draw, s', hplan⟩
  · exact h.throw.elim
  · obtain ⟨crashed, -⟩ := h.bind
    exact nomatch crashed

theorem gives_freshPlan {c : Ctx} {userSk : Felt} {block : ℕ} {intent : Intent} {p : Plan}
    (h : anyAnswer.Gives (freshPlan K S c userSk block intent) p) :
    ∃ draw st s', st.user = c.user ∧
      Returns (plan (osRandomness draw) K.curve S.fuel intent st) 0 p s' := by
  obtain ⟨st, hst, h⟩ := h.bind
  obtain ⟨now, -, h⟩ := h.bind
  obtain ⟨-, h⟩ := h.refuse
  obtain ⟨q, hq, h⟩ := h.bind
  obtain ⟨-, h⟩ := h.refuse
  rw [h.pure]
  obtain ⟨draw, s', hplan⟩ := gives_planBatch hq
  exact ⟨draw, st, s', gives_discoverState hst, hplan⟩

/-! ## The handlers -/

section Handlers

variable {β : Type} {Q : Trace → β → Prop} {client : PairedClient} {b : Batch}

/-- From `tr` on, a request keeps the rules about batches. -/
abbrev Batched (K : Crates) (S : Setup) (m : Method) (params : Json) (tr : Trace) {α : Type}
    (h : Serve α) : Prop :=
  Obeys (batchRules K S m params) tr h fun _ _ => True

theorem batched_quiet {α : Type} {h : Serve α} (hq : Quiet h) : Batched K S m params tr h :=
  obeys_done hq batchRules_quiet

/-- Something quiet, then the rest. -/
theorem Batched.quiet {α : Type} {h : Serve α} {f : α → Serve β} (hq : Quiet h)
    (hf : ∀ tr' a, Obeys (batchRules K S m params) tr' (f a) Q) :
    Obeys (batchRules K S m params) tr (h >>= f) Q :=
  Obeys.quiet (P := fun _ => True) hq batchRules_quiet (fun _ _ _ _ => trivial) trivial
    fun tr' a _ _ => hf tr' a

/-- First the approval of a batch, then the rest. -/
theorem Fresh.approve {f : Unit → Serve β} (h : Fresh tr) (hb : IsBatch K S m params b)
    (hf : ∀ tr', AskedOf S m b tr' → Obeys (batchRules K S m params) tr' (f ()) Q) :
    Obeys (batchRules K S m params) tr
      ((Rpc.Strk20.Caller.rpc client).approve m.wire
        (batchSummary S b.c b.intent b.proving b.plan b.submission) >>= f) Q := by
  unfold Rpc.Strk20.Caller.approve gatedApproval
  rw [bind_assoc, bind_assoc]
  refine Obeys.act trivial fun now => ?_
  have h₁ : Fresh (tr ++ [⟨.clock (.gate client m.wire), now⟩]) :=
    h.append rfl fun r hr => nomatch hr
  have hnone : ∀ {tr : Trace}, Fresh tr → AskedOf S m b tr :=
    fun h r d hr => absurd rfl ((h _ hr).2 r)
  by_cases hg : client.grantActive now = true
  · simp only [hg, if_true, pure_bind]
    exact Obeys.lift fun _ _ => hf _ (hnone h₁)
  · simp only [hg]
    refine Obeys.act ⟨h₁, client, b, hb, rfl⟩ fun d => Obeys.lift fun _ _ => hf _ fun r d' hr => ?_
    rcases List.mem_append.1 hr with hr | hr
    · exact hnone h₁ r d' hr
    · cases List.mem_singleton.1 hr
      exact ⟨client, rfl⟩

theorem batched_signAndProveBatch {text : String} {userSk : Felt} {block : ℕ}
    (hb : IsBatch K S m params b) (h : AskedOf S m b tr) :
    Batched K S m params tr (signAndProveBatch K b.c text b.proving userSk block b.plan) := by
  refine Obeys.gives (quiet_poolNonce ..) batchRules_quiet (calm_askedOf b) h fun tr₁ nonce h₁ _ =>
    Obeys.act ⟨b, nonce, userSk, hb, h₁, rfl, rfl⟩ fun answer => batched_quiet ?_
  refine .bind (quiet_propagate _) fun signature => .bind (quiet_proveInvocation ..) fun result => ?_
  split
  · exact .throw _
  · split
    · exact .throw _
    · exact .pure _

theorem batched_prepare {c : Ctx} {intent : Intent} {proving : Proving} {submission : String}
    (h : Fresh tr) (hi : Intends K params m intent submission)
    (hu : senderOf K c.account = .ok c.user) (hk : proving.Known) :
    Batched K S m params tr (prepare K S (.rpc client) m.wire c intent proving submission) := by
  refine .lift fun _ _ => Obeys.gives (quiet_blockNumber ..) batchRules_quiet calm_fresh h
    fun tr₁ head h₁ _ => ?_
  unfold Ctx.viewingKey
  rw [bind_assoc]
  refine Obeys.act trivial fun answer => ?_
  have h₂ := h₁.append (e := ⟨.viewingKey c.account c.chain c.pool, answer⟩) rfl
    fun r hr => nomatch hr
  refine Obeys.gives (quiet_propagate _) batchRules_quiet calm_fresh h₂ fun tr₃ userSk h₃ _ =>
    Obeys.gives (quiet_freshPlan ..) batchRules_quiet calm_fresh h₃ fun tr₄ plan h₄ hplan => ?_
  let b : Batch := ⟨c, intent, proving, plan, submission⟩
  have hb : IsBatch K S m params b := ⟨hi, hu, hk, gives_freshPlan hplan⟩
  exact Fresh.approve (b := b) h₄ hb fun tr₅ h₅ => batched_signAndProveBatch (b := b) hb h₅

theorem batched_submitFromAccount {c : Ctx} {prepared : Prepared} {deposits : List (Felt × U128)} :
    Batched K S m params tr (submitFromAccount K c prepared deposits) := by
  refine Batched.quiet (quiet_requireFreshAttestation _) fun _ _ => Batched.quiet (quiet_poolFee ..)
    fun _ fee => Batched.quiet (.mapErr (quiet_getNonce ..)) fun _ nonce =>
    Batched.quiet (.mapErr (quiet_estimate ..)) fun _ bounds => Obeys.act trivial fun answer =>
    batched_quiet ?_
  exact .bind (quiet_propagate _) fun signed => .mapErr (quiet_addInvoke ..)

theorem batched_register (h : Fresh tr) :
    Batched K S .strk20Register params tr (register K S (.rpc client) params) := by
  refine .gives (quiet_ctx ..) batchRules_quiet calm_fresh h fun tr₁ c h₁ hc =>
    .gives (.mapErr (confined_registeredKey K (quiet_reader ..) _)) batchRules_quiet calm_fresh h₁
    fun tr₂ key h₂ _ => .refuse fun _ => ?_
  refine Serves.bind (batched_prepare (m := .strk20Register) h₂ .register (gives_ctx hc) trivial)
    fun tr₃ prepared _ _ => ?_
  exact Serves.bind batched_submitFromAccount fun _ _ _ _ => serves_pure trivial

theorem batched_prepareInvoke (h : Fresh tr) :
    Batched K S .strk20PrepareInvoke params tr (prepareInvoke K S (.rpc client) params) := by
  refine .lift fun actions hactions => .gives (quiet_ctx ..) batchRules_quiet calm_fresh h
    fun tr₁ c h₁ hc => .lift fun proving hproving => ?_
  refine Serves.bind (batched_prepare (m := .strk20PrepareInvoke) h₁ (.prepare actions hactions)
    (gives_ctx hc) (known_of_provingFor hproving)) fun _ _ _ _ => serves_pure trivial

theorem batched_invokeDeposit {c : Ctx} {actions : List Action} (h : Fresh tr)
    (hactions : parseActions K params = .ok actions) (hu : senderOf K c.account = .ok c.user) :
    Batched K S .strk20InvokeTransaction params tr
      (invokeDeposit K S (.rpc client) c actions (intentOf actions)) := by
  unfold invokeDeposit
  refine .refuse fun _ => .lift fun proving hproving => .gives (quiet_checkPublicFunds ..)
    batchRules_quiet calm_fresh h fun tr₁ _ h₁ _ => ?_
  refine Serves.bind (batched_prepare (m := .strk20InvokeTransaction) h₁ (.deposit actions hactions)
    hu (known_of_provingFor hproving)) fun tr₂ prepared _ _ => ?_
  exact Serves.bind batched_submitFromAccount fun _ _ _ _ => serves_pure trivial

theorem batched_invokeRelayed {c : Ctx} {actions : List Action} (h : Fresh tr)
    (hactions : parseActions K params = .ok actions) (hu : senderOf K c.account = .ok c.user) :
    Batched K S .strk20InvokeTransaction params tr
      (invokeRelayed K S (.rpc client) c (intentOf actions)) := by
  unfold invokeRelayed
  refine .refuse fun _ => .gives (.mapErr (quiet_quote ..)) batchRules_quiet calm_fresh h
    fun tr₁ fee h₁ _ => ?_
  refine Serves.bind (Serves.mapErr (batched_prepare (m := .strk20InvokeTransaction) h₁
    (.relayed actions hactions fee) hu trivial)) fun tr₂ prepared _ _ => ?_
  exact batched_quiet (.bind (.mapErr (quiet_execute ..)) fun _ => .pure _)

theorem batched_invokeTransaction (h : Fresh tr) :
    Batched K S .strk20InvokeTransaction params tr (invokeTransaction K S (.rpc client) params) := by
  refine .lift fun actions hactions => .gives (quiet_ctx ..) batchRules_quiet calm_fresh h
    fun tr₁ c h₁ hc => ?_
  split
  · exact batched_invokeDeposit h₁ hactions (gives_ctx hc)
  · exact batched_invokeRelayed h₁ hactions (gives_ctx hc)

end Handlers

/-! ## Whole requests -/

/-- The methods that prepare a batch. -/
def batchMethods : List Method := [.strk20Register, .strk20PrepareInvoke, .strk20InvokeTransaction]

/-- `r` is the prompt of the batch `b` of a request. -/
def PromptOf (K : Crates) (S : Setup) (m : Method) (params : Json) (r : ApprovalRequest)
    (b : Batch) : Prop :=
  IsBatch K S m params b ∧ ∃ client, r = b.prompt S client m

section Requests

variable {token : Option String} {req : Request}

theorem batched_serve {client : PairedClient} (hm : m ∈ batchMethods) (h : Fresh tr) :
    Batched K S m req.params tr (serve K S client req (some m)) := by
  simp only [batchMethods, List.mem_cons, List.not_mem_nil, or_false] at hm
  rcases hm with rfl | rfl | rfl
  · exact batched_register h
  · exact batched_prepareInvoke h
  · exact batched_invokeTransaction h

theorem safe_handle_batches (hname : Method.ofString req.method = some m) (hm : m ∈ batchMethods)
    (h : Fresh tr) :
    Safe (batchRules K S m req.params) tr (handle K S token req) fun _ _ => True := by
  have hverify : Safe (batchRules K S m req.params) tr (verifyToken token) fun tr' _ => Fresh tr' := by
    cases token with
    | none => exact h
    | some t => exact ⟨trivial, fun r _ => h.append rfl fun r hr => nomatch hr⟩
  have hpaired : ∀ f : Option PairedClient → Prog Op Ans Handled,
      f none = pure ⟨.error .notRegistered, "n/a", none⟩ →
      (∀ client, f (some client) = handlePaired K S client req (some m)) →
      Safe (batchRules K S m req.params) tr (verifyToken token >>= f) fun _ _ => True := by
    intro f hnone hsome
    refine Safe.bind hverify fun tr' r _ h => ?_
    cases r with
    | none =>
        rw [hnone]
        trivial
    | some c =>
        rw [hsome]
        simp only [handlePaired]
        split
        · trivial
        · exact Safe.bind (batched_serve hm h) fun _ _ _ _ => trivial
  unfold handle
  rw [hname]
  simp only [batchMethods, List.mem_cons, List.not_mem_nil, or_false] at hm
  rcases hm with rfl | rfl | rfl <;>
    exact hpaired _ rfl fun _ => rfl

/-- Every request that prepares a batch keeps the rules about batches. -/
theorem safe_dispatch_batches (hname : Method.ofString req.method = some m)
    (hm : m ∈ batchMethods) :
    Safe (batchRules K S m req.params) [] (dispatch K S token req) fun _ _ => True := by
  refine Safe.bind (p := carryOut .touchActivity) (Q := fun tr _ => Fresh tr)
    ⟨trivial, fun now _ => ?_⟩ fun tr _ _ h =>
    Safe.bind (safe_handle_batches hname hm h) fun tr handled _ _ => ?_
  · exact Fresh.append (fun e he => by cases he) rfl fun r hr => nomatch hr
  · refine ⟨trivial, fun s _ => ⟨trivial, fun now _ => ⟨trivial, fun latency _ =>
      ⟨trivial, fun _ _ => ?_⟩⟩⟩⟩
    cases handled.result with
    | ok v => trivial
    | error e => trivial

variable {r : ApprovalRequest} {d : Decision}

/-- What a request that prepares a batch asks with is the prompt of a batch. -/
theorem promptOf_of_performs (hname : Method.ofString req.method = some m) (hm : m ∈ batchMethods)
    (htr : Performs (dispatch K S token req) tr)
    (hr : (⟨.requestApproval r, d⟩ : Event Op Ans) ∈ tr) :
    ∃ b, PromptOf K S m req.params r b := by
  obtain ⟨before, after, rfl⟩ := List.append_of_mem hr
  have hasked : MayBatch K S m req.params ([] ++ before) (.requestApproval r) :=
    (safe_dispatch_batches hname hm).allows_of_performs (fun _ _ _ => trivial) htr rfl
  obtain ⟨-, client, b, hb, hr⟩ := hasked
  exact ⟨b, hb, client, hr⟩

/-- What it signs for the pool after the prompt is the invocation of a batch of that prompt. -/
theorem signs_of_performs (hname : Method.ofString req.method = some m) (hm : m ∈ batchMethods)
    (htr : Performs (dispatch K S token req) tr)
    (hr : (⟨.requestApproval r, d⟩ : Event Op Ans) ∈ tr) {a : AccountRef} {hash : Felt}
    {answer : Ans (.signHash a hash)} (hs : (⟨.signHash a hash, answer⟩ : Event Op Ans) ∈ tr) :
    ∃ b nonce userSk, PromptOf K S m req.params r b ∧ a = b.c.account ∧
      hash = (ProofInvocation.new K b.c.pool b.c.chain nonce b.c.user userSk
        b.plan.actions).hash K := by
  have hallows : ∀ (before after : Trace) (e : Event Op Ans), tr = before ++ e :: after →
      MayBatch K S m req.params ([] ++ before) e.1 := fun _ _ _ heq =>
    (safe_dispatch_batches hname hm).allows_of_performs (fun _ _ _ => trivial) htr heq
  obtain ⟨before, after, rfl⟩ := List.append_of_mem hs
  obtain ⟨b, nonce, userSk, hb, hasked, ha, hhash⟩ := hallows before after _ rfl
  refine ⟨b, nonce, userSk, ⟨hb, hasked r d ?_⟩, ha, hhash⟩
  rcases List.mem_append.1 hr with hr | hr
  · exact hr
  rcases List.mem_cons.1 hr with hr | hr
  · cases hr
  -- a prompt after the signature would not be fresh
  obtain ⟨before', after', rfl⟩ := List.append_of_mem hr
  have hfresh : Fresh ([] ++ (before ++ ⟨.signHash a hash, answer⟩ :: before')) :=
    (hallows (before ++ ⟨.signHash a hash, answer⟩ :: before') after' ⟨.requestApproval r, d⟩
      (by simp)).1
  have hsigned := (hfresh ⟨.signHash a hash, answer⟩ (by simp)).1
  cases hsigned

end Requests

/-! ## Two requests with one prompt -/

/-- The notes that a batch creates for others. -/
def Batch.others (b : Batch) : List (Felt × Felt × U128) :=
  (created b.plan.actions).filter fun note => note.1 ≠ b.c.user

/-- Two batches that are one for whoever reads their prompt. -/
structure SameBatch (b b' : Batch) : Prop where
  chain : b.c.chain = b'.c.chain
  address : b.c.account.address = b'.c.account.address
  user : b.c.user = b'.c.user
  pool : b.c.pool = b'.c.pool
  intent : b.intent = b'.intent
  deposited : deposited b.plan.actions = deposited b'.plan.actions
  withdrawn : withdrawn b.plan.actions = withdrawn b'.plan.actions
  others : b.others = b'.others

section Pairs

variable {S' : Setup} {m' : Method} {params' : Json} {b b' : Batch} {r : ApprovalRequest}

theorem register_addAction (intent : Intent) (a : Action) :
    (addAction intent a).register = intent.register := by
  cases a <;> rfl

theorem register_intentOf (actions : List Action) : (intentOf actions).register = false := by
  suffices h : ∀ intent : Intent, (actions.foldl addAction intent).register = intent.register from
    h {}
  induction actions with
  | nil => exact fun _ => rfl
  | cons a rest ih =>
      intro intent
      rw [List.foldl_cons, ih, register_addAction]

/-- Only a registration sets the flag, and it moves nothing. -/
theorem Intends.register_cases {intent : Intent} {submission : String}
    (h : Intends K params m intent submission) :
    m = .strk20Register ∧ intent = { register := true } ∨
      m ≠ .strk20Register ∧ intent.register = false := by
  cases h with
  | register => exact .inl ⟨rfl, rfl⟩
  | prepare actions _ => exact .inr ⟨by decide, register_intentOf actions⟩
  | deposit actions _ => exact .inr ⟨by decide, register_intentOf actions⟩
  | relayed actions _ fee => exact .inr ⟨by decide, register_intentOf actions⟩

theorem notMem_ownAccount : '.' ∉ "submitted from this account".toList := by
  decide

theorem notMem_relayedFor (fee : Paymaster.FeeAction) : '.' ∉ (relayedFor fee).toList := by
  have hbefore : '.' ∉ "relayed privately by the AVNU paymaster for a fee of ".toList := by decide
  have hamount : '.' ∉ (toString fee.amount.toNat).toList := notMem_toString rfl
  have hunits : '.' ∉ " (base units of ".toList := by decide
  have htoken : '.' ∉ (feltHex fee.token).toList := notMem_feltHex rfl _
  have hclose : '.' ∉ ")".toList := by decide
  refine notMem_append (notMem_append (notMem_append ?_ hunits) htoken) hclose
  exact notMem_append hbefore hamount

theorem Intends.dot_notMem {intent : Intent} {submission : String}
    (h : Intends K params m intent submission) : '.' ∉ submission.toList := by
  cases h with
  | register => exact notMem_ownAccount
  | prepare actions _ =>
      have hnone : '.' ∉ "returned to the caller unsubmitted".toList := by decide
      exact hnone
  | deposit actions _ => exact notMem_ownAccount
  | relayed actions _ fee => exact notMem_relayedFor fee

/-- The notes for others are those of the transfers to others. -/
theorem IsBatch.moves (h : IsBatch K S m params b) :
    deposited b.plan.actions = b.intent.deposits ∧
      withdrawn b.plan.actions = b.intent.withdrawals ∧
      b.others = b.intent.transfers.filter fun note => note.1 ≠ b.c.user := by
  obtain ⟨draw, st, s', huser, hplan⟩ := h.planned
  obtain ⟨spends, -, -, hmoves, -⟩ := plan_value hplan
  refine ⟨hmoves.deposited, hmoves.withdrawn, ?_⟩
  have hchange : ∀ (toUser : Felt × U128 → Felt × Felt × U128), (∀ x, (toUser x).1 = b.c.user) →
      ∀ change : List (Felt × U128),
        (change.map toUser).filter (fun note => note.1 ≠ b.c.user) = [] := by
    intro toUser htoUser change
    refine List.filter_eq_nil_iff.2 fun note hnote => ?_
    obtain ⟨x, -, rfl⟩ := List.mem_map.1 hnote
    simp [htoUser x]
  rw [Batch.others, hmoves.created, huser, List.filter_append, hchange _ fun _ => rfl,
    List.append_nil]

/-- Two batches with one prompt. -/
theorem sameBatch_of_promptOf (h : PromptOf K S m params r b) (h' : PromptOf K S' m' params' r b') :
    SameBatch b b' := by
  obtain ⟨hb, client, rfl⟩ := h
  obtain ⟨hb', client', hr⟩ := h'
  obtain rfl : m = m' := wire_injective (congrArg ApprovalRequest.method hr)
  have hkinds : b.intent = b'.intent ∨ b.intent.register = false ∧ b'.intent.register = false := by
    rcases hb.intends.register_cases with ⟨hm, hi⟩ | ⟨hm, hi⟩
    · rcases hb'.intends.register_cases with ⟨-, hi'⟩ | ⟨hm', -⟩
      · exact .inl (hi.trans hi'.symm)
      · exact absurd hm hm'
    · rcases hb'.intends.register_cases with ⟨hm', -⟩ | ⟨-, hi'⟩
      · exact absurd hm' hm
      · exact .inr ⟨hi, hi'⟩
  obtain ⟨hchain, haddress, hpool, hintent⟩ := batchSummary_inj hb.known hb'.known
    hb.intends.dot_notMem hb'.intends.dot_notMem hkinds (congrArg ApprovalRequest.summary hr)
  have huser : b.c.user = b'.c.user := by
    have hu := hb.user
    have hu' := hb'.user
    unfold senderOf WalletSession.storedAddress at hu hu'
    rw [haddress, hu'] at hu
    exact (Except.ok.inj hu).symm
  obtain ⟨hdeposited, hwithdrawn, hothers⟩ := hb.moves
  obtain ⟨hdeposited', hwithdrawn', hothers'⟩ := hb'.moves
  exact {
    chain := hchain
    address := haddress
    user := huser
    pool := hpool
    intent := hintent
    deposited := by rw [hdeposited, hdeposited', hintent]
    withdrawn := by rw [hwithdrawn, hwithdrawn', hintent]
    others := by rw [hothers, hothers', hintent, huser] }

variable {token token' : Option String} {req req' : Request} {tr' : Trace} {d d' : Decision}

/-- Everything a request signs for the pool is the invocation of a batch prompted with `r`. -/
def SignsBatch (K : Crates) (S : Setup) (m : Method) (params : Json) (r : ApprovalRequest)
    (tr : Trace) : Prop :=
  ∀ a hash answer, (⟨.signHash a hash, answer⟩ : Event Op Ans) ∈ tr →
    ∃ b nonce userSk, PromptOf K S m params r b ∧ a = b.c.account ∧
      hash = (ProofInvocation.new K b.c.pool b.c.chain nonce b.c.user userSk
        b.plan.actions).hash K

/-- Two requests that ask with one prompt ask about one batch: the chain, the account, the pool, the
intent, and what the plan deposits, withdraws and creates for others are the same. -/
theorem prompt_determines_batch (hname : Method.ofString req.method = some m)
    (hname' : Method.ofString req'.method = some m') (hm : m ∈ batchMethods)
    (hm' : m' ∈ batchMethods) (htr : Performs (dispatch K S token req) tr)
    (htr' : Performs (dispatch K S' token' req') tr')
    (hr : (⟨.requestApproval r, d⟩ : Event Op Ans) ∈ tr)
    (hr' : (⟨.requestApproval r, d'⟩ : Event Op Ans) ∈ tr') :
    (∃ b, PromptOf K S m req.params r b) ∧ (∃ b', PromptOf K S' m' req'.params r b') ∧
      (∀ b b', PromptOf K S m req.params r b → PromptOf K S' m' req'.params r b' →
        SameBatch b b') ∧
      SignsBatch K S m req.params r tr ∧ SignsBatch K S' m' req'.params r tr' := by
  refine ⟨promptOf_of_performs hname hm htr hr, promptOf_of_performs hname' hm' htr' hr',
    fun b b' h h' => sameBatch_of_promptOf h h', ?_, ?_⟩
  · exact fun a hash answer hs => signs_of_performs hname hm htr hr hs
  · exact fun a hash answer hs => signs_of_performs hname' hm' htr' hr' hs

end Pairs

/-! ## Two batches with one prompt -/

/-- Whether a call of the pool is the one for a user's public key. -/
def asksForKey (params : Json) : Bool :=
  ((params.get? "request").bind fun call => call.get? "entry_point_selector").bind Json.asStr =
    some (feltHex (getSelectorFromName plainCrates "get_public_key"))

/-- A node whose pool has every user registered, and no channel or note. -/
def registeredPool (method : String) (params : Json) : Json :=
  if method = "starknet_blockNumber" then .obj [("result", .int 100)]
  else if method = "starknet_call" then
    .obj [("result", .arr (if asksForKey params then [.str "0x3"] else [.str "0x0", .str "0x0"]))]
  else .obj [("result", .str "0x0")]

/-- A wallet of one account whose user approves, with a deposit prover and that node. -/
def batching : (op : Op) → Option (Ans op)
  | .touchActivity | .clock _ => some 0
  | .verify _ => some (some plainClient)
  | .session => some plainSession
  | .nodeFor _ => some true
  | .strk20Config _ => some { depositProverUrl := "https://prover" }
  | .nodeRpc _ method params => some (.body (registeredPool method params))
  | .viewingKey _ _ _ => some (.ok 5)
  | .osRandomness => some fun n => .ok (n + 1)
  | .requestApproval _ => some .approve
  | .signHash _ _ => some (.ok [1, 2])
  | _ => none

def provingSetup : Setup := { plainSetup with hasProver := true, proverKind := "native", fuel := 1 }

def actionJson (type amount : String) (recipient : List (String × Json)) : Json :=
  .obj ([("type", .str type), ("token", .str "0x4"), ("amount", .str amount)] ++ recipient)

def batchParams (actions : List Json) : Json := .obj [("actions", .arr actions)]

/-- A deposit of 6, of which 3 and 1 are sent on and 2 withdrawn. -/
def firstParams : Json := batchParams [actionJson "deposit" "0x6" [],
  actionJson "transfer" "0x3" [("recipient", .str "0x9")],
  actionJson "transfer" "0x1" [("recipient", .str "0x9")],
  actionJson "withdraw" "0x2" [("recipient", .str "0x8")]]

/-- The same in another order, with the numbers written another way. -/
def secondParams : Json := batchParams [actionJson "withdraw" "0x02" [("recipient", .str "0x08")],
  actionJson "transfer" "0x3" [("recipient", .str "0x09")], actionJson "deposit" "0x006" [],
  actionJson "transfer" "0x1" [("recipient", .str "0x9")]]

def batchRequest (params : Json) : Request where
  id := .int 1
  method := "wallet_strk20PrepareInvoke"
  params

/-- What a request does there, up to the proof. -/
def batchRun (params : Json) : Trace :=
  replay batching (dispatch plainCrates provingSetup (some "t") (batchRequest params))

def batchPrompt : ApprovalRequest where
  clientLabel := "bot (c1)"
  method := "wallet_strk20PrepareInvoke"
  summary := "STRK20 on " ++ chainName .sepolia ++ " from " ++ addressHex 7 ++ ": " ++
    describe { deposits := [(4, 6)], transfers := [(9, 4, 3), (9, 4, 1)]
               withdrawals := [(8, 4, 2)] } ++ ". " ++
    Proving.describe provingSetup (.remote (.jsonRpc "https://prover" "your deposit prover")) ++
    " (" ++ toString 6 ++ " action(s), pool " ++ feltHex sepoliaPool ++ "); " ++
    "returned to the caller unsubmitted" ++ "."

/-- The request approved at `i`. -/
def approvedAt (tr : Trace) (i : ℕ) : Option ApprovalRequest :=
  match tr[i]? with
  | some ⟨.requestApproval r, .approve⟩ => some r
  | _ => none

theorem mem_of_approvedAt {tr : Trace} {i : ℕ} {r : ApprovalRequest}
    (h : approvedAt tr i = some r) :
    (⟨.requestApproval r, .approve⟩ : Event Op Ans) ∈ tr := by
  unfold approvedAt at h
  split at h
  · cases h
    exact List.mem_of_getElem? ‹_›
  · cases h

/-- Two requests that are written differently and ask with one prompt. -/
theorem prompt_determines_batch_prepared :
    (∃ b, PromptOf plainCrates provingSetup .strk20PrepareInvoke firstParams batchPrompt b) ∧
      (∃ b, PromptOf plainCrates provingSetup .strk20PrepareInvoke secondParams batchPrompt b) ∧
      (∀ b b', PromptOf plainCrates provingSetup .strk20PrepareInvoke firstParams batchPrompt b →
        PromptOf plainCrates provingSetup .strk20PrepareInvoke secondParams batchPrompt b' →
        SameBatch b b') ∧
      SignsBatch plainCrates provingSetup .strk20PrepareInvoke firstParams batchPrompt
        (batchRun firstParams) ∧
      SignsBatch plainCrates provingSetup .strk20PrepareInvoke secondParams batchPrompt
        (batchRun secondParams) := by
  have hname : Method.ofString "wallet_strk20PrepareInvoke" = some .strk20PrepareInvoke := by
    decide +kernel
  have hprompt₁ : approvedAt (batchRun firstParams) 24 = some batchPrompt := by decide +kernel
  have hprompt₂ : approvedAt (batchRun secondParams) 24 = some batchPrompt := by decide +kernel
  exact prompt_determines_batch hname hname (by decide) (by decide) (performs_replay _ _)
    (performs_replay _ _) (mem_of_approvedAt hprompt₁) (mem_of_approvedAt hprompt₂)

end Strkd.Service
