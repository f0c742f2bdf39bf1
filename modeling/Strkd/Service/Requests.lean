import Strkd.Service.Conduct
import Strkd.Service.World

/-!
# The request handlers keep the rules

One theorem for each handler, from the stage its request is in when it gets there, and from them
that every request keeps the rule book of its method from beginning to end.
-/

namespace Strkd.Service

open Wallet Prover Rpc

variable {K : Crates} {S : Setup} {method : String} {tr : Trace} {c : PairedClient}

/-- The value of a handler, whatever it is. -/
abbrev Done (K : Crates) (method : String) (tr : Trace) {α : Type} (m : Serve α) : Prop :=
  Obeys (requestRules K method) tr m fun _ _ => True

theorem done_quiet {α : Type} {m : Serve α} (hm : Quiet m) : Done K method tr m :=
  obeys_done hm requestRules_quiet

/-- A request that is open, with a condition that the rest needs. -/
theorem Open.quiet {α β : Type} {m : Serve α} {f : α → Serve β} {Q : Trace → β → Prop}
    (h : Open tr c) (hm : Quiet m)
    (hf : ∀ tr' a, tr <+: tr' → Open tr' c → Obeys (requestRules K method) tr' (f a) Q) :
    Obeys (requestRules K method) tr (m >>= f) Q :=
  Obeys.quiet hm requestRules_quiet (steady_open c) h hf

/-! ## Pairing -/

theorem done_reattachClient {name : String} {kind : ClientKind} {id : String}
    (hk : ¬ Rejected tr) : Done K method tr (reattachClient name kind id) := by
  refine Obeys.quiet (quiet_ownedAccounts _) requestRules_quiet steady_not_rejected hk
    fun tr' n _ hk => Obeys.ask hk fun tr'' _ ha hk' _ => Obeys.act ⟨ha, hk'⟩ fun answer => ?_
  split
  · exact serves_pure trivial
  · exact done_quiet (.bind (quiet_act rfl) fun crashed => nomatch crashed)

theorem done_pairClient {name : String} {kind : ClientKind} (hk : ¬ Rejected tr) :
    Done K method tr (pairClient name kind) :=
  Obeys.ask hk fun _ _ ha hk' _ => Obeys.act ⟨ha, hk'⟩ fun _ => serves_pure trivial

theorem done_handlePairing {params : Json} (hk : ¬ Rejected tr) :
    Done K method tr (handlePairing params) := by
  unfold handlePairing
  dsimp only
  split
  · refine Obeys.quiet (quiet_act rfl) requestRules_quiet steady_not_rejected hk
      fun tr' existing _ hk' => ?_
    cases existing with
    | some id => exact done_reattachClient hk'
    | none => exact done_pairClient hk'
  · exact done_pairClient hk

/-! ## Signatures -/

theorem done_handleSignTypedData {params : Json} (hw : Method.signTypedData.wire = method)
    (h : Open tr c) : Done K method tr (handleSignTypedData K c params) := by
  refine .lift fun _ _ => .lift fun want _ => .lift fun document _ =>
    .scopedAccount h fun tr' account _ ho => .gate rfl hw ho.1 fun tr'' htr hc _ => ?_
  exact Obeys.act ⟨c, hc, ho.2.mono htr⟩ fun _ => done_quiet (.bind (quiet_propagate _) fun _ => .pure _)

theorem done_signAndSubmit {chain : ChainId} {account : AccountRef} {calls : List Call}
    {nonce : Felt} {bounds : FeeBounds} {submit : Bool} {proofFacts : List Felt}
    {proof : Option String}
    (h : ∃ c, Cleared method tr c ∧
      (InScope tr c account ∨ method = Method.requestFunding.wire ∧ Funds K tr c account calls)) :
    Done K method tr (signAndSubmit K chain account calls nonce bounds submit proofFacts proof) := by
  refine Obeys.act h fun answer => done_quiet (.bind (quiet_propagate _) fun signed =>
    .bind (.lift _) fun sender => ?_)
  split
  · exact .bind (quiet_requireNode _) fun _ => .bind (.mapErr (quiet_addInvoke ..)) fun _ => .pure _
  · exact .pure _

theorem done_handleAddInvoke {params : Json} (hw : Method.addInvokeTransaction.wire = method)
    (h : Open tr c) : Done K method tr (handleAddInvoke K c params) := by
  refine .lift fun _ _ => .lift fun want _ => .lift fun calls _ => .lift fun proofFacts _ =>
    .lift fun proof _ => .refuse fun _ => .scopedAccount h fun tr' account _ ho =>
    .lift fun sender _ => .quiet (quiet_resolveChain ..) requestRules_quiet
    (steady_open_inScope c account) ho fun tr'' chain _ ho => .quiet (quiet_resolveExec ..)
    requestRules_quiet (steady_open_inScope c account) ho fun tr₃ ⟨nonce, bounds⟩ _ ho =>
    .gate rfl hw ho.1 fun tr₄ htr hc _ => ?_
  exact done_signAndSubmit ⟨c, hc, Or.inl (ho.2.mono htr)⟩

theorem done_signAndDeclare {chain : ChainId} {account : AccountRef}
    {sender classHash compiledClassHash : Felt} {classJson : Option Json} {nonce : Felt}
    {bounds : FeeBounds} {submit : Bool} (h : ∃ c, Cleared method tr c ∧ InScope tr c account) :
    Done K method tr (signAndDeclare K chain account sender classHash compiledClassHash classJson
      nonce bounds submit) := by
  refine Obeys.act h fun answer => done_quiet (.bind (quiet_propagate _) fun signed => ?_)
  split
  · refine .bind (quiet_requireNode _) fun _ => ?_
    split
    · exact .throw _
    · exact .bind (.mapErr (quiet_addDeclare ..)) fun _ => .pure _
  · exact .pure _

theorem done_handleAddDeclare {params : Json} (hw : Method.addDeclareTransaction.wire = method)
    (h : Open tr c) : Done K method tr (handleAddDeclare K c params) := by
  refine .lift fun _ _ => .lift fun want _ => .scopedAccount h fun tr' account _ ho =>
    .lift fun sender _ => .lift fun contractClass _ => .lift fun given _ =>
    .lift fun classHash _ => .lift fun compiled _ => .quiet (quiet_resolveChain ..)
    requestRules_quiet (steady_open_inScope c account) ho fun tr'' chain _ ho =>
    .quiet (quiet_resolveNonce ..) requestRules_quiet (steady_open_inScope c account) ho
    fun tr₃ nonce _ ho => .quiet (quiet_declareBounds ..) requestRules_quiet
    (steady_open_inScope c account) ho fun tr₄ bounds _ ho => .gate rfl hw ho.1
    fun tr₅ htr hc _ => ?_
  exact done_signAndDeclare ⟨c, hc, ho.2.mono htr⟩

theorem done_signAndEnqueue {chain : ChainId} {account : AccountRef} {sender : Felt}
    {calls : List Call} {nonce : Felt} {bounds : FeeBounds} {params : Json}
    (h : ∃ c, Cleared method tr c ∧ InScope tr c account) :
    Done K method tr (signAndEnqueue chain account sender calls nonce bounds params) := by
  obtain ⟨c, hc, ha⟩ := h
  exact Obeys.act ⟨c, hc, Or.inl ha⟩ fun answer => done_quiet
    (.bind (quiet_propagate _) fun signed => .bind (quiet_enqueueProve ..) fun _ => .pure _)

theorem done_handleSignAndProve {params : Json} (hw : Method.signAndProve.wire = method)
    (h : Open tr c) : Done K method tr (handleSignAndProve K S c params) := by
  refine .lift fun _ _ => .lift fun _ _ => .lift fun want _ => .lift fun calls _ =>
    h.quiet (quiet_resolveChain ..) fun tr' chain _ h => .scopedAccount h fun tr'' account _ ho =>
    .lift fun sender _ => .quiet (quiet_resolveNonce ..) requestRules_quiet
    (steady_open_inScope c account) ho fun tr₃ nonce _ ho => .lift fun bounds _ => ?_
  cases bounds with
  | none => exact serves_throw trivial
  | some bounds =>
      refine .gate rfl hw ho.1 fun tr₄ htr hc _ => ?_
      exact done_signAndEnqueue ⟨c, hc, ho.2.mono htr⟩

/-! ## Grants and wallet settings -/

theorem done_handleRequestGrant {params : Json} (h : Open tr c) :
    Done K method tr (handleRequestGrant c params) := by
  refine .ask h.kept fun tr' htr ha hk _ => .act trivial fun now => ?_
  have hk' := not_rejected_append (e := ⟨.clock .grant, now⟩) hk fun r hr => by cases hr
  have hpre := List.prefix_append tr' [⟨.clock .grant, now⟩]
  exact .act ⟨⟨c, h.caller.mono (htr.trans hpre), rfl⟩, ha.mono hpre, hk'⟩ fun _ => serves_pure trivial

theorem done_handleSwitchChain {params : Json} (h : Open tr c) :
    Done K method tr (handleSwitchChain K c params) := by
  refine .lift fun chainId _ => ?_
  split
  · split
    · exact .ask h.kept fun tr' htr ha hk _ =>
        .act ⟨⟨c, h.caller.mono htr⟩, ha, hk⟩ fun _ => serves_pure trivial
    · exact serves_throw trivial
  · exact serves_throw trivial

theorem done_handleWatchAsset {params : Json} (h : Open tr c) :
    Done K method tr (handleWatchAsset c params) := by
  unfold handleWatchAsset
  dsimp only
  split
  · exact .ask h.kept fun tr' htr ha hk _ =>
      .act ⟨⟨c, h.caller.mono htr⟩, ha, hk⟩ fun _ => serves_pure trivial
  · exact serves_throw trivial

/-! ## Funding -/

theorem done_handleRequestFunding {params : Json} (hw : Method.requestFunding.wire = method)
    (h : Open tr c) : Done K method tr (handleRequestFunding K c params) := by
  unfold handleRequestFunding
  refine .refuse fun hkind => ?_
  refine .lift fun amount _ => ?_
  refine .refuse fun _ => ?_
  dsimp only
  split
  · rename_i token _
    refine .lift fun index _ => .scopedAccountOr h fun tr' recipient _ ho =>
      .lift fun toAddr hto => .act trivial fun s => .lift fun manager hman => ?_
    split
    · rename_i sender _
      -- what the trace shows of the top-up from here on
      let Ready : Trace → Prop := fun tr => Open tr c ∧ InScope tr c recipient ∧
        (⟨.session, s⟩ : Event Op Ans) ∈ tr
      have hsteady : Steady Ready := (steady_open c).and ((steady_inScope c recipient).and
        (steady_of_mono fun _ _ hs htr => htr.subset hs))
      have hready : Ready (tr' ++ [⟨.session, s⟩]) := by
        refine ⟨steady_open c _ _ rfl ho.1, ho.2.mono (List.prefix_append _ _), ?_⟩
        exact List.mem_append_right _ List.mem_cons_self
      refine .quiet (quiet_resolveChain ..) requestRules_quiet hsteady hready
        fun tr₁ chain _ h₁ => .quiet (quiet_requireDeployed ..) requestRules_quiet hsteady h₁
        fun tr₂ _ _ h₂ => .quiet (quiet_resolveExec ..) requestRules_quiet hsteady h₂
        fun tr₃ ⟨nonce, bounds⟩ _ h₃ => .ask h₃.1.kept fun tr₄ htr ha hk _ => ?_
      refine Serves.bind (Q := fun _ _ => True) ?_ fun _ _ _ _ => serves_pure trivial
      refine done_signAndSubmit ⟨c, ⟨h₃.1.caller.mono htr, hk, Or.inl ha⟩, Or.inr ⟨hw.symm, ?_⟩⟩
      refine ⟨not_not.mp hkind, ha, ⟨s, index, htr.subset h₃.2.2, hman⟩, recipient, toAddr, token,
        amount, h₃.2.1.mono htr, WalletSession.storedAddress_eq_ok hto, rfl⟩
    · exact serves_throw trivial
  · exact serves_throw trivial

/-! ## Deployment -/

theorem done_signAndDeploy {chain : ChainId} {account : AccountRef} {bounds : FeeBounds}
    {submit : Bool} (h : ∃ c, Cleared method tr c ∧ InScope tr c account) :
    Done K method tr (signAndDeploy K chain account bounds submit) := by
  refine Obeys.act h fun answer => done_quiet (.bind (quiet_propagate _) fun signed => ?_)
  split
  · exact .bind (quiet_requireNode _) fun _ =>
      .bind (.mapErr (quiet_addDeployAccount ..)) fun _ => .pure _
  · exact .pure _

theorem done_handleDeployAccount {params : Json} (hw : Method.deployAccount.wire = method)
    (h : Open tr c) : Done K method tr (handleDeployAccount K c params) := by
  refine .scopedAccountOr h fun tr' account _ ho => .quiet (quiet_resolveChain ..)
    requestRules_quiet (steady_open_inScope c account) ho fun tr₁ chain _ ho =>
    .quiet (quiet_requireUndeployed ..) requestRules_quiet (steady_open_inScope c account) ho
    fun tr₂ _ _ ho => .quiet (quiet_act rfl) requestRules_quiet (steady_open_inScope c account) ho
    fun tr₃ s _ ho => .lift fun d _ => .quiet (quiet_deployBounds ..) requestRules_quiet
    (steady_open_inScope c account) ho fun tr₄ bounds _ ho => .gate rfl hw ho.1
    fun tr₅ htr hc _ => ?_
  exact done_signAndDeploy ⟨c, hc, ho.2.mono htr⟩

/-! ## New accounts -/

/-- What a request of `c` carries through the steps it takes under the session lock. -/
def Locked (method : String) (c : PairedClient) (tr : Trace) : Prop :=
  Cleared method tr c ∧ holds tr = true

theorem steady_cleared (c : PairedClient) : Steady fun tr => Cleared method tr c := by
  intro tr e he h
  have hpre := List.prefix_append tr [e]
  exact ⟨h.caller.mono hpre, steady_not_rejected tr e he h.kept, h.authorized.mono hpre⟩

theorem steady_locked (c : PairedClient) : Steady (Locked method c) :=
  (steady_cleared c).and (steady_holds true)

theorem serves_persistVault (h : Locked method c tr) :
    Serves (requestRules K method) tr (persistVault K) (fun tr' _ => Locked method c tr')
      fun tr' _ => Locked method c tr' := by
  refine Serves.bind (serves_resealSession requestRules_quiet (steady_locked c) h)
    fun tr' vault _ hv => Serves.mapErr ?_
  have hw : (requestRules K method).allows tr' (.writeTmp vault) := ⟨hv.2.2, hv.1, c, hv.2.1⟩
  have hr : (requestRules K method).allows (tr' ++ [⟨.writeTmp vault, .ok ()⟩]) .renameTmp :=
    ⟨(holds_append _ _).trans hv.2.2, ⟨tr', vault, rfl, hv.1⟩, c, steady_cleared c _ _ rfl hv.2.1⟩
  exact (serves_saveVault hw hr (steady_locked c) hv.2).mono fun _ _ _ h => h.2

theorem serves_persistOrRollback {account : AccountRef} (h : Locked method c tr)
    (ha : ∃ id label, (⟨.createAgentAccount id label, .ok account⟩ : Event Op Ans) ∈ tr) :
    Serves (requestRules K method) tr (persistOrRollback K account)
      (fun tr' _ => Locked method c tr') fun tr' _ => Locked method c tr' := by
  refine Serves.attempt (serves_persistVault h) fun tr' r htr hr => ?_
  cases r with
  | ok _ => exact hr
  | error e =>
      obtain ⟨id, label, ha⟩ := ha
      refine Serves.act ⟨hr.2, ⟨c, hr.1⟩, id, label, account, htr.subset ha, rfl⟩ fun _ _ => ?_
      exact steady_locked c _ _ rfl hr

theorem done_handleCreateAgentAccount {params : Json}
    (hw : Method.createAgentAccount.wire = method) (h : Open tr c) :
    Done K method tr (handleCreateAgentAccount K S c params) := by
  unfold handleCreateAgentAccount
  refine .refuse fun hkind => ?_
  refine .gate rfl hw h fun tr₁ _ hc hu => ?_
  refine (serves_holdingSession hu (fun _ => id) ?_).weaken (fun _ _ _ _ => trivial)
    fun _ _ _ _ => trivial
  have hlocked : Locked method c (tr₁ ++ [⟨.acquireSession, ()⟩]) := by
    have hpre := List.prefix_append tr₁ [⟨.acquireSession, ()⟩]
    have hk := not_rejected_append (e := ⟨.acquireSession, ()⟩) hc.kept fun r hr => by cases hr
    exact ⟨⟨hc.caller.mono hpre, hk, hc.authorized.mono hpre⟩, holds_append tr₁ _⟩
  refine Serves.weaken (P := fun tr' _ => Locked method c tr')
    (F := fun tr' _ => Locked method c tr') ?_ (fun _ _ _ h => h.2) fun _ _ _ h => h.2
  refine Serves.act ⟨c, hlocked.1, not_not.mp hkind, rfl, hlocked.2⟩ fun answer _ => ?_
  have hafter := steady_locked c _ ⟨.createAgentAccount c.id _, answer⟩ rfl hlocked
  cases answer with
  | error e => exact hafter
  | ok account =>
      have hcreated : ∃ id label, (⟨.createAgentAccount id label, .ok account⟩ : Event Op Ans) ∈
          tr₁ ++ [⟨.acquireSession, ()⟩] ++ [⟨.createAgentAccount c.id
            ((optParamStr params "label").getD c.label), .ok account⟩] :=
        ⟨_, _, List.mem_append_right _ List.mem_cons_self⟩
      refine Serves.bind (m := propagate (.ok account)) (Q := fun tr' a => a = account ∧
        tr' = tr₁ ++ [⟨.acquireSession, ()⟩] ++ [⟨.createAgentAccount c.id
          ((optParamStr params "label").getD c.label), .ok account⟩]) ⟨rfl, rfl⟩ ?_
      rintro tr' a - ⟨rfl, rfl⟩
      dsimp only
      split
      · exact Serves.bind (serves_persistOrRollback hafter hcreated) fun _ _ _ h => serves_pure h
      · exact serves_pure hafter

/-! ## STRK20 -/

section Batches

open Rpc.Strk20

variable {β : Type} {Q : Trace → β → Prop}

theorem obeys_callerAccount {params : Json} (h : Open tr c) :
    Obeys (requestRules K method) tr (callerAccount K (.rpc c) params) fun tr' a =>
      Open tr' c ∧ InScope tr' c a := by
  refine Serves.bind (obeys_readRegistry (steady_open c) h) fun tr' reg _ hreg => ?_
  obtain ⟨ho, s, u, hs, hu, rfl⟩ := hreg
  dsimp only
  split
  · refine Obeys.lift fun want _ => ?_
    exact obeys_found ho (fun a ha => ⟨s, u, hs, hu, List.mem_of_find?_eq_some ha⟩)
      (fun _ => rfl) rfl
  · exact obeys_found ho (fun a ha => ⟨s, u, hs, hu, List.mem_of_head? ha⟩) (fun _ => rfl) rfl

/-- First the account and the pool of a batch, then the rest. -/
theorem Obeys.ctx {params : Json} {f : Ctx → Serve β}
    (h : Open tr c) (hf : ∀ tr' x, tr <+: tr' → Open tr' c ∧ InScope tr' c x.account →
      Obeys (requestRules K method) tr' (f x) Q) :
    Obeys (requestRules K method) tr (ctx K S (.rpc c) params >>= f) Q := by
  refine Serves.bind (Q := fun tr' x => Open tr' c ∧ InScope tr' c x.account) ?_ hf
  refine h.quiet (quiet_resolveChain ..) fun tr₁ chain _ h => ?_
  refine Serves.bind (obeys_callerAccount h) fun tr₂ account _ ho => Obeys.lift fun user _ => ?_
  refine .quiet (quiet_requireNode _) requestRules_quiet (steady_open_inScope c account) ho
    fun tr₃ _ _ ho => ?_
  split
  · exact .quiet (quiet_act rfl) requestRules_quiet (steady_open_inScope c account) ho
      fun tr₄ cfg _ ho => .lift fun pool _ => serves_pure ho
  · exact Serves.bind (Q := fun tr' _ => Open tr' c ∧ InScope tr' c account) (serves_pure ho)
      fun _ _ _ ho => Obeys.lift fun pool _ => serves_pure ho

/-- First the approval of a batch, then the rest. -/
theorem Obeys.approve {m : Method} {summary : String} {f : Unit → Serve β} (hm : m.gated = true)
    (hw : m.wire = method) (h : Open tr c)
    (hf : ∀ tr', tr <+: tr' → Cleared method tr' c → holds tr' = false →
      Obeys (requestRules K method) tr' (f ()) Q) :
    Obeys (requestRules K method) tr ((Rpc.Strk20.Caller.rpc c).approve m.wire summary >>= f) Q := by
  unfold Rpc.Strk20.Caller.approve
  rw [bind_assoc]
  exact .gate hm hw h hf

/-- First the viewing key of an account in scope, then the rest. -/
theorem Obeys.viewingKey {x : Ctx} {f : Felt → Serve β} {P : Trace → Prop} (hP : Steady P)
    (h0 : P tr) (hc : Caller tr c) (ha : InScope tr c x.account)
    (hf : ∀ tr' k, tr <+: tr' → P tr' → Obeys (requestRules K method) tr' (f k) Q) :
    Obeys (requestRules K method) tr (x.viewingKey >>= f) Q := by
  unfold Ctx.viewingKey
  rw [bind_assoc]
  refine .act ⟨c, hc, ha⟩ fun answer => ?_
  have hpre := List.prefix_append tr [⟨.viewingKey x.account x.chain x.pool, answer⟩]
  cases answer with
  | error e => exact serves_throw trivial
  | ok k => exact hf _ k hpre (hP _ _ rfl h0)

theorem done_signAndProveBatch {x : Ctx} {text : String} {proving : Proving} {userSk : Felt}
    {block : ℕ} {plan : Strkd.Strk20.Plan} (hc : Cleared method tr c) (ha : InScope tr c x.account) :
    Obeys (requestRules K method) tr (signAndProveBatch K x text proving userSk block plan)
      fun tr' _ => Cleared method tr' c ∧ InScope tr' c x.account := by
  have hsteady : Steady fun tr => Cleared method tr c ∧ InScope tr c x.account :=
    (steady_cleared c).and (steady_inScope c x.account)
  refine .quiet (quiet_poolNonce ..) requestRules_quiet hsteady ⟨hc, ha⟩
    fun tr₁ nonce _ h₁ => .act ⟨c, h₁.1, h₁.2⟩ fun answer => ?_
  refine .quiet (quiet_propagate _) requestRules_quiet hsteady (hsteady _ _ rfl h₁)
    fun tr₂ signature _ h₂ => .quiet (quiet_proveInvocation ..) requestRules_quiet hsteady h₂
    fun tr₃ result _ h₃ => ?_
  split
  · exact serves_throw trivial
  · split
    · exact serves_throw trivial
    · exact serves_pure h₃

theorem done_prepare {m : Method} {x : Ctx} {intent : Strkd.Strk20.Intent} {proving : Proving}
    {submission : String} (hm : m.gated = true) (hw : m.wire = method) (h : Open tr c)
    (ha : InScope tr c x.account) :
    Obeys (requestRules K method) tr
      (prepare K S (.rpc c) m.wire x intent proving submission)
      fun tr' _ => Cleared method tr' c ∧ InScope tr' c x.account := by
  have hsteady := steady_open_inScope c x.account
  refine .lift fun _ _ => .quiet (quiet_blockNumber ..) requestRules_quiet hsteady ⟨h, ha⟩
    fun tr₁ head _ h₁ => .viewingKey hsteady h₁ h₁.1.caller h₁.2 fun tr₂ userSk _ h₂ =>
    .quiet (quiet_freshPlan ..) requestRules_quiet hsteady h₂ fun tr₃ plan _ h₃ =>
    .approve hm hw h₃.1 fun tr₄ htr hc _ => ?_
  exact done_signAndProveBatch hc (h₃.2.mono htr)

theorem done_submitFromAccount {x : Ctx} {prepared : Prepared} {deposits : List (Felt × U128)}
    (hc : Cleared method tr c) (ha : InScope tr c x.account) :
    Done K method tr (submitFromAccount K x prepared deposits) := by
  have hsteady : Steady fun tr => Cleared method tr c ∧ InScope tr c x.account :=
    (steady_cleared c).and (steady_inScope c x.account)
  refine .quiet (quiet_requireFreshAttestation _) requestRules_quiet hsteady ⟨hc, ha⟩
    fun tr₁ _ _ h₁ => .quiet (quiet_poolFee ..) requestRules_quiet hsteady h₁
    fun tr₂ fee _ h₂ => .quiet (.mapErr (quiet_getNonce ..)) requestRules_quiet hsteady h₂
    fun tr₃ nonce _ h₃ => .quiet (.mapErr (quiet_estimate ..)) requestRules_quiet hsteady h₃
    fun tr₄ bounds _ h₄ => .act ⟨c, h₄.1, Or.inl h₄.2⟩ fun answer => done_quiet ?_
  exact .bind (quiet_propagate _) fun signed => .mapErr (quiet_addInvoke ..)

theorem done_balances {params : Json} (hw : Method.strk20Balances.wire = method) (h : Open tr c) :
    Done K method tr (balances K S (.rpc c) params) := by
  refine .lift fun tokens _ => .ctx h fun tr₁ x _ h₁ => .approve rfl hw h₁.1
    fun tr₂ htr hc _ => ?_
  refine .viewingKey (P := fun _ => True) (fun _ _ _ _ => trivial) trivial hc.caller
    (h₁.2.mono htr) fun tr₃ userSk _ _ => done_quiet ?_
  refine .bind (.mapErr (confined_registeredKey K (quiet_reader ..) _)) fun key => ?_
  have hrest : Quiet (do
      let notes ← fromPool (Strkd.Strk20.discoverNotes K (x.latest K) x.user userSk tokens)
      return Json.arr (tokens.map fun t => .obj [("token", .str (feltHex t)),
        ("balance", .str ("0x" ++ hexText (balanceOf notes t).toNat))]) : Serve Json) :=
    .bind (.mapErr (confined_discoverNotes K (quiet_reader ..) ..)) fun _ => .pure _
  dsimp only
  split
  · exact .bind (.throw _) fun _ => hrest
  · exact hrest

theorem done_register {params : Json} (hw : Method.strk20Register.wire = method) (h : Open tr c) :
    Done K method tr (register K S (.rpc c) params) := by
  refine .ctx h fun tr₁ x _ h₁ => .quiet (.mapErr (confined_registeredKey K (quiet_reader ..) _))
    requestRules_quiet (steady_open_inScope c x.account) h₁ fun tr₂ key _ h₂ => .refuse fun _ => ?_
  refine Serves.bind (done_prepare (m := .strk20Register) rfl hw h₂.1 h₂.2) fun tr₃ prepared _ h₃ => ?_
  exact Serves.bind (done_submitFromAccount h₃.1 h₃.2) fun _ _ _ _ => serves_pure trivial

theorem done_prepareInvoke {params : Json} (hw : Method.strk20PrepareInvoke.wire = method)
    (h : Open tr c) : Done K method tr (prepareInvoke K S (.rpc c) params) := by
  refine .lift fun actions _ => .ctx h fun tr₁ x _ h₁ => .lift fun proving _ => ?_
  exact Serves.bind (done_prepare (m := .strk20PrepareInvoke) rfl hw h₁.1 h₁.2)
    fun _ _ _ _ => serves_pure trivial

theorem done_invokeDeposit {x : Ctx} {actions : List Action} {intent : Strkd.Strk20.Intent}
    (hw : Method.strk20InvokeTransaction.wire = method) (h : Open tr c)
    (ha : InScope tr c x.account) :
    Done K method tr (invokeDeposit K S (.rpc c) x actions intent) := by
  unfold invokeDeposit
  refine .refuse fun _ => ?_
  refine .lift fun proving _ => .quiet (quiet_checkPublicFunds ..) requestRules_quiet
    (steady_open_inScope c x.account) ⟨h, ha⟩ fun tr₁ _ _ h₁ => ?_
  refine Serves.bind (done_prepare (m := .strk20InvokeTransaction) rfl hw h₁.1 h₁.2)
    fun tr₃ prepared _ h₃ => ?_
  exact Serves.bind (done_submitFromAccount h₃.1 h₃.2) fun _ _ _ _ => serves_pure trivial

theorem done_invokeRelayed {x : Ctx} {intent : Strkd.Strk20.Intent}
    (hw : Method.strk20InvokeTransaction.wire = method) (h : Open tr c)
    (ha : InScope tr c x.account) :
    Done K method tr (invokeRelayed K S (.rpc c) x intent) := by
  unfold invokeRelayed
  refine .refuse fun _ => ?_
  refine .quiet (.mapErr (quiet_quote ..)) requestRules_quiet (steady_open_inScope c x.account)
    ⟨h, ha⟩ fun tr₁ fee _ h₁ => ?_
  refine Serves.bind (Serves.mapErr (done_prepare (m := .strk20InvokeTransaction) rfl hw h₁.1 h₁.2))
    fun tr₂ prepared _ _ => ?_
  exact done_quiet (.bind (.mapErr (quiet_execute ..)) fun _ => .pure _)

theorem done_invokeTransaction {params : Json}
    (hw : Method.strk20InvokeTransaction.wire = method) (h : Open tr c) :
    Done K method tr (invokeTransaction K S (.rpc c) params) := by
  refine .lift fun actions _ => .ctx h fun tr₁ x _ h₁ => ?_
  split
  · exact done_invokeDeposit hw h₁.1 h₁.2
  · exact done_invokeRelayed hw h₁.1 h₁.2

end Batches

/-! ## Every request -/

theorem done_serve {req : Request} {m : Option Method}
    (hm : ∀ x, m = some x → x.wire = req.method) (h : Open tr c) :
    Done K req.method tr (serve K S c req m) := by
  cases m with
  | none => exact serves_throw trivial
  | some x =>
      have hw := hm x rfl
      cases x with
      | requestChainId => exact done_quiet quiet_handleRequestChainId
      | requestAccounts | listAccounts => exact done_quiet (quiet_handleAccounts ..)
      | deploymentData => exact done_quiet (quiet_handleDeploymentData ..)
      | signTypedData => exact done_handleSignTypedData hw h
      | addInvokeTransaction => exact done_handleAddInvoke hw h
      | addDeclareTransaction => exact done_handleAddDeclare hw h
      | createAgentAccount => exact done_handleCreateAgentAccount hw h
      | switchStarknetChain => exact done_handleSwitchChain h
      | watchAsset => exact done_handleWatchAsset h
      | fundingSource => exact done_quiet (quiet_handleFundingSource _)
      | reportIssue | typedDataHash => exact done_quiet (quiet_propagate _)
      | estimateFee => exact done_quiet (quiet_handleEstimateFee ..)
      | requestGrant => exact done_handleRequestGrant h
      | requestFunding => exact done_handleRequestFunding hw h
      | deployAccount => exact done_handleDeployAccount hw h
      | prove => exact done_quiet (quiet_handleProve ..)
      | proveStatus => exact done_quiet (quiet_handleProveStatus ..)
      | proofActivity => exact done_quiet (quiet_handleProofActivity _)
      | signAndProve => exact done_handleSignAndProve hw h
      | strk20Balances => exact done_balances hw h
      | strk20PrepareInvoke => exact done_prepareInvoke hw h
      | strk20InvokeTransaction => exact done_invokeTransaction hw h
      | strk20Register => exact done_register hw h
      | _ => exact serves_throw trivial

theorem safe_handlePaired {req : Request} {m : Option Method}
    (hm : ∀ x, m = some x → x.wire = req.method) (h : Open tr c) :
    Safe (requestRules K req.method) tr (handlePaired K S c req m) fun _ _ => True := by
  unfold handlePaired
  split
  · trivial
  · exact Safe.bind (done_serve hm h) fun _ _ _ _ => trivial

/-- The token of a request shows who calls. -/
theorem safe_verifyToken {token : Option String} (hk : ¬ Rejected tr) (hu : holds tr = false) :
    Safe (requestRules K method) tr (verifyToken token) fun tr' r => ∀ c, r = some c → Open tr' c := by
  cases token with
  | none => exact fun c hc => nomatch hc
  | some token =>
      refine ⟨trivial, fun r _ c hc => ?_⟩
      subst hc
      refine ⟨⟨token, List.mem_append_right _ List.mem_cons_self⟩, ?_, ?_⟩
      · exact steady_not_rejected _ _ rfl hk
      · exact steady_holds _ _ _ rfl hu

theorem safe_handle {token : Option String} {req : Request} (hk : ¬ Rejected tr)
    (hu : holds tr = false) :
    Safe (requestRules K req.method) tr (handle K S token req) fun _ _ => True := by
  unfold handle
  split
  · trivial
  · trivial
  · exact Safe.bind (safe_verifyToken hk hu) fun _ _ _ _ => trivial
  · refine Safe.bind (Q := fun _ _ => True) (Safe.bind (safe_verifyToken hk hu) ?_) ?_
    · intro tr' r _ _
      cases r with
      | none => trivial
      | some c => exact ⟨trivial, fun _ _ => trivial⟩
    · exact fun _ _ _ _ => ⟨trivial, fun _ _ => trivial⟩
  · exact Safe.bind (done_handlePairing hk) fun _ _ _ _ => trivial
  · refine Safe.bind (safe_verifyToken hk hu) fun tr' r _ hr => ?_
    cases r with
    | none => trivial
    | some c => exact safe_handlePaired (fun x hx => Method.wire_of_ofString hx) (hr c rfl)

/-- The last thing the request did was to have itself recorded, whether or not its row was
written. -/
def Recorded (req : Request) (tr : Trace) : Prop :=
  ∃ before entry written, tr = before ++ [⟨.record entry, written⟩] ∧ entry.method = req.method

/-- Every request keeps the rules of its method, and is recorded by the time it is answered. -/
theorem safe_dispatch {token : Option String} {req : Request} :
    Safe (requestRules K req.method) [] (dispatch K S token req) fun tr _ => Recorded req tr := by
  refine Safe.bind (p := carryOut .touchActivity) (Q := fun tr _ => ¬ Rejected tr ∧ holds tr = false)
    ⟨trivial, fun now _ => ⟨?_, rfl⟩⟩ fun tr _ _ h =>
    Safe.bind (safe_handle h.1 h.2) fun tr handled _ _ => ?_
  · rintro ⟨r, hr⟩
    cases List.mem_singleton.mp hr
  · refine ⟨trivial, fun s _ => ⟨trivial, fun now _ => ⟨trivial, fun latency _ =>
      ⟨trivial, fun written _ => ?_⟩⟩⟩⟩
    have hrecorded : ∀ entry : LogEntry, entry.method = req.method →
        Recorded req (tr ++ [⟨.session, s⟩] ++ [⟨.clock .log, now⟩] ++ [⟨.elapsed, latency⟩] ++
          [⟨.record entry, written⟩]) := fun entry he => ⟨_, entry, written, rfl, he⟩
    cases handled.result with
    | ok v => exact hrecorded _ rfl
    | error e => exact hrecorded _ rfl

end Strkd.Service
