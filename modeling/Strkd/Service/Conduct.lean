import Strkd.Rpc.Quiet

/-!
# What a request may do

The rule book of a request: which operation it may perform after what it did so far.  A signature
or a change of shared state needs the user's approval or, in the methods that honor one, an active
grant; an account has to be in the scope of the client that called.
-/

namespace Strkd.Service

open Wallet Prover Rpc

/-! ## What a trace shows -/

/-- The client whose token the request presented. -/
def Caller (tr : Trace) (c : PairedClient) : Prop :=
  ∃ token, (⟨.verify token, some c⟩ : Event Op Ans) ∈ tr

/-- The user approved this request. -/
def Approved (tr : Trace) : Prop :=
  ∃ r, (⟨.requestApproval r, .approve⟩ : Event Op Ans) ∈ tr

/-- The user refused this request. -/
def Rejected (tr : Trace) : Prop :=
  ∃ r, (⟨.requestApproval r, .reject⟩ : Event Op Ans) ∈ tr

/-- The method is one that honors grants. -/
def IsGated (method : String) : Prop := ∃ m : Method, m.gated = true ∧ m.wire = method

/-- In a gated method, the record of `c` read with its token had a grant that was active. -/
def Granted (tr : Trace) (c : PairedClient) (method : String) : Prop :=
  (∃ m : Method, m.gated = true ∧ m.wire = method) ∧
    ∃ now, (⟨.clock (.gate c method), now⟩ : Event Op Ans) ∈ tr ∧ c.grantActive now = true

/-- The request read a session whose registry shows `a` to `c`. -/
def InScope (tr : Trace) (c : PairedClient) (a : AccountRef) : Prop :=
  ∃ s u, (⟨.session, s⟩ : Event Op Ans) ∈ tr ∧ s.unlocked = some u ∧
    a ∈ u.registry.scopedFor c.scope

/-- Whether an operation leaves its process with the session lock in hand, given whether it was. -/
def lockAfter (held : Bool) (e : Event Op Ans) : Bool :=
  match e.1 with
  | .acquireSession => true
  | .releaseSession => false
  | _ => held

/-- Whether the process holds the session lock. -/
def holds (tr : Trace) : Bool := tr.foldl lockAfter false

theorem holds_append (tr : Trace) (e : Event Op Ans) :
    holds (tr ++ [e]) = lockAfter (holds tr) e := by
  unfold holds
  rw [List.foldl_append]
  rfl

/-- The user approved the request, or a grant covered it. -/
def Authorized (tr : Trace) (c : PairedClient) (method : String) : Prop :=
  Approved tr ∨ Granted tr c method

/-- A request of `c` that was authorized, and not refused. -/
structure Cleared (method : String) (tr : Trace) (c : PairedClient) : Prop where
  caller : Caller tr c
  kept : ¬ Rejected tr
  authorized : Authorized tr c method

/-- A top-up that the user approved: one transfer from a manager account to an account of the
agent. -/
def Funds (K : Crates) (tr : Trace) (c : PairedClient) (a : AccountRef) (calls : List Call) : Prop :=
  c.kind = .agent ∧ Approved tr ∧
    (∃ s i, (⟨.session, s⟩ : Event Op Ans) ∈ tr ∧ s.managerAccount K i = .ok a) ∧
    ∃ recipient toAddr token amount, InScope tr c recipient ∧
      K.feltFromHex recipient.address = some toAddr ∧
      calls = [transferCall K token toAddr amount]

/-- The vault is what the session sealed to, read and sealed just now. -/
def Resealed (K : Crates) (tr : Trace) (vault : EncryptedVault) : Prop :=
  ∃ tr' s draws, tr = tr' ++ [⟨.session, s⟩, ⟨.entropy, draws⟩] ∧ s.reseal K draws = .ok vault

/-! ## The rule book -/

/-- What a request for `method` may do after `tr`. -/
def Permitted (K : Crates) (method : String) (tr : Trace) : Op → Prop
  | .clock (.gate c m) => Caller tr c ∧ m = method ∧ IsGated method
  | .requestApproval _ => ¬ Rejected tr
  | .pair _ _ | .reattach _ _ => Approved tr ∧ ¬ Rejected tr
  | .grant id _ => (∃ c, Caller tr c ∧ id = c.id) ∧ Approved tr ∧ ¬ Rejected tr
  | .setChain _ | .addWatchedAsset _ => (∃ c, Caller tr c) ∧ Approved tr ∧ ¬ Rejected tr
  | .signTypedData a _ | .signHash a _ | .signDeclare a _ _ _ _ | .signDeployAccount a _ _ =>
      ∃ c, Cleared method tr c ∧ InScope tr c a
  | .signInvoke a calls _ _ =>
      ∃ c, Cleared method tr c ∧
        (InScope tr c a ∨ method = Method.requestFunding.wire ∧ Funds K tr c a calls)
  | .viewingKey a _ _ => ∃ c, Caller tr c ∧ InScope tr c a
  | .acquireSession => holds tr = false
  | .releaseSession => holds tr = true
  | .createAgentAccount id _ =>
      ∃ c, Cleared method tr c ∧ c.kind = .agent ∧ id = c.id ∧ holds tr = true
  | .rollbackAccount address =>
      holds tr = true ∧ (∃ c, Cleared method tr c) ∧
        ∃ id label a, (⟨.createAgentAccount id label, .ok a⟩ : Event Op Ans) ∈ tr ∧
          address = a.address
  | .writeTmp vault => holds tr = true ∧ Resealed K tr vault ∧ ∃ c, Cleared method tr c
  | .renameTmp => holds tr = true ∧
      (∃ tr' vault, tr = tr' ++ [⟨.writeTmp vault, .ok ()⟩] ∧ Resealed K tr' vault) ∧
      ∃ c, Cleared method tr c
  | .revokeGrant _ | .revoke _ | .createUserAccount _ | .unlockSession _ _ | .lockSession
  | .installSession _ | .reveal _ _ | .stageMnemonic _ | .takeMnemonic | .loadVault
  | .renameToBackup _ | .createSettings | .writeSettings _ | .protectSettings
  | .backoffCheck _ | .backoffFailure _ | .backoffSuccess | .randomMnemonic _ => False
  | _ => True

def requestRules (K : Crates) (method : String) : Rules Op Ans where
  allows := Permitted K method
  legal _ _ _ := True

/-! ## How the facts of a trace carry over -/

section Facts

variable {method : String} {tr tr' : Trace} {c : PairedClient}

theorem Caller.mono (h : Caller tr c) (htr : tr <+: tr') : Caller tr' c := by
  obtain ⟨token, h⟩ := h
  exact ⟨token, htr.subset h⟩

theorem Approved.mono (h : Approved tr) (htr : tr <+: tr') : Approved tr' := by
  obtain ⟨r, h⟩ := h
  exact ⟨r, htr.subset h⟩

theorem InScope.mono {a : AccountRef} (h : InScope tr c a) (htr : tr <+: tr') :
    InScope tr' c a := by
  obtain ⟨s, u, hs, h⟩ := h
  exact ⟨s, u, htr.subset hs, h⟩

theorem Authorized.mono (h : Authorized tr c method) (htr : tr <+: tr') :
    Authorized tr' c method := by
  rcases h with h | ⟨hm, now, hnow, h⟩
  · exact Or.inl (h.mono htr)
  · exact Or.inr ⟨hm, now, htr.subset hnow, h⟩

theorem not_rejected_append {e : Event Op Ans} (h : ¬ Rejected tr)
    (he : ∀ r, e ≠ ⟨.requestApproval r, .reject⟩) : ¬ Rejected (tr ++ [e]) := by
  rintro ⟨r, hr⟩
  rcases List.mem_append.mp hr with hr | hr
  · exact h ⟨r, hr⟩
  · exact he r (List.mem_singleton.mp hr).symm

end Facts

/-! ## Steady facts -/

/-- Operations that neither ask the user nor take or free the session lock. -/
def still : Op → Bool
  | .requestApproval _ | .acquireSession | .releaseSession => false
  | _ => true

theorem still_of_quiet {op : Op} (h : quiet op = true) : still op = true := by
  cases op <;> first | rfl | cases h

/-- A property of traces that still operations keep. -/
def Steady (P : Trace → Prop) : Prop :=
  ∀ tr (e : Event Op Ans), still e.1 = true → P tr → P (tr ++ [e])

theorem Steady.and {P Q : Trace → Prop} (hP : Steady P) (hQ : Steady Q) :
    Steady fun tr => P tr ∧ Q tr :=
  fun tr e he h => ⟨hP tr e he h.1, hQ tr e he h.2⟩

/-- What only asks for events to be in the trace is steady. -/
theorem steady_of_mono {P : Trace → Prop} (h : ∀ tr tr', P tr → tr <+: tr' → P tr') : Steady P :=
  fun tr _ _ hP => h tr _ hP (List.prefix_append tr _)

theorem steady_not_rejected : Steady fun tr => ¬ Rejected tr := by
  intro tr e he h
  refine not_rejected_append h fun r hr => ?_
  subst hr
  cases he

theorem steady_holds (held : Bool) : Steady fun tr => holds tr = held := by
  intro tr e he h
  rw [holds_append, h]
  obtain ⟨op, a⟩ := e
  cases op <;> first | rfl | cases he

/-! ## Keeping a rule book -/

section Keeping

variable {K : Crates} {R : Rules Op Ans} {tr : Trace} {ε α β : Type}

/-- After `tr`, the computation keeps the rules `R` and its value satisfies `Q`. -/
abbrev Obeys (R : Rules Op Ans) (tr : Trace) (m : Handler ε Op Ans α) (Q : Trace → α → Prop) :
    Prop :=
  Serves R tr m Q fun _ _ => True

/-- A rule book that leaves quiet operations alone. -/
def AllowsQuiet (R : Rules Op Ans) : Prop := ∀ tr op, quiet op = true → R.allows tr op

theorem serves_quiet {m : Handler ε Op Ans α} (hm : Quiet m) (hR : AllowsQuiet R)
    {P : Trace → Prop} (hP : Steady P) (h0 : P tr) :
    Serves R tr m (fun tr' _ => P tr') fun tr' _ => P tr' :=
  Confined.serves (P := fun op => quiet op = true) hm (fun tr op _ h => hR tr op h)
    (fun tr op a hI h => hP tr ⟨op, a⟩ (still_of_quiet h) hI) h0

theorem obeys_quiet {m : Handler ε Op Ans α} (hm : Quiet m) (hR : AllowsQuiet R)
    {P : Trace → Prop} (hP : Steady P) (h0 : P tr) : Obeys R tr m fun tr' _ => P tr' := by
  refine Safe.mono (serves_quiet hm hR hP h0) fun tr' r _ hr => ?_
  cases r with
  | ok a => exact hr
  | error e => trivial

theorem obeys_done {m : Handler ε Op Ans α} (hm : Quiet m) (hR : AllowsQuiet R) :
    Obeys R tr m fun _ _ => True :=
  obeys_quiet (P := fun _ => True) hm hR (fun _ _ _ _ => trivial) trivial

variable {Q : Trace → β → Prop}

/-- First a computation of the rest of the world, then the rest. -/
theorem Obeys.quiet {m : Handler ε Op Ans α} {f : α → Handler ε Op Ans β} (hm : Quiet m)
    (hR : AllowsQuiet R) {P : Trace → Prop} (hP : Steady P) (h0 : P tr)
    (hf : ∀ tr' a, tr <+: tr' → P tr' → Obeys R tr' (f a) Q) : Obeys R tr (m >>= f) Q :=
  Serves.bind (obeys_quiet hm hR hP h0) hf

/-- First a check, then the rest with what it found. -/
theorem Obeys.lift {e : Except ε α} {f : α → Handler ε Op Ans β}
    (hf : ∀ a, e = .ok a → Obeys R tr (f a) Q) : Obeys R tr (liftM e >>= f) Q :=
  Serves.bind (Q := fun tr' a => tr' = tr ∧ e = .ok a)
    (serves_lift (fun _ h => ⟨rfl, h⟩) fun _ _ => trivial)
    fun tr' a _ h => by
      obtain ⟨rfl, h⟩ := h
      exact hf a h

/-- First an operation, then the rest. -/
theorem Obeys.act {op : Op} {f : Ans op → Handler ε Op Ans β} (hop : R.allows tr op)
    (hf : ∀ a, Obeys R (tr ++ [⟨op, a⟩]) (f a) Q) :
    Obeys R tr (ExceptT.lift (Prog.perform op) >>= f) Q :=
  ⟨hop, fun a _ => hf a⟩

/-- First something that keeps the rules, then the rest. -/
theorem Obeys.andThen {P : Trace → α → Prop} {m : Handler ε Op Ans α} {f : α → Handler ε Op Ans β}
    (hm : Obeys R tr m P) (hf : ∀ tr' a, tr <+: tr' → P tr' a → Obeys R tr' (f a) Q) :
    Obeys R tr (m >>= f) Q :=
  Serves.bind hm hf

theorem Obeys.propagate {r : Except ε α} {f : α → Handler ε Op Ans β}
    (hf : ∀ a, r = .ok a → Obeys R tr (f a) Q) : Obeys R tr (Rpc.propagate r >>= f) Q := by
  cases r with
  | ok a => exact hf a rfl
  | error e => exact serves_throw trivial

theorem Obeys.mapErr {ε' : Type} {g : ε → ε'} {m : Handler ε Op Ans β} (h : Obeys R tr m Q) :
    Obeys R tr (Strkd.mapErr g m) Q := Serves.mapErr h

/-- First a refusal that does not happen, then the rest. -/
theorem Obeys.refuse {p : Prop} [Decidable p] {e : ε} {f : Unit → Handler ε Op Ans β}
    (hf : ¬ p → Obeys R tr (f ()) Q) : Obeys R tr (if p then throw e >>= f else f ()) Q :=
  Serves.refuse (fun _ => trivial) hf

/-! ### The session lock and the vault file -/

/-- A computation under the session lock: the lock is in hand throughout, and free afterwards. -/
theorem serves_holdingSession {body : Handler ε Op Ans α} (hacq : R.allows tr .acquireSession)
    (hrel : ∀ tr', holds tr' = true → R.allows tr' .releaseSession)
    (hbody : Serves R (tr ++ [⟨.acquireSession, ()⟩]) body (fun tr' _ => holds tr' = true)
      fun tr' _ => holds tr' = true) :
    Serves R tr (holdingSession body) (fun tr' _ => holds tr' = false)
      fun tr' _ => holds tr' = false := by
  refine Serves.act hacq fun _ _ => Serves.attempt hbody fun tr' r _ hr => ?_
  have hheld : holds tr' = true := by
    cases r with
    | ok a => exact hr
    | error e => exact hr
  have hfree : holds (tr' ++ [⟨.releaseSession, ()⟩]) = false := holds_append tr' _
  refine Serves.act (hrel tr' hheld) fun _ _ => ?_
  cases r with
  | ok a => exact hfree
  | error e => exact hfree

theorem serves_resealSession (hR : AllowsQuiet R) {P : Trace → Prop} (hP : Steady P) (h0 : P tr) :
    Serves R tr (resealSession K) (fun tr' vault => Resealed K tr' vault ∧ P tr')
      fun tr' _ => P tr' := by
  refine Serves.act (hR _ _ rfl) fun s _ => Serves.act (hR _ _ rfl) fun draws _ => ?_
  have hkept : P (tr ++ [⟨.session, s⟩] ++ [⟨.entropy, draws⟩]) :=
    hP _ _ rfl (hP _ _ rfl h0)
  unfold propagate
  cases hv : s.reseal K draws with
  | error e => exact hkept
  | ok vault => exact ⟨⟨tr, s, draws, List.append_assoc tr _ _, hv⟩, hkept⟩

theorem serves_saveVault {vault : EncryptedVault} (hw : R.allows tr (.writeTmp vault))
    (hr : R.allows (tr ++ [⟨.writeTmp vault, .ok ()⟩]) .renameTmp) {P : Trace → Prop}
    (hP : Steady P) (h0 : P tr) :
    Serves R tr (saveVault vault)
      (fun tr' _ => tr' = tr ++ [⟨.writeTmp vault, .ok ()⟩] ++ [⟨.renameTmp, .ok ()⟩] ∧ P tr')
      fun tr' _ => P tr' := by
  refine Serves.act hw fun written _ => ?_
  have h₁ : P (tr ++ [⟨.writeTmp vault, written⟩]) := hP _ _ rfl h0
  cases written with
  | error e => exact h₁
  | ok u =>
      refine Serves.act hr fun renamed _ => ?_
      have h₂ := hP _ ⟨.renameTmp, renamed⟩ rfl h₁
      cases renamed with
      | error e => exact h₂
      | ok v => exact ⟨rfl, h₂⟩

end Keeping

/-! ## The stages of a request -/

section Stages

variable {K : Crates} {method : String} {tr : Trace} {c : PairedClient}

theorem requestRules_quiet : AllowsQuiet (requestRules K method) := by
  intro tr op h
  cases op with
  | clock use => cases use <;> trivial
  | _ => trivial

/-- A request of `c` that nobody refused so far, with the session lock free of it. -/
structure Open (tr : Trace) (c : PairedClient) : Prop where
  caller : Caller tr c
  kept : ¬ Rejected tr
  unheld : holds tr = false

theorem steady_open (c : PairedClient) : Steady fun tr => Open tr c :=
  fun tr e he h => ⟨h.caller.mono (List.prefix_append _ _), steady_not_rejected tr e he h.kept,
    steady_holds _ tr e he h.unheld⟩

theorem steady_inScope (c : PairedClient) (a : AccountRef) : Steady fun tr => InScope tr c a :=
  steady_of_mono fun _ _ => InScope.mono

/-- The two facts a handler carries from its account lookup to its approval. -/
theorem steady_open_inScope (c : PairedClient) (a : AccountRef) :
    Steady fun tr => Open tr c ∧ InScope tr c a :=
  (steady_open c).and (steady_inScope c a)

variable {β : Type} {Q : Trace → β → Prop}

/-- The registry read is one the trace shows. -/
theorem obeys_readRegistry {P : Trace → Prop} (hP : Steady P) (h0 : P tr) :
    Obeys (requestRules K method) tr readRegistry fun tr' r => P tr' ∧
      ∃ s u, (⟨.session, s⟩ : Event Op Ans) ∈ tr' ∧ s.unlocked = some u ∧ u.registry = r := by
  refine Obeys.act trivial fun s => serves_lift (fun r hr => ?_) fun _ _ => trivial
  obtain ⟨u, hu, rfl⟩ := WalletSession.registry_eq_ok hr
  exact ⟨hP tr _ rfl h0, s, u, List.mem_append_right _ List.mem_cons_self, hu, rfl⟩

/-- First find an account of the caller's scope, then the rest. -/
theorem Obeys.scopedAccount {want : String} {f : AccountRef → Serve β} (h : Open tr c)
    (hf : ∀ tr' a, tr <+: tr' → Open tr' c ∧ InScope tr' c a →
      Obeys (requestRules K method) tr' (f a) Q) :
    Obeys (requestRules K method) tr (scopedAccount c want >>= f) Q := by
  refine Serves.bind (Q := fun tr' a => Open tr' c ∧ InScope tr' c a) ?_ hf
  refine Serves.bind (obeys_readRegistry (steady_open c) h) fun tr' reg _ hreg => ?_
  obtain ⟨ho, s, u, hs, hu, rfl⟩ := hreg
  split
  · rename_i a ha
    exact serves_pure ⟨ho, s, u, hs, hu, List.mem_of_find?_eq_some ha⟩
  · exact serves_throw trivial

/-- An account looked for in the caller's scope, or an error. -/
theorem obeys_found {found : Option AccountRef} {f : Option AccountRef → Serve AccountRef}
    {e : WalletRpcError} (h : Open tr c) (hin : ∀ a ∈ found, InScope tr c a)
    (hsome : ∀ a, f (some a) = pure a) (hnone : f none = throw e) :
    Obeys (requestRules K method) tr (pure found >>= f) fun tr' a => Open tr' c ∧ InScope tr' c a := by
  change Obeys _ tr (f found) _
  cases found with
  | some a =>
      rw [hsome]
      exact serves_pure ⟨h, hin a rfl⟩
  | none =>
      rw [hnone]
      exact serves_throw trivial

theorem Obeys.scopedAccountOr {param : Option String} {missing : WalletRpcError}
    {f : AccountRef → Serve β} (h : Open tr c)
    (hf : ∀ tr' a, tr <+: tr' → Open tr' c ∧ InScope tr' c a →
      Obeys (requestRules K method) tr' (f a) Q) :
    Obeys (requestRules K method) tr (scopedAccountOr K c param missing >>= f) Q := by
  refine Serves.bind (Q := fun tr' a => Open tr' c ∧ InScope tr' c a) ?_ hf
  refine Serves.bind (obeys_readRegistry (steady_open c) h) fun tr' reg _ hreg => ?_
  obtain ⟨ho, s, u, hs, hu, rfl⟩ := hreg
  split
  · refine Obeys.lift fun want _ => ?_
    exact obeys_found ho (fun a ha => ⟨s, u, hs, hu, List.mem_of_find?_eq_some ha⟩)
      (fun _ => rfl) rfl
  · exact obeys_found ho (fun a ha => ⟨s, u, hs, hu, List.mem_of_head? ha⟩) (fun _ => rfl) rfl

/-- First the user's approval, then the rest. -/
theorem Obeys.ask {label text summary : String} {f : Unit → Serve β} (hk : ¬ Rejected tr)
    (hf : ∀ tr', tr <+: tr' → Approved tr' → ¬ Rejected tr' → holds tr' = holds tr →
      Obeys (requestRules K method) tr' (f ()) Q) :
    Obeys (requestRules K method) tr
      (askUser label text summary >>= fun d => liftM (confirmed d) >>= f) Q := by
  refine Obeys.act hk fun d => ?_
  cases d with
  | reject => exact Obeys.lift fun _ h => nomatch h
  | approve =>
      refine Obeys.lift fun _ _ => hf _ (List.prefix_append _ _) ?_ ?_ ?_
      · exact ⟨_, List.mem_append_right _ List.mem_cons_self⟩
      · refine not_rejected_append hk fun r hr => ?_
        cases hr
      · exact holds_append _ _

/-- First an approval that honors a grant, then the rest. -/
theorem Obeys.gate {m : Method} {summary : String} {f : Unit → Serve β} (hm : m.gated = true)
    (hw : m.wire = method) (h : Open tr c)
    (hf : ∀ tr', tr <+: tr' → Cleared method tr' c → holds tr' = false →
      Obeys (requestRules K method) tr' (f ()) Q) :
    Obeys (requestRules K method) tr
      (gatedApproval c m.wire summary >>= fun d => liftM (confirmed d) >>= f) Q := by
  subst hw
  unfold gatedApproval
  rw [bind_assoc]
  refine Obeys.act ⟨h.caller, rfl, m, hm, rfl⟩ fun now => ?_
  have hk := not_rejected_append (e := ⟨.clock (.gate c m.wire), now⟩) h.kept
    fun r hr => by cases hr
  have hu : holds (tr ++ [⟨.clock (.gate c m.wire), now⟩]) = false := by
    rw [holds_append, h.unheld]
    rfl
  have hcaller := h.caller.mono (List.prefix_append tr [⟨.clock (.gate c m.wire), now⟩])
  by_cases hg : c.grantActive now = true
  · simp only [hg, if_true, pure_bind]
    refine Obeys.lift fun _ _ => hf _ (List.prefix_append _ _) ⟨hcaller, hk, Or.inr ?_⟩ hu
    exact ⟨⟨m, hm, rfl⟩, now, List.mem_append_right _ List.mem_cons_self, hg⟩
  · simp only [hg]
    refine Obeys.ask hk fun tr' htr ha hk' hh => ?_
    exact hf tr' ((List.prefix_append _ _).trans htr) ⟨hcaller.mono htr, hk', Or.inl ha⟩
      (hh.trans hu)

end Stages

end Strkd.Service
