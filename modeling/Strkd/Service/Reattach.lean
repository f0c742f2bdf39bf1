import Strkd.Rpc.ClientWrites
import Strkd.Service.Prompts
import Strkd.Service.Runs

/-!
# Re-attaching a client

A pairing request that re-attaches looks its client up by name and kind, shows the user the id it
found, and looks the client up again once the user has answered.  The two lookups agree as long as
nobody revokes the client in between.
-/

namespace Strkd.Service

open Wallet Prover Rpc

variable {K : Crates} {S : Setup}

/-! ## A request that waits -/

/-- The prompt of a re-attach. -/
def reattachPrompt (name : String) (kind : ClientKind) (id : String) (accounts : ℕ) :
    ApprovalRequest :=
  ⟨name, "companion_requestPairing", "Re-attach " ++ kind.debug ++ " client \"" ++ name ++ "\" (" ++
    id ++ ") — the caller will control " ++ toString accounts ++ " existing account(s)"⟩

/-- Neither a refusal nor the re-attach itself. -/
def undecided : Event Op Ans → Bool
  | ⟨.reattach _ _, _⟩ => false
  | ⟨.requestApproval _, .reject⟩ => false
  | _ => true

/-- The request found the client `id` by name and kind, and has not come to an end with it. -/
def Reattaching (tr : Trace) (name : String) (kind : ClientKind) (id : String) : Prop :=
  (⟨.findId name kind, some id⟩ : Event Op Ans) ∈ tr ∧ tr.all undecided

/-- The request is for `companion_requestPairing`. -/
def IsPairing : Task → Prop
  | .request _ req => Method.ofString req.method = some .requestPairing
  | _ => False

/-! ## The rule book -/

/-- A re-attach is of the client its prompt named, at most once, and nothing crashes. -/
def MayPair (tr : Trace) : Op → Prop
  | .reattach name kind => ∃ id accounts, Reattaching tr name kind id ∧
      (⟨.requestApproval (reattachPrompt name kind id accounts), .approve⟩ : Event Op Ans) ∈ tr
  | .halt => False
  | _ => True

/-- A client that was found is found again. -/
def FoundAgain (tr : Trace) : (op : Op) → Ans op → Prop
  | .reattach name kind, a =>
      ∀ id, (⟨.findId name kind, some id⟩ : Event Op Ans) ∈ tr → ∃ token, a = some (id, token)
  | _, _ => True

def pairingRules : Rules Op Ans := ⟨MayPair, FoundAgain⟩

open Classical in
/-- The rules of pairing requests; the other tasks have none. -/
noncomputable def reattachRules (task : Task) : Rules Op Ans :=
  if IsPairing task then pairingRules else noRules

/-- What a re-attach returns. -/
def reattachedJson (id token : String) : Json :=
  .obj [("client_id", .str id), ("token", .str token), ("reattached", .bool true)]

/-- An answer that says it re-attached returns the token of a re-attach of the request. -/
def PairingAnswer (tr : Trace) (v : Json) : Prop :=
  v.get? "reattached" = some (.bool true) → ∃ name kind id token,
    (⟨.reattach name kind, some (id, token)⟩ : Event Op Ans) ∈ tr ∧ v = reattachedJson id token

theorem PairingAnswer.mono {tr tr' : Trace} {v : Json} (h : PairingAnswer tr v)
    (htr : tr <+: tr') : PairingAnswer tr' v := by
  intro hv
  obtain ⟨name, kind, id, token, hmem, rfl⟩ := h hv
  exact ⟨name, kind, id, token, htr.subset hmem, rfl⟩

def PairingEnds (task : Task) (tr : Trace) : Reply → Prop
  | .response r => IsPairing task → ∀ v, r.outcome = .ok v → PairingAnswer tr v
  | _ => True

/-! ## The handler -/

theorem obeys_pairClient {tr : Trace} (name : String) (kind : ClientKind) :
    Serves pairingRules tr (pairClient name kind) (fun tr' v => PairingAnswer tr' v)
      fun _ _ => True :=
  Serves.act trivial fun _ _ => Obeys.lift fun _ _ => Serves.act trivial fun _ _ =>
    serves_pure fun hv => by cases hv

theorem obeys_ownedAccounts {tr : Trace} {name : String} {kind : ClientKind} {id : String}
    (h : Reattaching tr name kind id) :
    Serves pairingRules tr (ownedAccounts id) (fun tr' _ => Reattaching tr' name kind id)
      fun _ _ => True := by
  refine Serves.act trivial fun s _ => ?_
  have hnext : Reattaching (tr ++ [⟨.session, s⟩]) name kind id :=
    ⟨List.mem_append_left _ h.1, by simp [h.2, undecided]⟩
  cases hr : s.registry with
  | ok r => simpa [hr] using serves_pure hnext
  | error e => simpa [hr] using serves_pure hnext

theorem obeys_reattachClient {tr : Trace} {name : String} {kind : ClientKind} {id : String}
    (h : Reattaching tr name kind id) :
    Serves pairingRules tr (reattachClient name kind id) (fun tr' v => PairingAnswer tr' v)
      fun _ _ => True := by
  refine Serves.bind (obeys_ownedAccounts h) fun tr' accounts _ h => ?_
  refine Serves.act trivial fun decision _ => ?_
  cases decision with
  | reject => exact serves_throw trivial
  | approve =>
      have hopen : Reattaching (tr' ++ [⟨.requestApproval (reattachPrompt name kind id accounts),
          .approve⟩]) name kind id :=
        ⟨List.mem_append_left _ h.1, by simp [h.2, undecided]⟩
      have hprompt : (⟨.requestApproval (reattachPrompt name kind id accounts), .approve⟩ :
          Event Op Ans) ∈ tr' ++ [⟨.requestApproval (reattachPrompt name kind id accounts),
            .approve⟩] := List.mem_append_right _ (List.mem_singleton.2 rfl)
      refine Serves.act ⟨id, accounts, hopen, hprompt⟩ fun a ha => ?_
      obtain ⟨token, rfl⟩ := ha id hopen.1
      exact serves_pure fun _ => ⟨name, kind, id, token, by simp, rfl⟩

theorem obeys_handlePairing {tr : Trace} (params : Json) (h : tr.all undecided) :
    Serves pairingRules tr (handlePairing params) (fun tr' v => PairingAnswer tr' v)
      fun _ _ => True := by
  unfold handlePairing
  dsimp only
  split
  · refine Serves.act trivial fun existing _ => ?_
    cases existing with
    | none => exact obeys_pairClient _ _
    | some id => exact obeys_reattachClient ⟨by simp, by simp [h, undecided]⟩
  · exact obeys_pairClient _ _

theorem safe_pairing {token : Option String} {req : Request}
    (h : Method.ofString req.method = some .requestPairing) :
    Safe pairingRules [] (dispatch K S token req) fun tr r =>
      ∀ v, r.outcome = .ok v → PairingAnswer tr v := by
  have hhandle : ∀ tr : Trace, tr.all undecided → Safe pairingRules tr (handle K S token req)
      fun tr' handled => ∀ v, handled.result = .ok v → PairingAnswer tr' v := by
    intro tr htr
    unfold handle
    rw [h]
    refine Safe.bind (obeys_handlePairing req.params htr) fun tr' result _ hr => ?_
    cases result with
    | ok v =>
        intro w hw
        cases hw
        exact hr
    | error e =>
        intro w hw
        cases hw
  refine Safe.bind (p := carryOut .touchActivity) (Q := fun tr _ => tr.all undecided)
    ⟨trivial, fun _ _ => rfl⟩ fun tr _ _ htr => Safe.bind (hhandle tr htr) fun tr handled _ hh => ?_
  refine ⟨trivial, fun s _ => ⟨trivial, fun at' _ => ⟨trivial, fun latency _ =>
    ⟨trivial, fun _ _ => ?_⟩⟩⟩⟩
  cases hr : handled.result with
  | ok v =>
      intro w hw
      cases hw
      refine (hh v hr).mono ?_
      simp only [List.append_assoc]
      exact List.prefix_append _ _
  | error e =>
      intro w hw
      cases hw

theorem safe_start_reattach (task : Task) :
    Safe (reattachRules task) [] (task.start K S) (PairingEnds task) := by
  unfold reattachRules
  split
  case isTrue hp =>
    cases task with
    | request token req =>
        refine Safe.bind (safe_pairing hp) fun tr r _ hr => ?_
        exact fun _ v hv => hr v hv
    | command c => cases hp
    | proving task => cases hp
  case isFalse hp =>
    refine Safe.mono (safe_noRules fun _ _ => trivial : Safe noRules [] _ fun _ _ => True) ?_
    rintro tr reply - -
    cases reply with
    | response r => exact fun hpairing => absurd hpairing hp
    | window r => trivial
    | none => trivial

/-! ## What an operation does to the clients -/

theorem findId_updateFirst {p : PairedClient → Bool} {f : PairedClient → PairedClient}
    (hf : ∀ c, (f c).id = c.id ∧ (f c).label = c.label ∧ (f c).kind = c.kind) (s : ClientStore)
    (name : String) (kind : ClientKind) :
    (ClientStore.updateFirst p f s).findId name kind = s.findId name kind := by
  have hnamed : ∀ c, ClientStore.named name kind (f c) = ClientStore.named name kind c := by
    intro c
    simp [ClientStore.named, (hf c).2.1, (hf c).2.2]
  unfold ClientStore.findId
  induction s with
  | nil => rfl
  | cons c rest ih =>
      unfold ClientStore.updateFirst
      by_cases hp : p c
      · rw [if_pos hp, List.find?_cons, List.find?_cons, hnamed]
        cases ClientStore.named name kind c with
        | true => exact congrArg some (hf c).1
        | false => rfl
      · rw [if_neg hp, List.find?_cons, List.find?_cons]
        cases ClientStore.named name kind c with
        | true => rfl
        | false => exact ih

theorem findId_pair {s : ClientStore} {name : String} {kind : ClientKind} {id : String}
    (h : s.findId name kind = some id) (label : String) (kind' : ClientKind) (id' token : String) :
    (s.pair K label kind' id' token).findId name kind = some id := by
  unfold ClientStore.findId ClientStore.pair at *
  obtain ⟨c, hc, rfl⟩ := Option.map_eq_some_iff.1 h
  rw [List.find?_append, hc]
  rfl

theorem findId_revoke {s : ClientStore} {name : String} {kind : ClientKind} {id id' : String}
    (h : s.findId name kind = some id) (hne : id' ≠ id) :
    (s.revoke id').findId name kind = some id := by
  unfold ClientStore.findId ClientStore.revoke at *
  obtain ⟨c, hc, rfl⟩ := Option.map_eq_some_iff.1 h
  induction s with
  | nil => cases hc
  | cons d rest ih =>
      rw [List.find?_cons] at hc
      cases hd : ClientStore.named name kind d with
      | true =>
          rw [hd] at hc
          cases hc
          rw [List.filter_cons_of_pos (by simpa using hne.symm), List.find?_cons, hd]
          rfl
      | false =>
          rw [hd] at hc
          have hrest : rest.find? (ClientStore.named name kind) = some c := hc
          rw [List.filter_cons]
          split
          · rw [List.find?_cons, hd]
            exact ih hrest (by rw [hrest]; rfl)
          · exact ih hrest (by rw [hrest]; rfl)

/-- A client that is found stays found until it is revoked. -/
theorem World.Exec.findId {w w' : World} {pid : ℕ} {op : Op} {a : Ans op} {name : String}
    {kind : ClientKind} {id : String} (hx : World.Exec K w pid op a w')
    (h : w.clients.findId name kind = some id) (hop : op ≠ .revoke id) :
    w'.clients.findId name kind = some id := by
  cases hx
  case failedWrite => exact h
  case tornSettings => exact h
  case effect ha =>
    cases op with
    | reattach name' kind' =>
        cases a with
        | none => exact h
        | some x =>
            exact (findId_updateFirst (f := fun c => { c with tokenHash := K.sha256Hex x.2 })
              (fun c => ⟨rfl, rfl, rfl⟩) _ _ _).trans h
    | pair label kind' => exact findId_pair h label kind' a.1 a.2
    | grant id' untilMs =>
        exact (findId_updateFirst (f := fun c => { c with grantedUntil := some untilMs })
          (fun c => ⟨rfl, rfl, rfl⟩) _ _ _).trans h
    | revokeGrant id' =>
        exact (findId_updateFirst (f := fun c => { c with grantedUntil := none })
          (fun c => ⟨rfl, rfl, rfl⟩) _ _ _).trans h
    | revoke id' => exact findId_revoke h fun he => hop (he ▸ rfl)
    | record entry => cases a <;> exact h
    | createAgentAccount id' label => cases a <;> exact h
    | createUserAccount label => cases a <;> exact h
    | unlockSession vault passphrase =>
        simp only [World.effect]
        split <;> exact h
    | writeTmp vault => cases a <;> exact h
    | renameTmp => cases a <;> exact h
    | renameToBackup file => cases a <;> exact h
    | createSettings => cases a <;> exact h
    | writeSettings s => cases a <;> exact h
    | _ => exact h

theorem World.Exec.lookup {w w' : World} {pid : ℕ} {name : String} {kind : ClientKind}
    {found : Option String} (hx : World.Exec K w pid (.findId name kind) found w') :
    w'.clients.findId name kind = found := by
  have hfound : found = w.clients.findId name kind := hx.answers
  cases hx
  exact hfound.symm

/-- A re-attach changes one record: the token hash of a client with the id it returns. -/
theorem World.Exec.reattach {w w' : World} {pid : ℕ} {name : String} {kind : ClientKind}
    {id token : String} (hx : World.Exec K w pid (.reattach name kind) (some (id, token)) w')
    {c' : PairedClient} (hc' : c' ∈ w'.clients) :
    c' ∈ w.clients ∨
      ∃ c ∈ w.clients, c.id = id ∧ c' = { c with tokenHash := K.sha256Hex token } := by
  have hfound : w.clients.findId name kind = some id := hx.answers.1
  cases hx
  refine (ClientStore.mem_updateFirst hc').imp_right ?_
  rintro ⟨c, hc, rfl⟩
  unfold ClientStore.findId at hfound
  rw [hc] at hfound
  exact ⟨c, List.mem_of_find?_eq_some hc, Option.some.inj hfound, rfl⟩

/-! ## The service -/

/-- No client is revoked while a request that found it waits to re-attach it. -/
def NoRevokeMeanwhile (s : State) : Act → Prop
  | .run _ ⟨.revoke id, _⟩ => ∀ (pid : ℕ) (p : Proc) name kind, s.procs[pid]? = some p →
      IsPairing p.task → p.rest.isSome → ¬ Reattaching p.trace name kind id
  | _ => True

/-- The clients of the requests that wait, and what those that re-attached had shown. -/
structure Attached (s : State) : Prop where
  safe : s.Safe reattachRules PairingEnds
  found : ∀ (pid : ℕ) (p : Proc) name kind id, s.procs[pid]? = some p → IsPairing p.task →
    p.rest.isSome → Reattaching p.trace name kind id → s.world.clients.findId name kind = some id
  named : ∀ (pid : ℕ) (p : Proc) name kind id token, s.procs[pid]? = some p → IsPairing p.task →
    (⟨.reattach name kind, some (id, token)⟩ : Event Op Ans) ∈ p.trace → ∃ accounts,
      (⟨.requestApproval (reattachPrompt name kind id accounts), .approve⟩ : Event Op Ans) ∈ p.trace

theorem reattachRules_of_pairing {task : Task} (h : IsPairing task) :
    reattachRules task = pairingRules := if_pos h

theorem Attached.mayPair {s : State} (h : Attached s) {pid : ℕ} {p : Proc} {op : Op}
    {next : Ans op → Prog Op Ans Reply} (hp : s.procs[pid]? = some p)
    (hr : p.rest = some (.step op next)) (ht : IsPairing p.task) : MayPair p.trace op := by
  have := h.safe.allows hp hr
  rwa [reattachRules_of_pairing ht] at this

/-- The second lookup finds what the first one found. -/
theorem Attached.foundAgain {s : State} (h : Attached s) {pid : ℕ} {p : Proc} {op : Op}
    {next : Ans op → Prog Op Ans Reply} {a : Ans op} (hp : s.procs[pid]? = some p)
    (hr : p.rest = some (.step op next)) (ht : IsPairing p.task)
    (ha : s.world.Answers K pid op a) : FoundAgain p.trace op a := by
  cases op with
  | reattach name kind =>
      intro id hid
      obtain ⟨id', accounts, hre, -⟩ := h.mayPair hp hr ht
      have hfound := h.found pid p name kind id hp ht (by rw [hr]; rfl) ⟨hid, hre.2⟩
      cases a with
      | none =>
          have hnone : s.world.clients.findId name kind = none := ha
          rw [hfound] at hnone
          cases hnone
      | some x =>
          obtain ⟨hsome, -⟩ := ha
          rw [hfound] at hsome
          exact ⟨x.2, congrArg some (Prod.ext (Option.some.inj hsome).symm rfl)⟩
  | _ => trivial

theorem Reattaching.of_append {tr : Trace} {e : Event Op Ans} {name : String} {kind : ClientKind}
    {id : String} (h : Reattaching (tr ++ [e]) name kind id) :
    Reattaching tr name kind id ∨ e = ⟨.findId name kind, some id⟩ := by
  obtain ⟨hmem, hall⟩ := h
  rw [List.all_append, Bool.and_eq_true] at hall
  rcases List.mem_append.1 hmem with hmem | hmem
  · exact Or.inl ⟨hmem, hall.1⟩
  · exact Or.inr (List.mem_singleton.1 hmem).symm

/-- What a step leaves of a lookup that a request relies on. -/
theorem Attached.findId_step {s s' : State} (h : Attached s) {m : Act}
    (hs : Sys.Step (service K S) s m s') (hc : NoRevokeMeanwhile s m) {pid : ℕ} {p : Proc}
    {name : String} {kind : ClientKind} {id : String} (hp : s.procs[pid]? = some p)
    (ht : IsPairing p.task) (hrest : p.rest.isSome) (hre : Reattaching p.trace name kind id) :
    s'.world.clients.findId name kind = some id := by
  have hfound := h.found pid p name kind id hp ht hrest hre
  cases hs with
  | arrive task _ => exact hfound
  | drop i q op next _ _ _ => exact hfound
  | run i q op next a w _ _ hx =>
      refine World.Exec.findId hx hfound ?_
      rintro rfl
      exact hc pid p name kind hp ht hrest hre

theorem Attached.step {s s' : State} (h : Attached s) {m : Act}
    (hs : Sys.Step (service K S) s m s') (hc : NoRevokeMeanwhile s m) : Attached s' := by
  refine ⟨h.safe.step hs safe_start_reattach ?_, ?_, ?_⟩
  · intro pid p op next a hp hr hx
    by_cases ht : IsPairing p.task
    · rw [reattachRules_of_pairing ht]
      exact h.foundAgain hp hr ht hx.answers
    · rw [reattachRules, if_neg ht]
      trivial
  · intro pid q name kind id hq ht hrest hre
    rcases hs.process hq with hq | ⟨p, op, next, a, hp, hr, rfl, hx, rfl⟩ | ⟨p, -, -, rfl⟩ |
      ⟨-, task, rfl⟩
    · exact h.findId_step hs hc hq ht hrest hre
    · have hsome : p.rest.isSome := by rw [hr]; rfl
      rcases hre.of_append with hre | he
      · exact h.findId_step hs hc hp ht hsome hre
      · -- the lookup itself, which changes nothing
        cases he
        exact hx.lookup
    · cases hrest
    · cases hre.1
  · intro pid q name kind id token hq ht hmem
    rcases hs.process hq with hq | ⟨p, op, next, a, hp, hr, rfl, hx, rfl⟩ | ⟨p, hp, -, rfl⟩ |
      ⟨-, task, rfl⟩
    · exact h.named pid q name kind id token hq ht hmem
    · rcases List.mem_append.1 hmem with hmem | hmem
      · obtain ⟨accounts, hprompt⟩ := h.named pid p name kind id token hp ht hmem
        exact ⟨accounts, List.mem_append_left _ hprompt⟩
      · cases List.mem_singleton.1 hmem
        obtain ⟨id', accounts, hre, hprompt⟩ := h.mayPair hp hr ht
        obtain ⟨token', heq⟩ := h.foundAgain hp hr ht hx.answers id' hre.1
        cases heq
        exact ⟨accounts, List.mem_append_left _ hprompt⟩
    · exact h.named pid p name kind id token hp ht hmem
    · cases hmem

theorem attached_reach {init : State → Prop} {s : State}
    (h : Sys.Reach (service K S) init NoRevokeMeanwhile s) (hinit : ∀ s, init s → s.procs = []) :
    Attached s := by
  refine h.invariant (fun s hs => ?_) fun s m s' _ hI hc hs => hI.step hs hc
  have hnone : ∀ (pid : ℕ) (p : Proc), s.procs[pid]? ≠ some p := by
    intro pid p hp
    rw [hinit s hs] at hp
    cases hp
  exact ⟨fun pid p hp => absurd hp (hnone pid p), fun pid p _ _ _ hp => absurd hp (hnone pid p),
    fun pid p _ _ _ _ hp => absurd hp (hnone pid p)⟩

/-- What the user was shown of a re-attach is what happens. -/
structure TrueToPrompt (K : Crates) (S : Setup) (s : State) : Prop where
  /-- No pairing request is about to crash. -/
  standing : ∀ (pid : ℕ) (p : Proc), s.procs[pid]? = some p → IsPairing p.task →
    ∀ next, p.rest ≠ some (.step .halt next)
  /-- A client that was re-attached is the one the user approved. -/
  named : ∀ (pid : ℕ) (p : Proc) name kind id token, s.procs[pid]? = some p → IsPairing p.task →
    (⟨.reattach name kind, some (id, token)⟩ : Event Op Ans) ∈ p.trace → ∃ accounts,
      (⟨.requestApproval (reattachPrompt name kind id accounts), .approve⟩ : Event Op Ans) ∈ p.trace
  /-- The token returned is the one of that client. -/
  returned : ∀ (pid : ℕ) (p : Proc) r v, s.procs[pid]? = some p → IsPairing p.task →
    p.rest = some (.pure (.response r)) → r.outcome = .ok v → PairingAnswer p.trace v
  /-- The token opens that client's record, with its id and its grant, and no other. -/
  opens : ∀ pid name kind id token s',
    Sys.Step (service K S) s (.run pid ⟨.reattach name kind, some (id, token)⟩) s' →
    ∀ c' ∈ s'.world.clients, c' ∈ s.world.clients ∨
      ∃ c ∈ s.world.clients, c.id = id ∧ c' = { c with tokenHash := K.sha256Hex token }

/-- An agent that lost its token asks to be re-attached. -/
def reattachRequest : Request where
  id := .int 1
  method := "companion_requestPairing"
  params := .obj [("name", .str "bot"), ("kind", .str "agent"), ("reattach", .bool true)]

def pairedWorld : World where
  session := plainSession
  clients := [plainClient]

/-- The user approves everything, at time 0. -/
def willing : (op : Op) → Option (Ans op)
  | .touchActivity | .clock _ | .elapsed => some 0
  | .requestApproval _ => some .approve
  | _ => none

/-- Every new token is the same one, and a client is revoked only where that is wanted. -/
def drawing (revokes : Bool) (w : World) (pid : ℕ) : (op : Op) → Option (Ans op × World)
  | .reattach name kind =>
      let a := (w.clients.findId name kind).map fun id => (id, hexPadded 64 1)
      some (a, w.effect plainCrates pid (.reattach name kind) a)
  | .revoke id => if revokes then answering plainCrates willing w pid (.revoke id) else none
  | op => answering plainCrates willing w pid op

theorem exec_drawing {revokes : Bool} (w : World) (pid : ℕ) (op : Op) (a : Ans op) (w' : World)
    (h : drawing revokes w pid op = some (a, w')) :
    (service plainCrates plainSetup).exec w pid op a w' := by
  cases op with
  | reattach name kind =>
      obtain ⟨rfl, rfl⟩ := Prod.mk.inj (Option.some.inj h)
      refine .effect w pid _ _ ?_
      cases hfound : w.clients.findId name kind with
      | none => exact hfound
      | some id => exact ⟨hfound, 1, by norm_num, rfl⟩
  | revoke id =>
      cases revokes with
      | true =>
          have hrevoked : answering plainCrates willing w pid (.revoke id) = some (a, w') := h
          exact exec_answering w pid _ a w' hrevoked
      | false => cases h
  | _ => exact exec_answering w pid _ a w' h

/-- The request and the revocation of its client, in a given order. -/
def reattachPlay (revokes : Bool) (pids : List ℕ) : Option (List Act × State) :=
  Sys.play (service plainCrates plainSetup) (drawing revokes)
    ⟨pairedWorld, [.request none reattachRequest, .command (.revoke "c1")].map
      (service plainCrates plainSetup).fresh⟩ pids

theorem reach_reattachPlay {C : State → Act → Prop} {revokes : Bool} {pids : List ℕ}
    {moves : List Act} {s : State} (harr : ∀ s task, C s (.arrive task))
    (hrun : ∀ s pid op a, (revokes = false → ∀ id, op ≠ .revoke id) → C s (.run pid ⟨op, a⟩))
    (h : reattachPlay revokes pids = some (moves, s)) :
    Sys.Reach (service plainCrates plainSetup) (Starts pairedWorld) C s := by
  have hbegin : Starts pairedWorld ⟨pairedWorld, []⟩ := rfl
  have hext : ∀ task ∈ [Task.request none reattachRequest, .command (.revoke "c1")],
      (service plainCrates plainSetup).external task := by
    intro task ht
    rcases List.mem_cons.1 ht with rfl | ht
    · trivial
    · rw [List.mem_singleton.1 ht]
      trivial
  refine Sys.play_induction (P := fun _ s => Sys.Reach (service plainCrates plainSetup)
    (Starts pairedWorld) C s) exec_drawing ?_ h [] (.arrivals hbegin harr hext)
  intro before s s' pid op a _ hreach hs hanswer
  refine .step _ hreach (hrun s pid op a ?_) hs
  rintro rfl id rfl
  cases hanswer

/-- Whether the first process is about to crash. -/
def crashing (s : State) : Bool :=
  match (s.procs[0]? : Option Proc) with
  | some ⟨.request _ req, _, some (.step .halt _)⟩ =>
      Method.ofString req.method = some .requestPairing
  | _ => false

/-- Whether the first process re-attached the client `id`. -/
def reattached (id : String) (s : State) : Bool :=
  match (s.procs[0]? : Option Proc) with
  | some ⟨.request _ _, _, some (.pure (.response ⟨_, .ok v⟩))⟩ =>
      match v.get? "client_id" with
      | some (.str clientId) => clientId = id
      | _ => false
  | _ => false

end Strkd.Service
