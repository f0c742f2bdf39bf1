import Strkd.Service.Decisions
import Strkd.Service.Reattach
import Strkd.Service.Registries

/-!
# What a grant stands for

A request that is not put to the user signs with an account in the scope of its client: an account
of its own if the client is an agent, one of the user's if it is an app.  The grant that stands in
for the user is the one the client had when its token was verified, so it can have been taken back
by the time the request comes to its gate.
-/

namespace Strkd.Service

open Wallet Prover Rpc

variable {K : Crates} {S : Setup} {w : World} {s : State}

/-! ## Whose account -/

/-- The account an operation uses a key of. -/
def accountUsed : Op → Option AccountRef
  | .signTypedData a _ | .signInvoke a _ _ _ | .signDeclare a _ _ _ _ | .signDeployAccount a _ _
  | .signHash a _ | .viewingKey a _ _ => some a
  | _ => none

/-- An account that the client controls itself. -/
def OwnAccount (c : PairedClient) (a : AccountRef) : Prop :=
  a.domain = .agent ∧ a.ownerClientId = some c.id

/-- An account in the scope of a client is its own exactly if the client is an agent. -/
theorem ownAccount_iff {tr : Trace} {c : PairedClient} {a : AccountRef} (h : InScope tr c a)
    (htr : LawfulTrace K OwnedByAgents tr) : OwnAccount c a ↔ c.kind = .agent := by
  obtain ⟨n, u, hn, hu, hmem⟩ := h
  have hagents : u.registry.OwnersAreAgents := htr ⟨.session, n⟩ hn u hu
  unfold PairedClient.scope at hmem
  cases hk : c.kind with
  | agent =>
      rw [hk] at hmem
      obtain ⟨ha, howner⟩ := Registry.mem_scopedFor_some.1 hmem
      refine iff_of_true ⟨hagents a ha ?_, howner⟩ rfl
      rw [howner]
      exact Option.some_ne_none _
  | app =>
      rw [hk] at hmem
      obtain ⟨-, hdomain⟩ := Registry.mem_scopedFor_none.1 hmem
      refine iff_of_false (fun hown => ?_) (by simp)
      rw [hown.1] at hdomain
      cases hdomain

/-- What lets a request use an account that the user has not approved it for. -/
theorem inScope_of_permitted {method : String} {tr : Trace} {op : Op} {a : AccountRef}
    (h : Permitted K method tr op) (ha : accountUsed op = some a) (hunasked : ¬ Approved tr) :
    ∃ c, Caller tr c ∧ (signs op = true → Granted tr c method) ∧ InScope tr c a := by
  have hcleared : ∀ {c}, Cleared method tr c → InScope tr c a →
      ∃ c, Caller tr c ∧ (signs op = true → Granted tr c method) ∧ InScope tr c a :=
    fun hc hin => ⟨_, hc.caller, fun _ => hc.authorized.resolve_left hunasked, hin⟩
  cases op with
  | signInvoke b calls chain p =>
      cases ha
      obtain ⟨c, hc, hin | ⟨-, hfunds⟩⟩ := h
      · exact hcleared hc hin
      · exact absurd hfunds.2.1 hunasked
  | viewingKey b chain pool =>
      cases ha
      obtain ⟨c, hc, hin⟩ := h
      exact ⟨c, hc, fun hs => (nomatch hs), hin⟩
  | signTypedData b document => cases ha; obtain ⟨c, hc, hin⟩ := h; exact hcleared hc hin
  | signDeclare b classHash compiled chain p =>
      cases ha; obtain ⟨c, hc, hin⟩ := h; exact hcleared hc hin
  | signDeployAccount b chain p => cases ha; obtain ⟨c, hc, hin⟩ := h; exact hcleared hc hin
  | signHash b hash => cases ha; obtain ⟨c, hc, hin⟩ := h; exact hcleared hc hin
  | _ => cases ha

/-- In every run, a request that the user has not approved uses the keys of an account of its
client's own exactly if that client is an agent. -/
theorem unprompted_own_iff {C : State → Act → Prop} (hK : K.Authentic)
    (hw : LawfulWorld K OwnedByAgents w)
    (h : Sys.Reach (service K S) (Starts w) C s) {pid : ℕ} {p : Proc} {token : Option String}
    {req : Request} {op : Op} {next : Ans op → Prog Op Ans Reply} {a : AccountRef}
    (hp : s.procs[pid]? = some p) (ht : p.task = .request token req)
    (hr : p.rest = some (.step op next)) (ha : accountUsed op = some a)
    (hunasked : ¬ Approved p.trace) :
    ∃ c, Caller p.trace c ∧ (signs op = true → Granted p.trace c req.method) ∧
      (OwnAccount c a ↔ c.kind = .agent) := by
  have hallowed := (safe_reach h fun _ => Starts.procs).allows hp hr
  rw [ht] at hallowed
  obtain ⟨c, hc, hg, hin⟩ := inScope_of_permitted hallowed ha hunasked
  refine ⟨c, hc, hg, ownAccount_iff (K := K) hin ?_⟩
  rw [← Sys.traceAt_eq hp]
  exact (lawfulState_of_reach hK ownedByAgents_law hw h).traces pid

/-! ## Whether the grant still stands -/

/-- The store holds a client with this id whose grant is active. -/
def GrantHeld (s : ClientStore) (id : String) (now : U64) : Prop :=
  ∃ c ∈ s, c.id = id ∧ c.grantActive now = true

/-- The store holds a client with this id whose grant lasts at least until `t`. -/
def HeldUntil (s : ClientStore) (id : String) (t : U64) : Prop :=
  ∃ c ∈ s, c.id = id ∧ ∃ t', c.grantedUntil = some t' ∧ t.toNat ≤ t'.toNat

theorem HeldUntil.held {cs : ClientStore} {c : PairedClient} {t now : U64}
    (h : HeldUntil cs c.id t) (ht : c.grantedUntil = some t) (hactive : c.grantActive now = true) :
    GrantHeld cs c.id now := by
  obtain ⟨c', hc', hid, t', ht', hle⟩ := h
  refine ⟨c', hc', hid, ?_⟩
  simp only [PairedClient.grantActive, ht, ht', decide_eq_true_eq, BitVec.lt_def] at hactive ⊢
  omega

/-- The operation takes the grant of the client away, or has it end before `t`. -/
def TakesBack (id : String) (t : U64) : Op → Prop
  | .revokeGrant id' | .revoke id' => id' = id
  | .grant id' untilMs => id' = id ∧ untilMs.toNat < t.toNat
  | _ => False

theorem HeldUntil.updateFirst {cs : ClientStore} {id : String} {t : U64} {q : PairedClient → Bool}
    {f : PairedClient → PairedClient} (h : HeldUntil cs id t)
    (hf : ∀ c, q c = true → c.id = id → ∀ t', c.grantedUntil = some t' → t.toNat ≤ t'.toNat →
      (f c).id = id ∧ ∃ t', (f c).grantedUntil = some t' ∧ t.toNat ≤ t'.toNat) :
    HeldUntil (ClientStore.updateFirst q f cs) id t := by
  obtain ⟨c, hc, hid, t', ht', hle⟩ := h
  rcases ClientStore.exists_updateFirst (p := q) (f := f) hc with hmem | ⟨hq, hmem⟩
  · exact ⟨c, hmem, hid, t', ht', hle⟩
  · exact ⟨f c, hmem, hf c hq hid t' ht' hle⟩

/-- Only an operation that takes it back ends a grant. -/
theorem HeldUntil.exec {w' : World} {pid : ℕ} {op : Op} {a : Ans op} {id : String} {t : U64}
    (h : HeldUntil w.clients id t) (hop : ¬ TakesBack id t op)
    (hx : World.Exec K w pid op a w') : HeldUntil w'.clients id t := by
  cases hx
  case failedWrite => exact h
  case tornSettings => exact h
  case effect ha =>
    cases op with
    | reattach name kind =>
        cases a with
        | none => exact h
        | some x => exact h.updateFirst fun c _ hid t' ht' hle => ⟨hid, t', ht', hle⟩
    | pair label kind =>
        obtain ⟨c, hc, hheld⟩ := h
        exact ⟨c, List.mem_append_left _ hc, hheld⟩
    | grant id' untilMs =>
        refine h.updateFirst fun c hc hid t' _ _ => ⟨hid, untilMs, rfl, ?_⟩
        have hid' : id' = id := (of_decide_eq_true hc).symm.trans hid
        exact not_lt.1 fun hlt => hop ⟨hid', hlt⟩
    | revokeGrant id' =>
        refine h.updateFirst fun c hc hid _ _ _ => absurd ?_ hop
        exact (of_decide_eq_true hc).symm.trans hid
    | revoke id' =>
        obtain ⟨c, hc, hid, hheld⟩ := h
        refine ⟨c, List.mem_filter.2 ⟨hc, decide_eq_true fun heq => hop ?_⟩, hid, hheld⟩
        exact heq.symm.trans hid
    | record entry => cases a <;> exact h
    | createAgentAccount id' label => cases a <;> exact h
    | createUserAccount label => cases a <;> exact h
    | unlockSession vault passphrase =>
        have heq : (w.effect K pid (.unlockSession vault passphrase) a).clients = w.clients := by
          simp only [World.effect]
          split <;> rfl
        rw [heq]
        exact h
    | writeTmp vault => cases a <;> exact h
    | renameTmp => cases a <;> exact h
    | renameToBackup file => cases a <;> exact h
    | createSettings => cases a <;> exact h
    | writeSettings s => cases a <;> exact h
    | _ => exact h

/-- The client of a token is in the store when its token is verified. -/
theorem World.Exec.verify {w' : World} {pid : ℕ} {token : String} {c : PairedClient}
    (hx : World.Exec K w pid (.verify token) (some c) w') : c ∈ w'.clients := by
  have hfound : some c = w.clients.verify K token := hx.answers
  cases hx
  exact ClientStore.verify_mem K hfound.symm

/-- A request of a method that honors grants. -/
def Gated : Task → Prop
  | .request _ req => IsGated req.method
  | _ => False

/-- The token of the request was verified, and it has not come to its gate. -/
def BeforeGate (tr : Trace) (c : PairedClient) : Prop := Caller tr c ∧ Unasked tr

/-- No grant is taken back from a client while a request of it, verified with the grant, has not
come to its gate. -/
def NotTakenBack (s : State) : Act → Prop
  | .run _ e => ∀ (pid : ℕ) (p : Proc) c t, s.procs[pid]? = some p → Gated p.task →
      p.rest.isSome → BeforeGate p.trace c → c.grantedUntil = some t → ¬ TakesBack c.id t e.1
  | _ => True

/-- The grants that requests come to their gates with are held by the store. -/
def GrantsStand (s : State) : Prop :=
  ∀ (pid : ℕ) (p : Proc) c t, s.procs[pid]? = some p → Gated p.task → p.rest.isSome →
    BeforeGate p.trace c → c.grantedUntil = some t → HeldUntil s.world.clients c.id t

theorem BeforeGate.of_append {tr : Trace} {e : Event Op Ans} {c : PairedClient}
    (h : BeforeGate (tr ++ [e]) c) :
    BeforeGate tr c ∨ ∃ token, e = ⟨.verify token, some c⟩ := by
  obtain ⟨⟨token, hmem⟩, hunasked⟩ := h
  rcases List.mem_append.1 hmem with hmem | hmem
  · exact Or.inl ⟨⟨token, hmem⟩, fun e he => hunasked e (List.mem_append_left _ he)⟩
  · exact Or.inr ⟨token, (List.mem_singleton.1 hmem).symm⟩

theorem GrantsStand.step {s' : State} (h : GrantsStand s) {m : Act}
    (hs : Sys.Step (service K S) s m s') (hc : NotTakenBack s m) : GrantsStand s' := by
  -- what the step leaves of a grant that a request has not come to its gate with yet
  have hkept : ∀ (pid : ℕ) (p : Proc) c t, s.procs[pid]? = some p → Gated p.task →
      p.rest.isSome → BeforeGate p.trace c → c.grantedUntil = some t →
      HeldUntil s'.world.clients c.id t := by
    intro pid p c t hp ht hrest hb hg
    have hheld := h pid p c t hp ht hrest hb hg
    cases hs with
    | arrive task _ => exact hheld
    | drop i q op next _ _ _ => exact hheld
    | run i q op next a w' _ _ hx => exact hheld.exec (hc pid p c t hp ht hrest hb hg) hx
  intro pid q c t hq ht hrest hb hg
  rcases hs.process hq with hq | ⟨p, op, next, a, hp, hr, rfl, hx, rfl⟩ | ⟨p, -, -, rfl⟩ |
    ⟨-, task, rfl⟩
  · exact hkept pid q c t hq ht hrest hb hg
  · have hsome : p.rest.isSome := by rw [hr]; rfl
    rcases hb.of_append with hb | ⟨token, he⟩
    · exact hkept pid p c t hp ht hsome hb hg
    · -- the verification reads the record and changes nothing
      cases he
      exact ⟨c, hx.verify, rfl, t, hg, le_rfl⟩
  · cases hrest
  · obtain ⟨⟨token, hmem⟩, -⟩ := hb
    cases hmem

/-- A gate approves only under a grant that the store holds, and otherwise puts the request to the
user. -/
structure GrantsHonoured (K : Crates) (S : Setup) (s : State) : Prop where
  held : ∀ pid c method now s',
    Sys.Step (service K S) s (.run pid ⟨.clock (.gate c method), now⟩) s' →
    c.grantActive now = true → GrantHeld s.world.clients c.id now
  consulted : ∀ (pid : ℕ) (p : Proc) token req before c method now, s.procs[pid]? = some p →
    p.task = .request token req → p.trace = before ++ [⟨.clock (.gate c method), now⟩] →
    c.grantActive now = false → ∀ prog, p.rest = some prog →
    ∃ summary next, prog = .step (.requestApproval ⟨c.fullLabel, method, summary⟩) next

/-- After a gate whose grant is not active, the only thing to do is to ask the user. -/
theorem asks_of_orderly {before : Trace} {c : PairedClient} {method : String} {now : U64} {op : Op}
    (h : Orderly (before ++ [⟨.clock (.gate c method), now⟩]) op)
    (hinactive : c.grantActive now = false) :
    ∃ summary, op = .requestApproval ⟨c.fullLabel, method, summary⟩ := by
  have hgate : (⟨.clock (.gate c method), now⟩ : Event Op Ans) ∈
      before ++ [⟨.clock (.gate c method), now⟩] := List.mem_append_right _ List.mem_cons_self
  have hasked : ¬ Unasked (before ++ [⟨.clock (.gate c method), now⟩]) := by
    intro hu
    cases hu _ hgate
  have hidle : ¬ Idle (before ++ [⟨.clock (.gate c method), now⟩]) := fun hi =>
    hi c method now hinactive (by rw [List.getLast?_append, List.getLast?_singleton]; rfl)
  cases op with
  | requestApproval r =>
      rcases h with h | ⟨before', c', now', -, heq, -, hlabel⟩
      · exact absurd h hasked
      · obtain ⟨-, he⟩ := List.append_inj' heq rfl
        cases he
        exact ⟨r.summary, by rw [← hlabel]⟩
  | clock use =>
      cases use with
      | gate c' method' => exact absurd h hasked
      | _ => exact absurd h hidle
  | _ => exact absurd h hidle

theorem grantsStand_reach (h : Sys.Reach (service K S) (Starts w) NotTakenBack s) :
    GrantsStand s := by
  refine h.invariant (fun s hs => ?_) fun _ _ _ _ hstand hc hstep => hstand.step hstep hc
  rw [hs]
  intro pid p c t hp
  cases hp

/-- In every run that takes no grant back between a request's verification and its gate, every
grant that approves is still held by the store, and without one the user is asked. -/
theorem grants_honoured (h : Sys.Reach (service K S) (Starts w) NotTakenBack s) :
    GrantsHonoured K S s := by
  refine ⟨fun pid c method now s' hs hactive => ?_, ?_⟩
  · obtain ⟨-, ⟨p, next, hp, hr⟩, -⟩ := hs.of_run
    have hallowed := (safe_reach h fun _ => Starts.procs).allows hp hr
    cases ht : p.task with
    | request token req =>
        rw [ht] at hallowed
        obtain ⟨hcaller, -, hgated⟩ := hallowed
        have hunasked : Unasked p.trace := orderly_reach h (fun _ => Starts.procs) hp ht hr
        cases hg : c.grantedUntil with
        | none =>
            rw [PairedClient.grantActive, hg] at hactive
            cases hactive
        | some t =>
            refine (grantsStand_reach h pid p c t hp ?_ ?_ ⟨hcaller, hunasked⟩ hg).held hg hactive
            · rw [ht]
              exact hgated
            · rw [hr]
              rfl
    | command cmd =>
        rw [ht] at hallowed
        exact hallowed.elim
    | proving task =>
        rw [ht] at hallowed
        cases hallowed
  · intro pid p token req before c method now hp ht htrace hinactive prog hr
    cases prog with
    | pure reply =>
        -- a request ends with its row, not at its gate
        have hend := endsWithRow_reach h (fun _ => Starts.procs) pid p hp _ hr
        rw [ht, htrace] at hend
        obtain ⟨r, -, before', entry, written, heq, -⟩ := hend
        obtain ⟨-, he⟩ := List.append_inj' heq rfl
        cases he
    | step op next =>
        have horderly := orderly_reach h (fun _ => Starts.procs) hp ht hr
        rw [htrace] at horderly
        obtain ⟨summary, rfl⟩ := asks_of_orderly horderly hinactive
        exact ⟨summary, next, rfl⟩

/-! ## Requests under a grant -/

/-- What the first process is about to sign, if the user was not asked. -/
def signsNext (s : State) : Option AccountRef :=
  match (s.procs[0]? : Option Proc) with
  | some ⟨.request _ _, tr, some (.step (.signTypedData a _) _)⟩ =>
      if tr.any (fun e => decide (e.1 matches .requestApproval _)) then none else some a
  | _ => none

theorem signsNext_eq_some {s : State} {a : AccountRef} (h : signsNext s = some a) :
    ∃ (p : Proc) (token : Option String) (req : Request) (document : String)
      (next : Ans (.signTypedData a document) → Prog Op Ans Reply),
      s.procs[0]? = some p ∧ p.task = .request token req ∧
      p.rest = some (.step (.signTypedData a document) next) ∧ ¬ Approved p.trace := by
  unfold signsNext at h
  split at h
  · rename_i token req tr b document next hp
    split_ifs at h with hasked
    cases h
    refine ⟨_, token, req, document, next, hp, rfl, rfl, ?_⟩
    rintro ⟨r, hr⟩
    exact hasked (List.any_eq_true.2 ⟨_, hr, rfl⟩)
  · cases h

/-- An app asks for a signature of typed data after the user has granted it a day. -/
def appTasks : List Task :=
  [.request (some "t") (typedDataRequest "order 1"), .command (.grantPermission "c1" 1)]

/-- The user's own account. -/
def ownerAccount : AccountRef := { plainAccount with domain := .user, ownerClientId := none }

def appWorld : World where
  session := .newUnlocked .sepolia "test" "pass" ⟨[ownerAccount]⟩
  clients := [{ plainClient with kind := .app, tokenHash := "t" }]

theorem lawful_of_accounts {w : World} {u : Unlocked} (hs : w.session.unlocked = some u)
    (hu : ∀ a ∈ u.registry.accounts, a.ownerClientId ≠ none → a.domain = .agent)
    (ht : w.tmp = none) (hv : w.vault = none) : LawfulWorld K OwnedByAgents w := by
  refine ⟨fun v hv' => ?_, fun v hv' => ?_, fun v hv' => ?_⟩
  · rw [hs] at hv'
    cases hv'
    exact hu
  · rw [ht] at hv'
    cases hv'
  · rw [hv] at hv'
    cases hv'

/-- A granted app has typed data signed with an account of the user, and nobody asks. -/
theorem unprompted_owner : ¬ ∀ (s : State) (pid : ℕ) (p : Proc) (token : Option String)
    (req : Request) (op : Op) (next : Ans op → Prog Op Ans Reply) (a : AccountRef),
    Sys.Reach (service plainCrates plainSetup) (Starts appWorld) (fun _ _ => True) s →
    s.procs[pid]? = some p → p.task = .request token req → p.rest = some (.step op next) →
    accountUsed op = some a → ¬ Approved p.trace → ∃ c, Caller p.trace c ∧ OwnAccount c a := by
  intro hall
  have hplay : ((Sys.play (service plainCrates plainSetup) (answering plainCrates willing)
      ⟨appWorld, appTasks.map (service plainCrates plainSetup).fresh⟩ [1, 1, 0, 0, 0, 0]).bind
        fun r => signsNext r.2) = some ownerAccount := by
    decide +kernel
  obtain ⟨⟨moves, s⟩, h, hsigns⟩ := Option.bind_eq_some_iff.1 hplay
  have hreach := reach_tasks (C := fun _ _ => True) (fun _ _ => trivial) (fun _ _ _ _ _ => trivial)
    (fun task ht => by
      simp only [appTasks, List.mem_cons, List.not_mem_nil, or_false] at ht
      rcases ht with rfl | rfl <;> trivial) h
  obtain ⟨p, token, req, document, next, hp, ht, hr, hunasked⟩ := signsNext_eq_some hsigns
  obtain ⟨c, -, hdomain, -⟩ := hall s 0 p token req _ next ownerAccount hreach hp ht hr rfl hunasked
  cases hdomain

/-- What a request does under a grant, as far as it goes in `pids`. -/
def grantPlay (tasks : List Task) (pids : List ℕ) : Option (List Act × State) :=
  Sys.play (service plainCrates plainSetup) (answering plainCrates willing)
    ⟨grantedWorld, tasks.map (service plainCrates plainSetup).fresh⟩ pids

theorem reach_grantPlay {tasks : List Task} {pids : List ℕ} {moves : List Act} {s : State}
    (hext : ∀ task ∈ tasks, external task) (h : grantPlay tasks pids = some (moves, s)) :
    Sys.Reach (service plainCrates plainSetup) (Starts grantedWorld) (fun _ _ => True) s :=
  reach_tasks (fun _ _ => trivial) (fun _ _ _ _ _ => trivial) hext h

/-- The agent of the granted world signs with its own account. -/
theorem unprompted_own_agent : ∃ (s : State) (p : Proc) (req : Request) (c : PairedClient),
    s.procs[0]? = some p ∧ Caller p.trace c ∧ Granted p.trace c req.method ∧
      (OwnAccount c plainAccount ↔ c.kind = .agent) := by
  have hplay : ((grantPlay [.request (some "t") (typedDataRequest "order 1")] [0, 0, 0, 0]).bind
      fun r => signsNext r.2) = some plainAccount := by
    decide +kernel
  obtain ⟨⟨moves, s⟩, h, hsigns⟩ := Option.bind_eq_some_iff.1 hplay
  have hreach := reach_grantPlay (fun task ht => by rw [List.mem_singleton.1 ht]; trivial) h
  obtain ⟨p, token, req, document, next, hp, ht, hr, hunasked⟩ := signsNext_eq_some hsigns
  have hw : LawfulWorld plainCrates OwnedByAgents grantedWorld := by
    refine lawful_of_accounts rfl (fun a ha _ => ?_) rfl rfl
    rw [List.mem_singleton.1 ha]
    rfl
  obtain ⟨c, hc, hg, hiff⟩ := unprompted_own_iff plainCrates_authentic hw hreach hp ht hr rfl hunasked
  exact ⟨s, p, req, c, hp, hc, hg rfl, hiff⟩

/-- Whether the first process is at a gate that approves now. -/
def atActiveGate (s : State) : Bool :=
  match (s.procs[0]? : Option Proc) with
  | some ⟨_, _, some (.step (.clock (.gate c _)) _)⟩ => c.grantActive 0
  | _ => false

/-- The grant is revoked after the token was verified, and still approves. -/
theorem grant_taken_back : ¬ ∀ s, Sys.Reach (service plainCrates plainSetup) (Starts grantedWorld)
    (fun _ _ => True) s → GrantsHonoured plainCrates plainSetup s := by
  intro hall
  have hplay : (grantPlay [.request (some "t") (typedDataRequest "order 1"),
      .command (.revokePermission "c1")] [0, 0, 1, 0]).map
        (fun r => (atActiveGate r.2, r.2.world.clients.any fun c => c.grantActive 0)) =
      some (true, false) := by
    decide +kernel
  obtain ⟨⟨moves, s⟩, h, hgate⟩ := Option.map_eq_some_iff.1 hplay
  obtain ⟨hactive, hnone⟩ := Prod.mk.inj hgate
  have hreach := reach_grantPlay (fun task ht => by
    rcases List.mem_cons.1 ht with rfl | ht
    · trivial
    · rw [List.mem_singleton.1 ht]
      trivial) h
  simp only [atActiveGate] at hactive
  split at hactive
  · rename_i task tr c method next hp
    obtain ⟨c', hc', -, hheld⟩ := (hall s hreach).held 0 c method 0 _
      (.run s 0 _ _ next 0 _ hp rfl (.effect s.world 0 _ _ trivial)) hactive
    have := List.any_eq_false.1 hnone c' hc'
    exact this hheld
  · cases hactive

/-- Whether a process was verified with a grant that the operation takes back, and has not come to
its gate. -/
def robs (op : Op) (p : Proc) : Bool :=
  p.rest.isSome && p.trace.all (fun e => !asks e.1) && p.trace.any fun e =>
    match e with
    | ⟨.verify _, some c⟩ => c.grantedUntil.any fun t =>
        match op with
        | .revokeGrant id | .revoke id => id = c.id
        | .grant id untilMs => id = c.id && untilMs.toNat < t.toNat
        | _ => false
    | _ => false

theorem robs_of_takesBack {op : Op} {p : Proc} {c : PairedClient} {t : U64}
    (hrest : p.rest.isSome) (hb : BeforeGate p.trace c) (hg : c.grantedUntil = some t)
    (h : TakesBack c.id t op) : robs op p = true := by
  obtain ⟨⟨token, hcaller⟩, hunasked⟩ := hb
  have hall : p.trace.all (fun e => !asks e.1) = true :=
    List.all_eq_true.2 fun e he => by rw [hunasked e he]; rfl
  rw [robs, hrest, hall]
  refine List.any_eq_true.2 ⟨_, hcaller, ?_⟩
  rw [Option.any_eq_true]
  refine ⟨t, hg, ?_⟩
  cases op with
  | revokeGrant id => exact decide_eq_true h
  | revoke id => exact decide_eq_true h
  | grant id untilMs => simpa [TakesBack] using h
  | _ => exact h.elim

/-- Whether a move takes no grant back from a request that has not come to its gate. -/
def leavesGrants (s : State) : Act → Bool
  | .run _ e => s.procs.all fun p => !robs e.1 p
  | _ => true

theorem notTakenBack_of_leaves {m : Act} (h : leavesGrants s m = true) : NotTakenBack s m := by
  cases m with
  | run pid e =>
      intro i p c t hp _ hrest hb hg htakes
      have hrobs := List.all_eq_true.1 h p (List.mem_of_getElem? hp)
      rw [robs_of_takesBack hrest hb hg htakes] at hrobs
      cases hrobs
  | _ => trivial

/-- Two agents that hold a grant. -/
def twoGrants : World := { grantedWorld with
  clients := grantedWorld.clients ++
    [{ plainClient with id := "c2", tokenHash := "t2", grantedUntil := some 1 }] }

/-- Two requests of the first agent, and a revocation of the grant of each. -/
def revokingTasks : List Task :=
  [.request (some "t") (typedDataRequest "order 1"), .command (.revokePermission "c2"),
    .command (.revokePermission "c1"), .request (some "t") (typedDataRequest "order 2")]

/-- Whether the fourth process is about to ask the user. -/
def asksNext (s : State) : Bool :=
  match (s.procs[3]? : Option Proc) with
  | some ⟨_, _, some (.step (.requestApproval _) _)⟩ => true
  | _ => false

/-- The second agent's grant is revoked before the first agent's request comes to its gate, the
first agent's after it: the request is signed for without a prompt, and the next one is put to the
user. -/
theorem grants_honoured_revoked : ∃ s, Sys.Reach (service plainCrates plainSetup)
    (Starts twoGrants) NotTakenBack s ∧ (∀ c ∈ s.world.clients, c.grantedUntil = none) ∧
      signsNext s = some plainAccount ∧ asksNext s = true ∧
      GrantsHonoured plainCrates plainSetup s := by
  let M := service plainCrates plainSetup
  have hplay : ((Sys.playWhile M (fun _ : Unit => answering plainCrates willing) leavesGrants
      ⟨twoGrants, revokingTasks.map M.fresh⟩
      ([0, 0, 1, 0, 0, 2, 3, 3, 3, 3].map fun pid => ((), pid))).map fun r =>
        (r.2.world.clients.all fun c => c.grantedUntil.isNone, signsNext r.2, asksNext r.2)) =
      some (true, some plainAccount, true) := by
    decide +kernel
  obtain ⟨⟨moves, s⟩, h, hend⟩ := Option.map_eq_some_iff.1 hplay
  simp only [Prod.mk.injEq] at hend
  obtain ⟨hnone, hsigns, hasks⟩ := hend
  have hbegin : Starts twoGrants ⟨twoGrants, []⟩ := rfl
  have hstart : Sys.Reach M (Starts twoGrants) NotTakenBack
      ⟨twoGrants, revokingTasks.map M.fresh⟩ := by
    refine .arrivals hbegin (fun _ _ => trivial) fun task ht => ?_
    simp only [revokingTasks, List.mem_cons, List.not_mem_nil, or_false] at ht
    rcases ht with rfl | rfl | rfl | rfl <;> trivial
  have hreach : Sys.Reach M (Starts twoGrants) NotTakenBack s :=
    hstart.playWhile (fun _ _ => notTakenBack_of_leaves) (fun _ => exec_answering) h
  refine ⟨s, hreach, fun c hc => ?_, hsigns, hasks, grants_honoured hreach⟩
  exact Option.isNone_iff_eq_none.1 (List.all_eq_true.1 hnone c hc)

end Strkd.Service
