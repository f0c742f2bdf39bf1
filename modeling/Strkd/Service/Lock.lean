import Strkd.Lib.Doomed
import Strkd.Lib.Since
import Strkd.Service.Audit
import Strkd.Service.AutoLock
import Strkd.Service.Reattach

/-!
# The lock

From a lock on, until an unlock or a set-up opens the session again, nothing that needs the seed
or the registry is done for anyone: no operation begun before gets an answer that needs them, and
no request or command that comes in the meantime and needs them ends with a result.
-/

namespace Strkd.Service

open Wallet Prover Rpc

variable {K : Crates} {S : Setup}

/-! ## The answers of a locked session -/

/-- The answers a locked session gives: whatever takes the seed or the registry is refused. -/
def ShutAnswer : (op : Op) → Ans op → Prop
  | .session, s => s.unlocked = none
  | .signTypedData _ _, a => a = .error .locked
  | .signInvoke _ _ _ _, a => a = .error .locked
  | .signDeclare _ _ _ _ _, a => a = .error .locked
  | .signDeployAccount _ _ _, a => a = .error .locked
  | .signHash _ _, a => a = .error .locked
  | .viewingKey _ _ _, a => a = .error .locked
  | .createAgentAccount _ _, a => a = .error .locked
  | .createUserAccount _, a => a = .error .locked
  | .reveal _ _, a => a = .error .locked
  | _, _ => True

theorem shutAnswer_of_answers {w : World} {pid : ℕ} {op : Op} {a : Ans op}
    (hw : w.session.unlocked = none) (h : w.Answers K pid op a) : ShutAnswer op a := by
  have hu : w.session.requireUnlocked = .error .locked := by
    unfold WalletSession.requireUnlocked
    rw [hw]
  cases op with
  | session => rw [ShutAnswer, h.2, hw]
  | signTypedData account document =>
      rw [ShutAnswer, h.2, WalletSession.signTypedDataFor, hu]
      rfl
  | signInvoke account calls chain p =>
      rw [ShutAnswer, h.2, WalletSession.signInvokeFor, hu]
      rfl
  | signDeclare account classHash compiled chain p =>
      rw [ShutAnswer, h.2, WalletSession.signDeclareFor, hu]
      rfl
  | signDeployAccount account chain p =>
      rw [ShutAnswer, h.2, WalletSession.signDeployAccountFor, hu]
      rfl
  | signHash account hash =>
      rw [ShutAnswer, h.2, WalletSession.signHashFor, hu]
      rfl
  | viewingKey account chain pool =>
      rw [ShutAnswer, h.2, WalletSession.strk20ViewingKeyFor, hu]
      rfl
  | createAgentAccount id label =>
      rw [ShutAnswer, h.2, WalletSession.createAgentAccount, WalletSession.createAccount,
        WalletSession.nextAccount, hu]
      rfl
  | createUserAccount label =>
      rw [ShutAnswer, h.2, WalletSession.createUserAccount, WalletSession.createAccount,
        WalletSession.nextAccount, hu]
      rfl
  | reveal vault passphrase =>
      have hlocked : w.session.isLocked = true := by rw [WalletSession.isLocked, hw]; rfl
      rw [ShutAnswer, h.2, WalletSession.revealForSession, if_pos hlocked]
  | _ => trivial

/-- Nothing but an opening unlocks a locked session. -/
theorem locked_of_exec {w w' : World} {pid : ℕ} {op : Op} {a : Ans op}
    (hw : w.session.unlocked = none) (h : World.Exec K w pid op a w')
    (hop : opens ⟨op, a⟩ = false) : w'.session.unlocked = none := by
  have hmap : ∀ f, (w.session.mapRegistry f).unlocked = none := fun f => by
    rw [WalletSession.mapRegistry, hw]
    rfl
  cases h
  case failedWrite => exact hw
  case tornSettings => exact hw
  case effect h =>
      cases op with
      | installSession s => cases hop
      | unlockSession vault passphrase =>
          have ha : a = (w.session.unlock K vault passphrase).map fun _ => () := h.2
          cases hunlock : w.session.unlock K vault passphrase with
          | ok s =>
              rw [hunlock] at ha
              subst ha
              cases hop
          | error e =>
              simp only [World.effect, hunlock]
              exact hw
      | lockSession => rfl
      | setChain chain => exact hw
      | rollbackAccount address => exact hmap _
      | createAgentAccount id label =>
          cases a with
          | ok account => exact hmap _
          | error e => exact hw
      | createUserAccount label =>
          cases a with
          | ok account => exact hmap _
          | error e => exact hw
      | record entry => cases a <;> exact hw
      | reattach name kind => rcases a with _ | ⟨id, token⟩ <;> exact hw
      | writeTmp vault => rcases a with e | _ <;> exact hw
      | renameTmp => rcases a with e | _ <;> exact hw
      | renameToBackup name => rcases a with e | _ <;> exact hw
      | createSettings => rcases a with e | _ <;> exact hw
      | writeSettings s => rcases a with e | _ <;> exact hw
      | _ => exact hw

/-! ## Handlers that need the wallet -/

/-- Under the answers of a locked session the computation never ends with a value. -/
abbrev Shut {ε α : Type} (m : Handler ε Op Ans α) : Prop := Doomed ShutAnswer m

theorem shut_propagate {α : Type} {r : Except WalletRpcError α} (h : r = .error .locked) :
    Shut (propagate r) := by
  subst h
  exact fun _ => trivial

theorem shut_lift {α : Type} {r : Except WalletRpcError α} (h : r = .error .locked) :
    Shut (liftM r : Serve α) := by
  subst h
  exact .lift_error _

theorem registry_of_locked {s : WalletSession} (h : s.unlocked = none) :
    s.registry = .error .locked := by
  rw [WalletSession.registry, h]

theorem managerAccount_of_locked {s : WalletSession} (h : s.unlocked = none) (index : U32) :
    s.managerAccount K index = .error .locked := by
  rw [WalletSession.managerAccount, WalletSession.requireUnlocked, h]
  rfl

theorem shut_readRegistry : Shut readRegistry :=
  .act fun _ hs => shut_lift (registry_of_locked hs)

theorem shut_scopedAccount {client : PairedClient} {want : String} :
    Shut (scopedAccount client want) := shut_readRegistry.bind _

theorem shut_scopedAccountOr {client : PairedClient} {param : Option String}
    {missing : WalletRpcError} : Shut (scopedAccountOr K client param missing) :=
  shut_readRegistry.bind _

theorem shut_holdingSession {ε α : Type} {body : Handler ε Op Ans α} (h : Shut body) :
    Shut (holdingSession body) :=
  .after _ fun _ => h.attempt fun _ => .after _ fun _ => fun _ => trivial

theorem shut_handleAccounts {client : PairedClient} {detailed : Bool} :
    Shut (handleAccounts client detailed) := shut_readRegistry.bind _

theorem shut_handleDeploymentData {client : PairedClient} :
    Shut (handleDeploymentData K client) := shut_readRegistry.bind _

theorem shut_handleSignTypedData {client : PairedClient} {params : Json} :
    Shut (handleSignTypedData K client params) :=
  .after _ fun _ => .after _ fun _ => .after _ fun _ => shut_scopedAccount.bind _

theorem shut_handleAddInvoke {client : PairedClient} {params : Json} :
    Shut (handleAddInvoke K client params) :=
  .after _ fun _ => .after _ fun _ => .after _ fun _ => .after _ fun _ => .after _ fun _ =>
    .refuse (shut_scopedAccount.bind _)

theorem shut_handleAddDeclare {client : PairedClient} {params : Json} :
    Shut (handleAddDeclare K client params) :=
  .after _ fun _ => .after _ fun _ => shut_scopedAccount.bind _

theorem shut_handleSignAndProve {client : PairedClient} {params : Json} :
    Shut (handleSignAndProve K S client params) :=
  .after _ fun _ => .after _ fun _ => .after _ fun _ => .after _ fun _ => .after _ fun _ =>
    shut_scopedAccount.bind _

theorem shut_handleFundingSource : Shut (handleFundingSource K) :=
  .act fun _ hs => (shut_lift (managerAccount_of_locked hs 0)).bind _

theorem shut_handleEstimateFee {client : PairedClient} {params : Json} :
    Shut (handleEstimateFee K client params) :=
  .after _ fun _ => .after _ fun _ => .after _ fun _ => shut_scopedAccount.bind _

theorem shut_handleRequestFunding {client : PairedClient} {params : Json} :
    Shut (handleRequestFunding K client params) := by
  unfold handleRequestFunding
  refine .refuse ?_
  dsimp only
  refine .after _ fun amount => ?_
  refine .refuse ?_
  split
  · exact .after _ fun _ => shut_scopedAccountOr.bind _
  · exact .throw _

theorem shut_handleDeployAccount {client : PairedClient} {params : Json} :
    Shut (handleDeployAccount K client params) := shut_scopedAccountOr.bind _

theorem shut_handleCreateAgentAccount {client : PairedClient} {params : Json} :
    Shut (handleCreateAgentAccount K S client params) := by
  unfold handleCreateAgentAccount
  refine .refuse (.after _ fun _ => .after _ fun _ => shut_holdingSession ?_)
  exact .act fun a (ha : a = .error .locked) => (shut_propagate ha).bind _

theorem shut_ctx {caller : Rpc.Strk20.Caller} {params : Json} :
    Shut (Rpc.Strk20.ctx K S caller params) :=
  .after _ fun _ => (shut_readRegistry.bind _).bind _

theorem shut_balances {caller : Rpc.Strk20.Caller} {params : Json} :
    Shut (Rpc.Strk20.balances K S caller params) := .after _ fun _ => shut_ctx.bind _

theorem shut_register {caller : Rpc.Strk20.Caller} {params : Json} :
    Shut (Rpc.Strk20.register K S caller params) := shut_ctx.bind _

theorem shut_prepareInvoke {caller : Rpc.Strk20.Caller} {params : Json} :
    Shut (Rpc.Strk20.prepareInvoke K S caller params) := .after _ fun _ => shut_ctx.bind _

theorem shut_invokeTransaction {caller : Rpc.Strk20.Caller} {params : Json} :
    Shut (Rpc.Strk20.invokeTransaction K S caller params) := .after _ fun _ => shut_ctx.bind _

/-! ## Requests and commands that need the wallet -/

/-- The methods that take the seed or the registry. -/
def needsSeed : Method → Bool
  | .requestAccounts | .listAccounts | .deploymentData | .signTypedData | .addInvokeTransaction
  | .addDeclareTransaction | .createAgentAccount | .fundingSource | .estimateFee | .requestFunding
  | .deployAccount | .signAndProve | .strk20Balances | .strk20PrepareInvoke
  | .strk20InvokeTransaction | .strk20Register => true
  | _ => false

theorem shut_serve {client : PairedClient} {req : Request} {m : Method}
    (hm : needsSeed m = true) : Shut (serve K S client req (some m)) := by
  cases m with
  | requestAccounts => exact shut_handleAccounts
  | listAccounts => exact shut_handleAccounts
  | deploymentData => exact shut_handleDeploymentData
  | signTypedData => exact shut_handleSignTypedData
  | addInvokeTransaction => exact shut_handleAddInvoke
  | addDeclareTransaction => exact shut_handleAddDeclare
  | createAgentAccount => exact shut_handleCreateAgentAccount
  | fundingSource => exact shut_handleFundingSource
  | estimateFee => exact shut_handleEstimateFee
  | requestFunding => exact shut_handleRequestFunding
  | deployAccount => exact shut_handleDeployAccount
  | signAndProve => exact shut_handleSignAndProve
  | strk20Balances => exact shut_balances
  | strk20PrepareInvoke => exact shut_prepareInvoke
  | strk20InvokeTransaction => exact shut_invokeTransaction
  | strk20Register => exact shut_register
  | _ => cases hm

/-- The commands of the window that take the seed or the registry. -/
def uiNeedsSeed : UiCommand → Bool
  | .revealSeed _ | .addUserAccount _ | .deployAccount _ | .strk20Balances _ _ | .strk20Register _
  | .strk20Invoke _ _ | .strk20Prepare _ _ => true
  | _ => false

theorem shut_failUi {α : Type} {method network : String} {code : ℤ} {message : String} :
    Shut (Desktop.failUi method network code message : Desktop.Command α) :=
  .after _ fun _ => .throw _

theorem shut_revealSeed {passphrase : String} : Shut (Desktop.revealSeed passphrase) := by
  refine .after _ fun s => .after _ fun now => .after _ fun wait => ?_
  cases wait with
  | some wait => exact shut_failUi
  | none =>
      refine .after _ fun loaded => ?_
      rcases loaded with e | _ | vault
      · exact shut_failUi.bind _
      · exact shut_failUi.bind _
      · refine .after _ fun vault => .act fun a ha => ?_
        obtain rfl : a = .error .locked := ha
        exact shut_failUi

theorem shut_addUserAccount {label : String} : Shut (Desktop.addUserAccount K label) := by
  refine shut_holdingSession (.after _ fun s => ?_)
  refine .act fun a (ha : a = .error .locked) => ?_
  subst ha
  exact shut_failUi

theorem shut_deployAccount {address : String} : Shut (Desktop.deployAccount K address) := by
  unfold Desktop.deployAccount
  split
  · refine shut_holdingSession (.act fun s hs => ?_)
    refine .after _ fun configured => ?_
    refine .refuse ?_
    exact Doomed.bind (Doomed.mapErr (shut_propagate (registry_of_locked hs))) _
  · exact .throw _

theorem shut_strk20Run {uiMethod : String} {m : Serve Json} (h : Shut m) :
    Shut (Desktop.strk20Run uiMethod m) :=
  h.attempt fun _ => .after _ fun _ => .after _ fun _ => .throw _

theorem shut_command {c : UiCommand} (hc : uiNeedsSeed c = true) : Shut (c.run K S) := by
  cases c with
  | revealSeed passphrase => exact shut_revealSeed
  | addUserAccount label => exact shut_addUserAccount
  | deployAccount address => exact shut_deployAccount
  | strk20Balances address tokens => exact shut_balances.mapErr
  | strk20Register address => exact shut_strk20Run shut_register
  | strk20Invoke address actions => exact shut_strk20Run shut_invokeTransaction
  | strk20Prepare address actions => exact shut_strk20Run shut_prepareInvoke
  | _ => cases hc

/-! ## Tasks -/

/-- The tasks that take the seed or the registry. -/
def taskNeedsSeed : Task → Bool
  | .request _ req => (Method.ofString req.method).any needsSeed
  | .command c => uiNeedsSeed c
  | .proving _ => false

/-- A reply that is an error. -/
def IsRefusal : Reply → Prop
  | .response r => ∃ e, r.outcome = .error e
  | .window r => ∃ e, r = .error e
  | .none => False

/-- A task that needs the seed is refused. -/
def ShutTask (task : Task) (_ : Trace) (reply : Reply) : Prop :=
  taskNeedsSeed task = true → IsRefusal reply

theorem safe_handle_shut {token : Option String} {req : Request} {m : Method} {tr : Trace}
    (hname : Method.ofString req.method = some m) (hm : needsSeed m = true) :
    Safe (answeredBy ShutAnswer) tr (handle K S token req) fun _ h => ∃ e, h.result = .error e := by
  have hrest : ∀ f : Option PairedClient → Prog Op Ans Handled,
      f none = pure ⟨.error .notRegistered, "n/a", none⟩ →
      (∀ client, f (some client) = handlePaired K S client req (some m)) →
      Safe (answeredBy ShutAnswer) tr (verifyToken token >>= f) fun _ h => ∃ e, h.result = .error e := by
    intro f hnone hsome
    refine Safe.bind (safe_answeredBy (Q := fun _ _ => True) (fun _ _ => trivial) _)
      fun tr' client _ _ => ?_
    cases client with
    | none =>
        rw [hnone]
        exact ⟨_, rfl⟩
    | some client =>
        rw [hsome]
        unfold handlePaired
        by_cases hdeferred : (some m).any Method.isDeferred = true
        · rw [if_pos hdeferred]
          exact ⟨_, rfl⟩
        · rw [if_neg hdeferred]
          refine Safe.bind (shut_serve (K := K) (S := S) hm tr') fun tr'' r _ hr => ?_
          cases r with
          | ok v => exact hr.elim
          | error e => exact ⟨e, rfl⟩
  unfold handle
  rw [hname]
  cases m <;> first | exact hrest _ rfl fun _ => rfl | cases hm

theorem safe_start_shut (task : Task) :
    Safe (answeredBy ShutAnswer) [] ((service K S).start task) (ShutTask task) := by
  by_cases hneeds : taskNeedsSeed task = true
  · cases task with
    | request token req =>
        obtain ⟨m, hname, hm⟩ := (Option.any_eq_true _ _).1 hneeds
        have hdispatch : Safe (answeredBy ShutAnswer) [] (dispatch K S token req)
            fun _ r => ∃ e, r.outcome = .error e := by
          refine ⟨trivial, fun _ _ => Safe.bind (p := handle K S token req)
            (safe_handle_shut hname hm) fun tr h _ he => ?_⟩
          refine ⟨trivial, fun _ _ => ⟨trivial, fun _ _ => ⟨trivial, fun _ _ => ⟨trivial,
            fun _ _ => ?_⟩⟩⟩⟩
          obtain ⟨e, he⟩ := he
          rw [he]
          exact ⟨_, rfl⟩
        exact Safe.bind hdispatch fun _ r _ hr _ => hr
    | command c =>
        refine Safe.bind (shut_command (K := K) (S := S) hneeds []) fun _ r _ hr _ => ?_
        cases r with
        | ok v => exact hr.elim
        | error e => exact ⟨e, rfl⟩
    | proving task => cases hneeds
  · exact safe_answeredBy (fun _ _ h => absurd h hneeds) _

/-! ## Runs -/

/-- No step opens the session. -/
def StaysShut (_ : State) : Act → Prop
  | .run _ e => opens e = false
  | _ => True

/-- From a locked state on, in any run in which no unlock or set-up opens the session: it stays
locked, whatever takes the seed or the registry is refused to every task, also to those begun
before, and a request or command that arrived since and needs them ends, if it does, with an
error. -/
theorem locked_until_opened {s₀ s : State} (hlocked : s₀.world.session.isLocked = true)
    (h : Sys.Reach (service K S) (fun s => s = s₀) StaysShut s) :
    s.world.session.isLocked = true ∧
      (∀ i, ∃ later, s.traceAt i = s₀.traceAt i ++ later ∧ ∀ e ∈ later, ShutAnswer e.1 e.2) ∧
      ∀ (pid : ℕ) (p : Proc) (reply : Reply), s₀.procs.length ≤ pid → s.procs[pid]? = some p →
        taskNeedsSeed p.task = true → p.rest = some (.pure reply) → IsRefusal reply := by
  have hinv : s.world.session.unlocked = none ∧ Sys.Since (fun e => ShutAnswer e.1 e.2) s₀ s ∧
      Sys.SafeSince (fun _ => answeredBy ShutAnswer) ShutTask s₀ s := by
    refine h.invariant (I := fun s => s.world.session.unlocked = none ∧
      Sys.Since (fun e => ShutAnswer e.1 e.2) s₀ s ∧
      Sys.SafeSince (fun _ => answeredBy ShutAnswer) ShutTask s₀ s)
      (fun s hs => ?_) fun s m s' _ ⟨hshut, hsince, hsafe⟩ hc hs => ?_
    · subst hs
      exact ⟨Option.isNone_iff_eq_none.1 hlocked, Sys.since_self s, Sys.safeSince_self s⟩
    · refine ⟨?_, hsince.step hs fun pid e hm => ?_,
        hsafe.step hs safe_start_shut fun pid p op a _ hx => shutAnswer_of_answers hshut hx.answers⟩
      · by_cases hstill : ∀ pid e, m ≠ .run pid e
        · rw [(hs.of_still hstill).1]
          exact hshut
        · push Not at hstill
          obtain ⟨pid, ⟨op, a⟩, rfl⟩ := hstill
          exact locked_of_exec hshut hs.of_run.1 hc
      · subst hm
        exact shutAnswer_of_answers hshut hs.of_run.1.answers
  obtain ⟨hshut, hsince, hsafe⟩ := hinv
  refine ⟨Option.isNone_iff_eq_none.2 hshut, hsince, fun pid p reply hpid hp hneeds hr => ?_⟩
  exact hsafe.ended hpid hp hr hneeds

/-- The paired agent's wallet, locked. -/
def shutWorld : World := { grantedWorld with session := plainSession.lock }

/-- Answer and have the effect, unless that opens the session. -/
def shutting (w : World) (pid : ℕ) (op : Op) : Option (Ans op × World) :=
  (answering plainCrates willing w pid op).filter fun r => !opens ⟨op, r.1⟩

/-- What the first process replied, if it needs the seed and has ended. -/
def firstReply (s : State) : Option Reply :=
  match (s.procs[0]? : Option Proc) with
  | some ⟨task, _, some (.pure reply)⟩ => if taskNeedsSeed task then some reply else none
  | _ => none

theorem firstReply_eq_some {s : State} {reply : Reply} (h : firstReply s = some reply) :
    ∃ p : Proc, s.procs[0]? = some p ∧ taskNeedsSeed p.task = true ∧
      p.rest = some (.pure reply) := by
  unfold firstReply at h
  split at h
  · rename_i task tr reply' hp
    split_ifs at h with hneeds
    cases h
    exact ⟨_, hp, hneeds, rfl⟩
  · cases h

/-- A client that comes to have a document signed while the wallet is locked gets an error. -/
theorem locked_typedData : ∃ (s : State) (reply : Reply), firstReply s = some reply ∧
    IsRefusal reply ∧ s.world.session.isLocked = true := by
  let M := service plainCrates plainSetup
  let lone : Task := .request (some "t") (typedDataRequest "order 1")
  have hplay : ((Sys.play M shutting ⟨shutWorld, [lone].map M.fresh⟩ [0, 0, 0, 0, 0, 0, 0]).map
      fun r => (firstReply r.2).isSome) = some true := by
    decide +kernel
  obtain ⟨⟨moves, s⟩, h, hend⟩ := Option.map_eq_some_iff.1 hplay
  obtain ⟨reply, hreply⟩ := Option.isSome_iff_exists.1 hend
  have hbegin : Starts shutWorld ⟨shutWorld, []⟩ := rfl
  have hstart : Sys.Reach M (Starts shutWorld) StaysShut ⟨shutWorld, [lone].map M.fresh⟩ :=
    .arrivals hbegin (fun _ _ => trivial) fun task ht => by
      rw [List.mem_singleton.1 ht]
      trivial
  have hanswer : ∀ w pid op a w', shutting w pid op = some (a, w') →
      M.exec w pid op a w' ∧ opens ⟨op, a⟩ = false := by
    intro w pid op a w' ha
    obtain ⟨hw, hopens⟩ := Option.filter_eq_some_iff.1 ha
    exact ⟨exec_answering w pid op a w' hw, by simpa using hopens⟩
  have hreach : Sys.Reach M (Starts shutWorld) StaysShut s :=
    Sys.play_induction (P := fun _ s => Sys.Reach M (Starts shutWorld) StaysShut s)
      (fun w pid op a w' ha => (hanswer w pid op a w' ha).1)
      (fun _ _ _ pid op a _ hreach hs ha =>
        .step (.run pid ⟨op, a⟩) hreach (hanswer _ _ _ _ _ ha).2 hs) h [] hstart
  obtain ⟨hlocked, -, hshut⟩ := locked_until_opened rfl hreach
  obtain ⟨p, hp, hneeds, hr⟩ := firstReply_eq_some hreply
  exact ⟨s, reply, hreply, hshut 0 p reply (Nat.zero_le _) hp hneeds hr, hlocked⟩

end Strkd.Service
