import Strkd.Service.Decisions
import Strkd.Service.Signers

/-!
# What a request does and who allowed it

A request signs, or changes the accounts, the default chain, the watch list, a grant or a pairing,
only after the user has approved it or, in the methods that honor one, under an active grant of its
client.  It signs for accounts in the scope of that client, or for a manager account that funds one
of them; and a request that the user refused has done none of this.
-/

namespace Strkd.Service

open Wallet Prover Rpc

variable {K : Crates} {S : Setup} {w : World} {s : State}

/-- A signature, or a change of the accounts, in memory or in the vault file, of the default chain,
of the watch list, of a grant or of a pairing. -/
def needsConsent (op : Op) : Bool :=
  signs op || match op with
    | .createAgentAccount _ _ | .rollbackAccount _ | .writeTmp _ | .renameTmp | .setChain _
    | .addWatchedAsset _ | .grant _ _ | .pair _ _ | .reattach _ _ => true
    | _ => false

/-- Somebody allowed the request, and nobody refused it: the user, or a grant of its client. -/
structure Consented (method : String) (tr : Trace) : Prop where
  kept : ¬ Rejected tr
  given : Approved tr ∨ ∃ c, Caller tr c ∧ Granted tr c method

theorem Cleared.consented {method : String} {tr : Trace} {c : PairedClient}
    (h : Cleared method tr c) : Consented method tr :=
  ⟨h.kept, h.authorized.imp_right fun hg => ⟨c, h.caller, hg⟩⟩

theorem consented_of_permitted {method : String} {tr : Trace} {op : Op}
    (h : Permitted K method tr op) (hop : needsConsent op = true) : Consented method tr := by
  cases op with
  | signTypedData a document => obtain ⟨c, hc, -⟩ := h; exact hc.consented
  | signInvoke a calls chain p => obtain ⟨c, hc, -⟩ := h; exact hc.consented
  | signDeclare a classHash compiled chain p => obtain ⟨c, hc, -⟩ := h; exact hc.consented
  | signDeployAccount a chain p => obtain ⟨c, hc, -⟩ := h; exact hc.consented
  | signHash a hash => obtain ⟨c, hc, -⟩ := h; exact hc.consented
  | createAgentAccount id label => obtain ⟨c, hc, -⟩ := h; exact hc.consented
  | rollbackAccount address => obtain ⟨-, ⟨c, hc⟩, -⟩ := h; exact hc.consented
  | writeTmp vault => obtain ⟨-, -, c, hc⟩ := h; exact hc.consented
  | renameTmp => obtain ⟨-, -, c, hc⟩ := h; exact hc.consented
  | setChain chain => exact ⟨h.2.2, Or.inl h.2.1⟩
  | addWatchedAsset asset => exact ⟨h.2.2, Or.inl h.2.1⟩
  | grant id untilMs => exact ⟨h.2.2, Or.inl h.2.1⟩
  | pair label kind => exact ⟨h.2, Or.inl h.1⟩
  | reattach name kind => exact ⟨h.2, Or.inl h.1⟩
  | _ => cases hop

/-- The session, the vault file, the watch list and the clients are the same. -/
structure SameWallet (w w' : World) : Prop where
  session : w'.session = w.session
  vault : w'.vault = w.vault
  watched : w'.watched = w.watched
  clients : w'.clients = w.clients

/-- What a request does without consent changes nothing of the wallet. -/
theorem sameWallet_of_permitted {method : String} {tr : Trace} {w' : World} {pid : ℕ} {op : Op}
    {a : Ans op} (h : Permitted K method tr op) (hop : needsConsent op = false)
    (hx : World.Exec K w pid op a w') : SameWallet w w' := by
  cases hx
  case failedWrite => exact ⟨rfl, rfl, rfl, rfl⟩
  case tornSettings => exact ⟨rfl, rfl, rfl, rfl⟩
  case effect ha =>
    cases op with
    | createAgentAccount id label => cases hop
    | rollbackAccount address => cases hop
    | writeTmp vault => cases hop
    | renameTmp => cases hop
    | setChain chain => cases hop
    | addWatchedAsset asset => cases hop
    | grant id untilMs => cases hop
    | pair label kind => cases hop
    | reattach name kind => cases hop
    | revokeGrant id => exact h.elim
    | revoke id => exact h.elim
    | createUserAccount label => exact h.elim
    | unlockSession vault passphrase => exact h.elim
    | lockSession => exact h.elim
    | installSession n => exact h.elim
    | renameToBackup name => exact h.elim
    | createSettings => exact h.elim
    | writeSettings settings => exact h.elim
    | record entry => cases a <;> exact ⟨rfl, rfl, rfl, rfl⟩
    | _ => exact ⟨rfl, rfl, rfl, rfl⟩

theorem Consented.obtained {method : String} {tr : Trace} (h : Consented method tr) :
    Obtained tr := by
  rcases h.given with ha | ⟨c, -, -, now, hnow, hactive⟩
  · exact Or.inl ha
  · exact Or.inr ⟨c, method, now, hnow, hactive⟩

/-! ## Refusals -/

/-- What needs consent was done with an approval in hand, and not by a request that was refused. -/
structure Heeded (tr : Trace) : Prop where
  obtained : ∀ e ∈ tr, needsConsent e.1 = true → Obtained tr
  refused : Rejected tr → ∀ e ∈ tr, needsConsent e.1 = false

theorem heeded_of_unobtained {tr : Trace} (h : Heeded tr) (ho : ¬ Obtained tr) :
    ∀ e ∈ tr, needsConsent e.1 = false :=
  fun e he => Bool.eq_false_iff.2 fun hn => ho (h.obtained e he hn)

/-- Something that needs no consent leaves a trace heeded, if it does not come after such things as
a refusal. -/
theorem Heeded.idle {tr : Trace} {e : Event Op Ans} (h : Heeded tr)
    (he : needsConsent e.1 = false) (hr : Rejected (tr ++ [e]) → Rejected tr ∨ ¬ Obtained tr) :
    Heeded (tr ++ [e]) := by
  refine ⟨fun e' he' hn => ?_, fun hrej e' he' => ?_⟩
  · rcases List.mem_append.1 he' with he' | he'
    · exact (h.obtained e' he' hn).append
    · rw [List.mem_singleton.1 he', he] at hn
      cases hn
  · rcases List.mem_append.1 he' with he' | he'
    · rcases hr hrej with hrej | ho
      · exact h.refused hrej e' he'
      · exact heeded_of_unobtained h ho e' he'
    · rwa [List.mem_singleton.1 he']

/-- Nothing was obtained before the user is asked. -/
theorem unobtained_of_orderly {tr : Trace} {r : ApprovalRequest}
    (h : Orderly tr (.requestApproval r)) : ¬ Obtained tr := by
  rcases h with h | ⟨before, c, now, h, rfl, hinactive, -⟩
  · exact h.unobtained
  · apply not_obtained_append h.unobtained
    · exact fun r hr => by cases hr
    · intro c' method now' hactive heq
      cases heq
      rw [hinactive] at hactive
      cases hactive

theorem Heeded.step {method : String} {tr : Trace} {op : Op} {a : Ans op} (h : Heeded tr)
    (hp : Permitted K method tr op) (ho : Orderly tr op) : Heeded (tr ++ [⟨op, a⟩]) := by
  by_cases hn : needsConsent op = true
  · -- with consent, and so without a refusal
    have hc := consented_of_permitted hp hn
    have hkept : ¬ Rejected (tr ++ [⟨op, a⟩]) := by
      refine not_rejected_append hc.kept fun r heq => ?_
      cases heq
      cases hn
    exact ⟨fun _ _ _ => hc.obtained.append, fun hr => absurd hr hkept⟩
  · refine h.idle (Bool.eq_false_iff.2 hn) fun hr => ?_
    by_cases hasks : asks op = true
    · refine Or.inr ?_
      cases op with
      | requestApproval r => exact unobtained_of_orderly ho
      | clock use =>
          cases use with
          | gate c m => exact Unasked.unobtained ho
          | _ => cases hasks
      | _ => cases hasks
    · exact Or.inl ((rejected_append (Bool.eq_false_iff.2 hasks)).1 hr)

/-- The traces of all requests are heeded. -/
def RequestsHeeded (s : State) : Prop :=
  ∀ (pid : ℕ) (p : Proc) token req, s.procs[pid]? = some p → p.task = .request token req →
    Heeded p.trace

theorem heeded_reach {C : State → Act → Prop} (h : Sys.Reach (service K S) (Starts w) C s) :
    RequestsHeeded s := by
  refine h.invariant (fun s hs pid p token req hp => ?_) fun s m s' hreach ih _ hs => ?_
  · rw [hs] at hp
    cases hp
  · intro pid q token req hq ht
    rcases hs.process hq with hq | ⟨p, op, next, a, hp, hr, -, -, rfl⟩ | ⟨p, hp, -, rfl⟩ |
      ⟨-, task, rfl⟩
    · exact ih pid q token req hq ht
    · have ht : p.task = .request token req := ht
      have hallowed := (safe_reach hreach fun _ => Starts.procs).allows hp hr
      rw [ht] at hallowed
      exact (ih pid p token req hp ht).step hallowed
        (orderly_reach hreach (fun _ => Starts.procs) hp ht hr)
    · exact ih pid p token req hp ht
    · exact ⟨fun e he => (nomatch he), fun _ e he => nomatch he⟩

/-! ## Accounts -/

/-- What a request may sign for: an account in the scope of its client, or the manager account that
funds one. -/
def MaySignFor (K : Crates) (method : String) (tr : Trace) (account : AccountRef) : Op → Prop
  | .signInvoke a calls _ _ => a = account ∧ ∃ c, Caller tr c ∧ (InScope tr c account ∨
      method = Method.requestFunding.wire ∧ Funds K tr c account calls ∧ account.domain = .user)
  | _ => ∃ c, Caller tr c ∧ InScope tr c account

theorem maySignFor_of_permitted {method : String} {tr : Trace} {op : Op} {a : Ans op}
    {account : AccountRef} (h : Permitted K method tr op)
    (ha : signerOf ⟨op, a⟩ = some account) : MaySignFor K method tr account op := by
  cases op with
  | signTypedData b document =>
      cases a with
      | error e => cases ha
      | ok sig => cases ha; obtain ⟨c, hc, hin⟩ := h; exact ⟨c, hc.caller, hin⟩
  | signInvoke b calls chain p =>
      cases a with
      | error e => cases ha
      | ok signed =>
          cases ha
          obtain ⟨c, hc, hin | ⟨hm, hfunds⟩⟩ := h
          · exact ⟨rfl, c, hc.caller, Or.inl hin⟩
          · obtain ⟨-, -, ⟨n, i, -, hmanager⟩, -⟩ := id hfunds
            exact ⟨rfl, c, hc.caller, Or.inr
              ⟨hm, hfunds, WalletSession.managerAccount_domain hmanager⟩⟩
  | signDeclare b classHash compiled chain p =>
      cases a with
      | error e => cases ha
      | ok signed => cases ha; obtain ⟨c, hc, hin⟩ := h; exact ⟨c, hc.caller, hin⟩
  | signDeployAccount b chain p =>
      cases a with
      | error e => cases ha
      | ok signed => cases ha; obtain ⟨c, hc, hin⟩ := h; exact ⟨c, hc.caller, hin⟩
  | signHash b hash =>
      cases a with
      | error e => cases ha
      | ok sig => cases ha; obtain ⟨c, hc, hin⟩ := h; exact ⟨c, hc.caller, hin⟩
  | _ => cases ha

/-! ## Every request -/

/-- What the requests of a state were allowed, and whose keys they sign with. -/
structure Consensual (K : Crates) (S : Setup) (s : State) : Prop where
  /-- What needs consent has it. -/
  consented : ∀ (pid : ℕ) (p : Proc) token req op next, s.procs[pid]? = some p →
    p.task = .request token req → p.rest = some (.step op next) → needsConsent op = true →
    Consented req.method p.trace
  /-- What does not need it leaves the wallet as it is. -/
  unchanged : ∀ (pid : ℕ) (p : Proc) token req op (a : Ans op) s', s.procs[pid]? = some p →
    p.task = .request token req → Sys.Step (service K S) s (.run pid ⟨op, a⟩) s' →
    needsConsent op = false → SameWallet s.world s'.world
  /-- A signature is for an account of the caller's scope, or for a manager that funds one, and is
  made with the key of that account. -/
  signed : ∀ (pid : ℕ) (p : Proc) token req op (a : Ans op) s' account, s.procs[pid]? = some p →
    p.task = .request token req → Sys.Step (service K S) s (.run pid ⟨op, a⟩) s' →
    signerOf ⟨op, a⟩ = some account →
    MaySignFor K req.method p.trace account op ∧ SignedByOwner K s account ⟨op, a⟩
  /-- A request that was refused has done nothing that needs consent. -/
  refused : ∀ (pid : ℕ) (p : Proc) token req, s.procs[pid]? = some p →
    p.task = .request token req → Rejected p.trace → ∀ e ∈ p.trace, needsConsent e.1 = false

/-- In every run that opens one seed at a time, requests do what they were allowed, with the keys of
their own accounts. -/
theorem consensual_reach (hK : K.Authentic) (hw : SoundWorld K w)
    (h : Sys.Reach (service K S) (Starts w) (OneSeed K) s) : Consensual K S s := by
  have hpermitted : ∀ {pid : ℕ} {p : Proc} {token req op next}, s.procs[pid]? = some p →
      p.task = .request token req → p.rest = some (.step op next) →
      Permitted K req.method p.trace op := by
    intro pid p token req op next hp ht hr
    have hallowed := (safe_reach h fun _ => Starts.procs).allows hp hr
    rwa [ht] at hallowed
  refine ⟨fun pid p token req op next hp ht hr hop => ?_,
    fun pid p token req op a s' hp ht hs hop => ?_,
    fun pid p token req op a s' account hp ht hs ha => ?_,
    fun pid p token req hp ht hrej => (heeded_reach h pid p token req hp ht).refused hrej⟩
  · exact consented_of_permitted (hpermitted hp ht hr) hop
  · obtain ⟨hx, ⟨p', next, hp', hr⟩, -⟩ := hs.of_run
    obtain rfl : p = p' := Option.some.inj (hp.symm.trans hp')
    exact sameWallet_of_permitted (hpermitted hp ht hr) hop hx
  · obtain ⟨-, ⟨p', next, hp', hr⟩, -⟩ := hs.of_run
    obtain rfl : p = p' := Option.some.inj (hp.symm.trans hp')
    exact ⟨maySignFor_of_permitted (hpermitted hp ht hr) ha,
      signedByOwner_of_reach hK hw h hp ht hs ha⟩

/-- A request comes to its signature with everything it needs. -/
theorem consensual_alone : ∃ (s : State) (sig : StarkSignature), seedSignature s = some sig ∧
    Consensual seedCrates plainSetup s := by
  obtain ⟨s, sig, hreach, hsig⟩ := reach_alone
  exact ⟨s, sig, hsig, consensual_reach authentic_seedCrates soundWorld_seedWorld hreach⟩

/-- Another seed is opened under a request, and its key signs for an account it does not have. -/
theorem not_consensual_otherSeed : ¬ ∀ s, Sys.Reach (service seedCrates plainSetup)
    (Starts seedWorld) (fun _ _ => True) s → Consensual seedCrates plainSetup s := by
  intro hall
  obtain ⟨s, s', p, sig, hreach, hp, ⟨req, ht⟩, hs, hnot⟩ := otherSeed_signs
  exact hnot ((hall s hreach).signed 0 p (some "t") req _ _ s' seedAccount hp ht hs rfl).2

end Strkd.Service
