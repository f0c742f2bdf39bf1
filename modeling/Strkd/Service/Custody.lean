import Strkd.Rpc.Calm
import Strkd.Service.Runs

/-!
# Custody of the vault

What a task does to the open session and the vault file, step by step.  An account is created under
the session lock, and before the lock is given back it is saved or taken out again; a set-up writes
its vault, puts it in place and installs its session; everything else leaves both alone.
-/

namespace Strkd.Service

open Wallet Prover Rpc

/-- Where a task stands with the session and the vault file. -/
inductive Custody where
  | away
  /-- It holds the session lock, and everything in the session is saved. -/
  | holding
  /-- It holds the lock, with an account created and not saved. -/
  | created (account : AccountRef)
  | looked (account : AccountRef) (s : WalletSession)
  | resealed (account : AccountRef) (vault : EncryptedVault)
  | wrote (account : AccountRef) (vault : EncryptedVault)
  /-- It sets a wallet up: its vault is written, then put in place. -/
  | founding (vault : EncryptedVault)
  | founded (vault : EncryptedVault)
  deriving DecidableEq

namespace Custody

def after (K : Crates) (c : Custody) (e : Event Op Ans) : Custody :=
  match c, e with
  | .away, ⟨.acquireSession, _⟩ => .holding
  | .away, ⟨.writeTmp vault, .ok _⟩ => .founding vault
  | .holding, ⟨.releaseSession, _⟩ => .away
  | .holding, ⟨.createAgentAccount _ _, .ok account⟩ => .created account
  | .holding, ⟨.createUserAccount _, .ok account⟩ => .created account
  | .created account, ⟨.session, s⟩ => .looked account s
  | .created _, ⟨.rollbackAccount _, _⟩ => .holding
  | .looked account s, ⟨.entropy, draws⟩ =>
      match s.reseal K draws with
      | .ok vault => .resealed account vault
      | .error _ => .created account
  | .resealed account _, ⟨.writeTmp vault, .ok _⟩ => .wrote account vault
  | .resealed account _, ⟨.writeTmp _, .error _⟩ => .created account
  | .wrote _ _, ⟨.renameTmp, .ok _⟩ => .holding
  | .wrote account _, ⟨.renameTmp, .error _⟩ => .created account
  | .founding vault, ⟨.renameTmp, .ok _⟩ => .founded vault
  | .founding _, ⟨.renameTmp, .error _⟩ => .away
  | .founded _, ⟨.installSession _, _⟩ => .away
  | c, _ => c

/-- The session lock is in hand. -/
def locks : Custody → Bool
  | .away | .founding _ | .founded _ => false
  | _ => true

/-- A vault that a set-up makes. -/
def FreshVault (K : Crates) (S : Setup) (vault : EncryptedVault) : Prop :=
  ∃ mnemonic passphrase draws,
    (WalletSession.newUnlocked S.desktopChain mnemonic passphrase .empty).reseal K draws = .ok vault

/-- What a task may do in a custody; `founds` tells a set-up. -/
def Allows (K : Crates) (S : Setup) (founds : Bool) (c : Custody) : Op → Prop
  | .acquireSession | .lockSession | .renameToBackup _ => c = .away
  | .releaseSession | .createAgentAccount _ _ | .createUserAccount _ | .unlockSession _ _ =>
      c = .holding
  | .rollbackAccount address => ∃ account, c = .created account ∧ address = account.address
  | .writeTmp vault =>
      (∃ account, c = .resealed account vault) ∨ c = .away ∧ founds = true ∧ FreshVault K S vault
  | .renameTmp =>
      (∃ account vault, c = .wrote account vault) ∨ founds = true ∧ ∃ vault, c = .founding vault
  | .installSession n => ∃ vault draws, c = .founded vault ∧ n.reseal K draws = .ok vault
  | _ => True

/-- Custodies that calm operations keep. -/
def Settled (c : Custody) : Prop := c = .away ∨ c = .holding

theorem after_calm {K : Crates} {c : Custody} (hc : c.Settled) {op : Op} (a : Ans op)
    (h : calm op = true) : c.after K ⟨op, a⟩ = c := by
  rcases hc with rfl | rfl <;> cases op <;> first | rfl | cases h

/-- Of the calm operations only a look at the session and the system's randomness count. -/
theorem after_other {K : Crates} (c : Custody) {op : Op} (a : Ans op) (h : calm op = true)
    (hs : op ≠ .session) (he : op ≠ .entropy) : c.after K ⟨op, a⟩ = c := by
  cases op
  case session => exact absurd rfl hs
  case entropy => exact absurd rfl he
  all_goals first | (cases c <;> rfl) | cases h

theorem allows_calm {K : Crates} {S : Setup} {founds : Bool} {c : Custody} {op : Op}
    (h : calm op = true) : c.Allows K S founds op := by
  cases op <;> trivial

end Custody

/-- The custody of a task after what it did. -/
def custody (K : Crates) (tr : Trace) : Custody := tr.foldl (Custody.after K) .away

theorem custody_append {K : Crates} (tr : Trace) (e : Event Op Ans) :
    custody K (tr ++ [e]) = (custody K tr).after K e := by
  unfold custody
  rw [List.foldl_append]
  rfl

/-- A set-up of the wallet. -/
def Task.founds : Task → Bool
  | .command (.finalizeSetup _) => true
  | _ => false

def custodyRules (K : Crates) (S : Setup) (founds : Bool) : Rules Op Ans where
  allows tr op := (custody K tr).Allows K S founds op
  legal _ _ _ := True

/-- An account was saved: the vault that it was sealed in was put in place. -/
def Saved (K : Crates) (tr : Trace) (account : AccountRef) : Prop :=
  ∃ tr' vault, tr' ++ [⟨.renameTmp, .ok ()⟩] <+: tr ∧ custody K tr' = .wrote account vault

theorem Saved.mono {K : Crates} {tr tr' : Trace} {account : AccountRef} (h : Saved K tr account)
    (htr : tr <+: tr') : Saved K tr' account := by
  obtain ⟨tr₀, vault, hpre, hc⟩ := h
  exact ⟨tr₀, vault, hpre.trans htr, hc⟩

/-! ## Walking through a computation -/

section

variable {K : Crates} {S : Setup} {founds : Bool} {tr : Trace} {ε α β : Type} {Q : Trace → α → Prop}

theorem serves_calm {m : Handler ε Op Ans α} (hm : Calming m) {c : Custody} (hc : c.Settled)
    (h0 : custody K tr = c) :
    Serves (custodyRules K S founds) tr m (fun tr' _ => custody K tr' = c)
      fun tr' _ => custody K tr' = c :=
  Confined.serves (I := fun tr => custody K tr = c) hm
    (fun _ _ _ hop => Custody.allows_calm hop)
    (fun tr op a htr hop => by rw [custody_append, htr, Custody.after_calm hc a hop]) h0

theorem custody_act (op : Op) (a : Ans op) {c : Custody} (hc : c.Settled) (h : custody K tr = c)
    (hop : calm op = true) : custody K (tr ++ [⟨op, a⟩]) = c := by
  rw [custody_append, h, Custody.after_calm hc a hop]

/-- A computation under the session lock, which it leaves settled. -/
theorem serves_underLock {body : Handler ε Op Ans α} (h : custody K tr = .away)
    (hQ : ∀ tr tr' a, Q tr a → tr <+: tr' → Q tr' a)
    (hbody : ∀ tr, custody K tr = .holding → Serves (custodyRules K S founds) tr body
      (fun tr' a => custody K tr' = .holding ∧ Q tr' a) fun tr' _ => custody K tr' = .holding) :
    Serves (custodyRules K S founds) tr (holdingSession body)
      (fun tr' a => custody K tr' = .away ∧ Q tr' a) fun tr' _ => custody K tr' = .away := by
  refine Serves.act h fun _ _ => ?_
  have hheld : custody K (tr ++ [⟨.acquireSession, ()⟩]) = .holding := by
    rw [custody_append, h]
    rfl
  refine Serves.attempt (hbody _ hheld) fun tr' r _ hr => ?_
  have hrelease : ∀ {tr' : Trace}, custody K tr' = .holding →
      custody K (tr' ++ [⟨.releaseSession, ()⟩]) = .away := by
    intro tr' h
    rw [custody_append, h]
    rfl
  cases r with
  | ok a => exact Serves.act hr.1 fun _ _ =>
      ⟨hrelease hr.1, hQ _ _ _ hr.2 (List.prefix_append tr' _)⟩
  | error e => exact Serves.act hr fun _ _ => hrelease hr

/-! ## Accounts -/

theorem serves_reseal {account : AccountRef} (h : custody K tr = .created account) :
    Serves (custodyRules K S founds) tr (resealSession K)
      (fun tr' vault => custody K tr' = .resealed account vault)
      fun tr' _ => custody K tr' = .created account := by
  refine Serves.act trivial fun s _ => ?_
  have hlooked : custody K (tr ++ [⟨.session, s⟩]) = .looked account s := by
    rw [custody_append, h]
    rfl
  refine Serves.act trivial fun draws _ => ?_
  unfold propagate
  cases hv : s.reseal K draws with
  | error e =>
      change custody K _ = _
      rw [custody_append, hlooked]
      simp only [Custody.after, hv]
  | ok vault =>
      change custody K _ = _
      rw [custody_append, hlooked]
      simp only [Custody.after, hv]

theorem serves_save {account : AccountRef} {vault : EncryptedVault}
    (h : custody K tr = .resealed account vault) :
    Serves (custodyRules K S founds) tr (saveVault vault)
      (fun tr' _ => custody K tr' = .holding ∧ Saved K tr' account)
      fun tr' _ => custody K tr' = .created account := by
  refine Serves.act (Or.inl ⟨account, h⟩) fun written _ => ?_
  cases written with
  | error e =>
      change custody K _ = _
      rw [custody_append, h]
      rfl
  | ok u =>
      have hwrote : custody K (tr ++ [⟨.writeTmp vault, .ok u⟩]) = .wrote account vault := by
        rw [custody_append, h]
        rfl
      refine Serves.act (Or.inl ⟨account, vault, hwrote⟩) fun renamed _ => ?_
      cases renamed with
      | error e =>
          change custody K _ = _
          rw [custody_append, hwrote]
          rfl
      | ok u' =>
          refine ⟨?_, _, vault, List.prefix_refl _, hwrote⟩
          rw [custody_append, hwrote]
          rfl

theorem custody_rollback {account : AccountRef} (h : custody K tr = .created account) :
    custody K (tr ++ [⟨.rollbackAccount account.address, ()⟩]) = .holding := by
  rw [custody_append, h]
  rfl

theorem serves_saveOrRollback {account : AccountRef} (h : custody K tr = .created account) :
    Serves (custodyRules K S founds) tr (persistOrRollback K account)
      (fun tr' _ => custody K tr' = .holding ∧ Saved K tr' account)
      fun tr' _ => custody K tr' = .holding := by
  have hpersist : Serves (custodyRules K S founds) tr (persistVault K)
      (fun tr' _ => custody K tr' = .holding ∧ Saved K tr' account)
      fun tr' _ => custody K tr' = .created account :=
    Serves.bind (serves_reseal h) fun tr' vault _ hv => Serves.mapErr (serves_save hv)
  refine Serves.attempt hpersist fun tr' r _ hr => ?_
  cases r with
  | ok u => exact hr
  | error e => exact Serves.act ⟨account, hr, rfl⟩ fun _ _ => custody_rollback hr

/-- The answer is an account that was saved. -/
def AnswersSaved (K : Crates) (tr : Trace) (v : Json) : Prop :=
  ∃ account, v = accountToJson account ∧ Saved K tr account

theorem AnswersSaved.mono {tr tr' : Trace} {v : Json} (h : AnswersSaved K tr v) (htr : tr <+: tr') :
    AnswersSaved K tr' v := by
  obtain ⟨account, hv, hsaved⟩ := h
  exact ⟨account, hv, hsaved.mono htr⟩

theorem serves_handleCreateAgentAccount (hS : S.hasVaultStore = true) {client : PairedClient}
    {params : Json} (h : custody K tr = .away) :
    Serves (custodyRules K S founds) tr (handleCreateAgentAccount K S client params)
      (fun tr' v => custody K tr' = .away ∧ AnswersSaved K tr' v)
      fun tr' _ => custody K tr' = .away := by
  unfold handleCreateAgentAccount
  refine Serves.refuse (fun _ => h) fun _ => ?_
  refine Serves.bind (serves_calm (idle_gatedApproval ..).calm (.inl rfl) h) fun tr₁ decision _ h₁ =>
    Serves.bind (serves_calm (.lift _) (.inl rfl) h₁) fun tr₂ _ _ h₂ => ?_
  refine serves_underLock h₂ (fun _ _ _ h htr => h.mono htr) fun tr h => ?_
  refine Serves.act h fun answer _ => ?_
  cases answer with
  | error e =>
      change custody K _ = _
      rw [custody_append, h]
      rfl
  | ok account =>
      have hcreated : ∀ id label, custody K (tr ++ [⟨.createAgentAccount id label, .ok account⟩]) =
          .created account := by
        intro id label
        rw [custody_append, h]
        rfl
      have hsave : ∀ id label, Serves (custodyRules K S founds)
          (tr ++ [⟨.createAgentAccount id label, .ok account⟩])
          (do if S.hasVaultStore then persistOrRollback K account
              return accountToJson account : Serve Json)
          (fun tr' v => custody K tr' = .holding ∧ AnswersSaved K tr' v)
          fun tr' _ => custody K tr' = .holding := by
        intro id label
        rw [if_pos hS]
        exact Serves.bind (serves_saveOrRollback (hcreated id label)) fun tr' _ _ hr =>
          ⟨hr.1, account, rfl, hr.2⟩
      exact hsave _ _

theorem serves_failUi {method network message : String} {code : ℤ} (h : custody K tr = .holding) :
    Serves (custodyRules K S founds) tr
      (Desktop.failUi method network code message : Desktop.Command α) Q
      fun tr' _ => custody K tr' = .holding :=
  Serves.bind (serves_calm (idle_logUiAction ..).calm (.inr rfl) h) fun _ _ _ h => serves_throw h

theorem serves_addUserAccount {label : String} (h : custody K tr = .away) :
    Serves (custodyRules K S founds) tr (Desktop.addUserAccount K label)
      (fun tr' v => custody K tr' = .away ∧ AnswersSaved K tr' v)
      fun tr' _ => custody K tr' = .away := by
  refine serves_underLock h (fun _ _ _ h htr => h.mono htr) fun tr h => ?_
  refine Serves.act trivial fun s _ => ?_
  have h₁ := custody_act .session s (.inr rfl) h rfl
  refine Serves.act h₁ fun answer _ => ?_
  cases answer with
  | error e =>
      have h₂ : custody K (tr ++ [⟨.session, s⟩] ++ [⟨.createUserAccount label, .error e⟩]) =
          .holding := by
        rw [custody_append, h₁]
        rfl
      exact serves_failUi h₂
  | ok account =>
      have h₂ : custody K (tr ++ [⟨.session, s⟩] ++ [⟨.createUserAccount label, .ok account⟩]) =
          .created account := by
        rw [custody_append, h₁]
        rfl
      have hsave : Serves (custodyRules K S founds)
          (tr ++ [⟨.session, s⟩] ++ [⟨.createUserAccount label, .ok account⟩]) (Desktop.saveSession K)
          (fun tr' _ => custody K tr' = .holding ∧ Saved K tr' account)
          fun tr' _ => custody K tr' = .created account :=
        Serves.bind (Serves.mapErr (serves_reseal h₂)) fun tr' vault _ hv => serves_save hv
      refine Serves.attempt hsave fun tr' r _ hr => ?_
      cases r with
      | ok u =>
          exact Serves.bind (serves_calm (idle_logUiAction ..).calm (.inr rfl) hr.1)
            fun tr'' _ htr h => ⟨h, account, rfl, hr.2.mono htr⟩
      | error e =>
          exact Serves.act ⟨account, hr, rfl⟩ fun _ _ => serves_failUi (custody_rollback hr)

/-! ## The vault file -/

theorem serves_calm_away {m : Handler ε Op Ans α} (hm : Calming m) (h : custody K tr = .away) :
    Obeys (custodyRules K S founds) tr m fun tr' _ => custody K tr' = .away :=
  (serves_calm hm (.inl rfl) h).weaken (fun _ _ _ h => h) fun _ _ _ _ => trivial

theorem obeys_finalizeSetup {passphrase : String} (h : custody K tr = .away) :
    Obeys (custodyRules K S true) tr (Desktop.finalizeSetup K S passphrase) fun _ _ => True := by
  refine Obeys.act trivial fun staged => ?_
  have h₁ := custody_act .takeMnemonic staged (.inl rfl) h rfl
  cases staged with
  | none => exact serves_throw trivial
  | some mnemonic =>
      refine Obeys.act trivial fun draws => ?_
      have h₂ := custody_act .entropy draws (.inl rfl) h₁ rfl
      refine Obeys.orMessage fun vault hvault => ?_
      have hsave : Obeys (custodyRules K S true) (tr ++ [⟨.takeMnemonic, some mnemonic⟩] ++
          [⟨.entropy, draws⟩]) (saveVault vault) fun tr' _ => custody K tr' = .founded vault := by
        refine Obeys.act (Or.inr ⟨h₂, rfl, mnemonic, passphrase, draws, hvault⟩) fun written => ?_
        cases written with
        | error e => exact serves_throw trivial
        | ok u =>
            have h₃ := custody_append (K := K) (tr ++ [⟨.takeMnemonic, some mnemonic⟩] ++
              [⟨.entropy, draws⟩]) ⟨.writeTmp vault, .ok u⟩
            rw [h₂] at h₃
            refine Obeys.act (Or.inr ⟨rfl, vault, h₃⟩) fun renamed => ?_
            cases renamed with
            | error e => exact serves_throw trivial
            | ok u' =>
                refine serves_pure ?_
                rw [custody_append, h₃]
                rfl
      refine Obeys.andThen hsave fun tr' _ _ h₃ => ?_
      exact Obeys.act ⟨vault, draws, h₃, hvault⟩ fun _ => serves_pure trivial

theorem obeys_unlock {passphrase : String} (h : custody K tr = .away) :
    Obeys (custodyRules K S founds) tr (Desktop.unlock passphrase) fun _ _ => True := by
  refine Obeys.act trivial fun now => ?_
  have h₁ := custody_act .instant now (.inl rfl) h rfl
  refine Obeys.act trivial fun wait => ?_
  have h₂ := custody_act (.backoffCheck now) wait (.inl rfl) h₁ rfl
  cases wait with
  | some wait => exact serves_throw trivial
  | none =>
      refine Obeys.andThen (serves_calm_away (idle_loadVault _).calm h₂) fun tr₃ vault _ h₃ => ?_
      have hguess : ∀ tr, custody K tr = .holding → Serves (custodyRules K S founds) tr (do
            let opened ← Desktop.act (.unlockSession vault passphrase)
            Desktop.countGuess opened
            propagate (opened.mapError Desktop.unlockError) : Desktop.Command Unit)
          (fun tr' _ => custody K tr' = .holding ∧ True) fun tr' _ => custody K tr' = .holding := by
        intro tr h
        refine Serves.act h fun opened _ => ?_
        have hopened : custody K (tr ++ [⟨.unlockSession vault passphrase, opened⟩]) = .holding := by
          rw [custody_append, h]
          cases opened <;> rfl
        refine Serves.bind (serves_calm (idle_countGuess opened).calm (.inr rfl) hopened)
          fun tr' _ _ h' => ?_
        exact (serves_calm (calm_propagate _) (.inr rfl) h').weaken (fun _ _ _ h => ⟨h, trivial⟩)
          fun _ _ _ h => h
      refine Obeys.andThen ((serves_underLock h₃ (fun _ _ _ _ _ => trivial) hguess).weaken
        (fun _ _ _ h => h) fun _ _ _ _ => trivial) fun tr₄ _ _ h₄ => ?_
      exact Obeys.act trivial fun _ => serves_pure trivial

theorem obeys_archiveUnsupportedVault (h : custody K tr = .away) :
    Obeys (custodyRules K S founds) tr (Desktop.archiveUnsupportedVault S) fun _ _ => True := by
  unfold Desktop.archiveUnsupportedVault
  refine Obeys.andThen (serves_calm_away (idle_loadVault _).calm h) fun tr₁ vault _ h₁ => ?_
  refine Obeys.refuse fun _ => ?_
  refine Obeys.act trivial fun stamp => ?_
  have h₂ := custody_act (.clock .archive) stamp (.inl rfl) h₁ rfl
  refine Obeys.act h₂ fun renamed => ?_
  have h₃ : custody K (tr₁ ++ [⟨.clock .archive, stamp⟩] ++ [⟨.renameToBackup
      (Desktop.backupName vault.version stamp), renamed⟩]) = .away := by
    rw [custody_append, h₂]
    cases renamed <;> rfl
  exact Obeys.andThen (serves_calm_away (calm_propagate _) h₃) fun _ _ _ h₄ =>
    .andThen (serves_calm_away (idle_logUiAction ..).calm h₄) fun _ _ _ _ => serves_pure trivial

theorem obeys_uiLock (h : custody K tr = .away) :
    Obeys (custodyRules K S founds) tr Desktop.lock fun _ _ => True :=
  Obeys.act h fun _ => serves_pure trivial

theorem obeys_autoLock (h : custody K tr = .away) :
    Obeys (custodyRules K S founds) tr Desktop.autoLockTick fun _ _ => True := by
  refine Obeys.act trivial fun file => ?_
  have h₁ := custody_act .readSettings file (.inl rfl) h rfl
  dsimp only
  split
  · refine Obeys.act trivial fun now => ?_
    have h₂ := custody_act (.clock .idle) now (.inl rfl) h₁ rfl
    refine Obeys.act trivial fun last => ?_
    have h₃ := custody_act .lastActivity last (.inl rfl) h₂ rfl
    split
    · exact Obeys.act h₃ fun _ => serves_pure trivial
    · exact serves_pure trivial
  · exact serves_pure trivial

theorem obeys_deployAccount {text : String} (h : custody K tr = .away) :
    Obeys (custodyRules K S founds) tr (Desktop.deployAccount K text) fun _ _ => True := by
  unfold Desktop.deployAccount
  split
  · refine (serves_underLock (Q := fun _ _ => True) h (fun _ _ _ _ _ => trivial)
      fun tr h => ?_).weaken (fun _ _ _ _ => trivial) fun _ _ _ _ => trivial
    refine (serves_calm ?_ (.inr rfl) h).weaken (fun _ _ _ h => ⟨h, trivial⟩) fun _ _ _ h => h
    refine .bind (calm_act rfl) fun s => .bind (calm_act rfl) fun configured => ?_
    refine .exit (.throw _) fun _ => ?_
    refine .bind (.mapErr (calm_propagate _)) fun reg => ?_
    split
    · split
      · refine .bind (idle_fromNode (reading_isDeployed ..).idle).calm fun deployed =>
          .exit (idle_failUi ..).calm fun _ => ?_
        refine .bind (.mapErr (calm_propagate _)) fun d =>
          .bind (idle_fromNode (reading_estimate ..).idle).calm fun bounds =>
          .bind (calm_act rfl) fun answer => .bind (.mapErr (calm_propagate _)) fun signed => ?_
        refine .bind (.bind (Confined.attempt (outward_addDeployAccount ..).calm) fun r => ?_)
          fun hash => .bind (idle_logUiAction ..).calm fun _ => .pure _
        cases r with
        | ok hash => exact .pure _
        | error e => exact (idle_failUi ..).calm
      · exact .throw _
    · exact .throw _
  · exact serves_throw trivial

theorem calm_strk20Run {uiMethod : String} {m : Serve Json} (h : Calming m) :
    Calming (Desktop.strk20Run uiMethod m) := by
  refine .bind h.attempt fun r => .bind (calm_act rfl) fun s => ?_
  cases r with
  | ok v => exact .bind (idle_logUiAction ..).calm fun _ => .pure _
  | error e => exact .bind (idle_logUiAction ..).calm fun _ => .throw _

/-! ## Every task -/

theorem obeys_calmCommand {α : Type} {m : Desktop.Command α} (hm : Calming m)
    (h : custody K tr = .away) : Obeys (custodyRules K S founds) tr m fun _ _ => True :=
  (serves_calm_away hm h).weaken (fun _ _ _ _ => trivial) fun _ _ _ _ => trivial

theorem obeys_commandCustody (c : UiCommand) (hc : ∀ label, c ≠ .addUserAccount label)
    (h : custody K tr = .away) :
    Obeys (custodyRules K S (Task.founds (.command c))) tr (c.run K S) fun _ _ => True := by
  cases c with
  | generate wordCount => exact obeys_calmCommand (idle_generate _).calm h
  | importMnemonic phrase => exact obeys_calmCommand (idle_importMnemonic ..).calm h
  | finalizeSetup passphrase => exact obeys_finalizeSetup h
  | unlock passphrase => exact obeys_unlock h
  | archiveUnsupportedVault => exact obeys_archiveUnsupportedVault h
  | lock => exact obeys_uiLock h
  | setNetwork network => exact obeys_calmCommand (idle_setNetwork ..).calm h
  | revealSeed passphrase => exact obeys_calmCommand (idle_revealSeed _).calm h
  | addUserAccount label => exact absurd rfl (hc label)
  | deployAccount text => exact obeys_deployAccount h
  | strk20Balances text tokens => exact obeys_calmCommand (.mapErr (calm_balances ..)) h
  | strk20Register text => exact obeys_calmCommand (calm_strk20Run (calm_register ..)) h
  | strk20Invoke text actions =>
      exact obeys_calmCommand (calm_strk20Run (calm_invokeTransaction ..)) h
  | strk20Prepare text actions =>
      exact obeys_calmCommand (calm_strk20Run (calm_prepareInvoke ..)) h
  | grantPermission clientId days =>
      exact obeys_calmCommand (.bind (calm_act rfl) fun _ => .bind (calm_act rfl) fun _ =>
        (idle_knownClient _).calm) h
  | revokePermission clientId =>
      exact obeys_calmCommand (.bind (calm_act rfl) fun _ => (idle_knownClient _).calm) h
  | revoke clientId =>
      exact obeys_calmCommand (.bind (calm_act rfl) fun _ => (idle_knownClient _).calm) h
  | setSettings s => exact obeys_calmCommand (idle_setSettings _).calm h
  | autoLockTick => exact obeys_autoLock h

/-- The methods that answer with an account of their own making. -/
def MadeAccount (K : Crates) (m : Option Method) (tr : Trace) (r : Except WalletRpcError Json) : Prop :=
  m = some .createAgentAccount → ∀ v, r = .ok v → AnswersSaved K tr v

theorem madeAccount_of_ne {m : Option Method} {r : Except WalletRpcError Json}
    (h : m ≠ some .createAgentAccount) : MadeAccount K m tr r := fun hm => absurd hm h

theorem madeAccount_error (m : Option Method) (tr : Trace) (e : WalletRpcError) :
    MadeAccount K m tr (.error e) := by
  intro _ v hv
  cases hv

theorem obeys_serveCustody (hS : S.hasVaultStore = true) {client : PairedClient}
    {req : Request} (m : Option Method) (h : custody K tr = .away) :
    Serves (custodyRules K S false) tr (serve K S client req m)
      (fun tr' v => custody K tr' = .away ∧ MadeAccount K m tr' (.ok v))
      fun tr' _ => custody K tr' = .away := by
  by_cases hm : m = some .createAgentAccount
  · subst hm
    refine (serves_handleCreateAgentAccount hS h).weaken (fun tr' v _ hv => ⟨hv.1, ?_⟩)
      fun _ _ _ h => h
    intro _ v' hv'
    cases hv'
    exact hv.2
  · exact (serves_calm (calm_serve _ _ client req hm) (.inl rfl) h).weaken
      (fun _ _ _ h => ⟨h, fun hm' => absurd hm' hm⟩) fun _ _ _ h => h

theorem safe_verifyTokenCustody {token : Option String} (h : custody K tr = .away) :
    Safe (custodyRules K S founds) tr (verifyToken token) fun tr' _ => custody K tr' = .away := by
  cases token with
  | none => exact h
  | some token => exact ⟨trivial, fun r _ => custody_act _ r (.inl rfl) h rfl⟩

theorem safe_handleCustody (hS : S.hasVaultStore = true) {token : Option String}
    {req : Request} (h : custody K tr = .away) :
    Safe (custodyRules K S false) tr (handle K S token req) fun tr' r => custody K tr' = .away ∧
      MadeAccount K (Method.ofString req.method) tr' r.result := by
  unfold handle
  generalize Method.ofString req.method = m
  split
  · exact ⟨h, madeAccount_of_ne (by decide)⟩
  · exact ⟨h, madeAccount_of_ne (by decide)⟩
  · exact Safe.bind (safe_verifyTokenCustody h) fun _ _ _ h' => ⟨h', madeAccount_of_ne (by decide)⟩
  · refine Safe.bind (Q := fun tr' _ => custody K tr' = .away)
      (Safe.bind (safe_verifyTokenCustody h) ?_) ?_
    · intro tr' client _ h'
      cases client with
      | none => exact h'
      | some c => exact ⟨trivial, fun _ _ => custody_act _ _ (.inl rfl) h' rfl⟩
    · exact fun _ _ _ h' => ⟨trivial, fun _ _ =>
        ⟨custody_act _ _ (.inl rfl) h' rfl, madeAccount_of_ne (by decide)⟩⟩
  · refine Safe.bind (serves_calm (idle_handlePairing _).calm (.inl rfl) h) fun tr' r _ hr => ?_
    refine ⟨?_, madeAccount_of_ne (by decide)⟩
    cases r with
    | ok v => exact hr
    | error e => exact hr
  · refine Safe.bind (safe_verifyTokenCustody h) fun tr' client _ h' => ?_
    cases client with
    | none => exact ⟨h', madeAccount_error _ _ _⟩
    | some client =>
        change Safe _ tr' (handlePaired K S client req m) _
        unfold handlePaired
        split
        · exact ⟨h', madeAccount_error _ _ _⟩
        · refine Safe.bind (obeys_serveCustody hS m h') fun tr'' r _ hr => ?_
          cases r with
          | ok v => exact hr
          | error e => exact ⟨hr, madeAccount_error _ _ _⟩

/-- How a task ends: an account that it answers with was saved. -/
def RepliesSaved (K : Crates) : Task → Trace → Reply → Prop
  | .request _ req, tr, .response r =>
      Method.ofString req.method = some .createAgentAccount → ∀ v, r.outcome = .ok v →
        AnswersSaved K tr v
  | .command (.addUserAccount _), tr, .window r => ∀ v, r = .ok v → AnswersSaved K tr v
  | _, _, _ => True

theorem safe_dispatchCustody (hS : S.hasVaultStore = true) {token : Option String}
    {req : Request} (h : custody K tr = .away) :
    Safe (custodyRules K S false) tr (dispatch K S token req) fun tr r =>
      Method.ofString req.method = some .createAgentAccount → ∀ v, r.outcome = .ok v →
        AnswersSaved K tr v := by
  refine ⟨trivial, fun a _ => Safe.bind (p := handle K S token req) (safe_handleCustody hS
    (custody_act .touchActivity a (.inl rfl) h rfl)) fun tr h _ hh => ?_⟩
  refine ⟨trivial, fun s _ => ⟨trivial, fun now _ => ⟨trivial, fun latency _ => ⟨trivial,
    fun _ _ => ?_⟩⟩⟩⟩
  cases hr : h.result with
  | ok v =>
      intro hm v' hv'
      cases hv'
      exact (hh.2 hm v hr).mono (by simp only [List.append_assoc, List.prefix_append])
  | error e => exact fun _ v hv => nomatch hv

theorem safe_startCustody (hS : S.hasVaultStore = true) (task : Task) :
    Safe (custodyRules K S (Task.founds task)) [] ((service K S).start task) (RepliesSaved K task) := by
  cases task with
  | request token req => exact Safe.bind (safe_dispatchCustody hS rfl) fun _ _ _ h => h
  | command c =>
      by_cases hc : ∃ label, c = .addUserAccount label
      · obtain ⟨label, rfl⟩ := hc
        refine Safe.bind (p := (Desktop.addUserAccount K label).run)
          (serves_addUserAccount rfl) fun tr r _ hr v hv => ?_
        cases hv
        exact hr.2
      · refine Safe.bind (p := (c.run K S).run) (obeys_commandCustody c
          (fun label hl => hc ⟨label, hl⟩) rfl) fun _ _ _ _ => ?_
        cases c <;> first | trivial | exact absurd ⟨_, rfl⟩ hc
  | proving task =>
      refine Safe.bind (p := proveInBackground task) (Q := fun _ _ => True) ?_
        fun _ _ _ _ => trivial
      refine ⟨trivial, fun _ _ => ⟨trivial, fun _ _ => ⟨trivial, fun res _ => ⟨trivial,
        fun _ _ => ?_⟩⟩⟩⟩
      cases res with
      | ok proof => exact ⟨trivial, fun _ _ => ⟨trivial, fun _ _ => trivial⟩⟩
      | error e => exact ⟨trivial, fun _ _ => ⟨trivial, fun _ _ => trivial⟩⟩

end

end Strkd.Service
