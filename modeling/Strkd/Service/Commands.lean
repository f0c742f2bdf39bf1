import Strkd.Service.Conduct
import Strkd.Service.World

/-!
# What a desktop command may do

The rule book of the desktop commands: what they write to the vault file and install as the
session, and under which lock.  Every command keeps it.
-/

namespace Strkd.Service

open Wallet Prover Rpc Desktop

/-- The session `n` was made of the staged mnemonic and sealed to `vault` just now. -/
def Staged (K : Crates) (S : Setup) (tr : Trace) (vault : EncryptedVault) (n : WalletSession) : Prop :=
  ∃ tr' m passphrase draws, tr = tr' ++ [⟨.takeMnemonic, some m⟩, ⟨.entropy, draws⟩] ∧
    n = WalletSession.newUnlocked S.desktopChain m passphrase .empty ∧
    n.reseal K draws = .ok vault

/-- The vault to write is the session's, under its lock, or that of a new session. -/
def MaySave (K : Crates) (S : Setup) (tr : Trace) (vault : EncryptedVault) : Prop :=
  holds tr = true ∧ Resealed K tr vault ∨ ∃ n, Staged K S tr vault n

/-! ## Guesses at the passphrase -/

/-- What an operation is to the delay after wrong passphrases: a right guess, a wrong one, or none. -/
def guessOf : (op : Op) → Ans op → Option Bool
  | .unlockSession _ _, .ok _ => some true
  | .unlockSession _ _, .error (.unsupportedVaultVersion _) => none
  | .unlockSession _ _, .error _ => some false
  | .reveal _ _, .ok _ => some true
  | .reveal _ _, .error .locked => none
  | .reveal _ _, .error _ => some false
  | _, _ => none

/-- Where a command stands between the check of the delay and the record of its guess. -/
inductive Stage where
  | idle
  | checked
  | missed
  | hit
  deriving DecidableEq

def Stage.ofGuess : Option Bool → Stage
  | some true => .hit
  | some false => .missed
  | none => .idle

def stageAfter (stage : Stage) (e : Event Op Ans) : Stage :=
  match e with
  | ⟨.backoffCheck _, none⟩ => .checked
  | ⟨.loadVault, .ok (some _)⟩ => stage
  | ⟨.loadVault, _⟩ => if stage = .checked then .idle else stage
  | ⟨.unlockSession vault passphrase, a⟩ => .ofGuess (guessOf (.unlockSession vault passphrase) a)
  | ⟨.reveal vault passphrase, a⟩ => .ofGuess (guessOf (.reveal vault passphrase) a)
  | ⟨.backoffFailure _, _⟩ | ⟨.backoffSuccess, _⟩ => .idle
  | _ => stage

def stage (tr : Trace) : Stage := tr.foldl stageAfter .idle

theorem stage_append (tr : Trace) (e : Event Op Ans) :
    stage (tr ++ [e]) = stageAfter (stage tr) e := by
  unfold stage
  rw [List.foldl_append]
  rfl

/-! ## The rule book -/

/-- What a desktop command may do after `tr`. -/
def CommandPermitted (K : Crates) (S : Setup) (tr : Trace) : Op → Prop
  | .clock (.gate _ _) | .requestApproval _ | .pair _ _ | .reattach _ _ | .addWatchedAsset _
  | .createAgentAccount _ _ => False
  | .acquireSession => holds tr = false
  | .releaseSession => holds tr = true
  | .createUserAccount _ => holds tr = true
  | .rollbackAccount address =>
      holds tr = true ∧ ∃ label a, (⟨.createUserAccount label, .ok a⟩ : Event Op Ans) ∈ tr ∧
        address = a.address
  | .unlockSession vault _ => stage tr = .checked ∧ holds tr = true ∧
      (⟨.loadVault, .ok (some vault)⟩ : Event Op Ans) ∈ tr
  | .reveal vault _ =>
      stage tr = .checked ∧ (⟨.loadVault, .ok (some vault)⟩ : Event Op Ans) ∈ tr
  | .backoffCheck now => stage tr = .idle ∧ ∃ tr', tr = tr' ++ [⟨.instant, now⟩]
  | .backoffFailure now => ∃ tr', tr = tr' ++ [⟨.instant, now⟩] ∧ stage tr' = .missed
  | .backoffSuccess => stage tr = .hit
  | .writeTmp vault => MaySave K S tr vault
  | .renameTmp => ∃ tr' vault, tr = tr' ++ [⟨.writeTmp vault, .ok ()⟩] ∧ MaySave K S tr' vault
  | .installSession n => ∃ tr' vault,
      tr = tr' ++ [⟨.writeTmp vault, .ok ()⟩] ++ [⟨.renameTmp, .ok ()⟩] ∧ Staged K S tr' vault n
  | .renameToBackup name => ∃ tr' vault stamp,
      tr = tr' ++ [⟨.loadVault, .ok (some vault)⟩, ⟨.clock .archive, stamp⟩] ∧
        vault.isSupportedVersion = false ∧ name = backupName vault.version stamp
  | _ => True

def commandRules (K : Crates) (S : Setup) : Rules Op Ans where
  allows := CommandPermitted K S
  legal _ _ _ := True

variable {K : Crates} {S : Setup} {tr : Trace} {ε α β : Type}

theorem commandRules_quiet : AllowsQuiet (commandRules K S) := by
  intro tr op h
  cases op with
  | clock use => cases use <;> trivial
  | _ => trivial

/-! ## Tame computations -/

/-- The operations a command may perform at any time. -/
def tame : Op → Bool
  | .signTypedData _ _ | .signInvoke _ _ _ _ | .signDeclare _ _ _ _ _ | .signDeployAccount _ _ _
  | .signHash _ _ | .viewingKey _ _ _ | .setChain _ | .grant _ _ | .revokeGrant _ | .revoke _
  | .lockSession | .stageMnemonic _ | .takeMnemonic | .loadVault | .randomMnemonic _ | .createSettings
  | .writeSettings _ | .protectSettings => true
  | op => quiet op

abbrev Tame (m : Handler ε Op Ans α) : Prop := Confined (fun op => tame op = true) m

theorem tame_act {op : Op} (h : tame op = true) :
    Tame (ExceptT.lift (Prog.perform op) : Handler ε Op Ans (Ans op)) :=
  ⟨h, fun _ => trivial⟩

theorem tame_of_quiet {m : Handler ε Op Ans α} (h : Quiet m) : Tame m := by
  refine Only.mono h fun op hop => ?_
  cases op <;> first | exact hop | rfl

theorem Obeys.orMessage {R : Rules Op Ans} {Q : Trace → β → Prop} {r : Except WalletRpcError α}
    {f : α → Command β} (hf : ∀ a, r = .ok a → Obeys R tr (f a) Q) :
    Obeys R tr (Desktop.orMessage (Rpc.propagate r) >>= f) Q := by
  cases r with
  | ok a => exact hf a rfl
  | error e => exact serves_throw trivial

theorem permitted_of_tame {op : Op} (h : tame op = true) : CommandPermitted K S tr op := by
  cases op with
  | clock use => cases use <;> trivial
  | _ => trivial

theorem still_of_tame {op : Op} (h : tame op = true) : still op = true := by
  cases op <;> trivial

/-- A property of traces that tame operations keep. -/
def Kept (P : Trace → Prop) : Prop :=
  ∀ tr (e : Event Op Ans), tame e.1 = true → P tr → P (tr ++ [e])

theorem Steady.toKept {P : Trace → Prop} (h : Steady P) : Kept P :=
  fun tr e he hP => h tr e (still_of_tame he) hP

theorem kept_idle : Kept fun tr => stage tr = .idle := by
  intro tr e he h
  rw [stage_append, h]
  obtain ⟨op, a⟩ := e
  cases op <;> first | rfl | cases he
  rcases a with _ | _ | _ <;> rfl

theorem serves_tame {m : Handler ε Op Ans α} (hm : Tame m) {P : Trace → Prop} (hP : Kept P)
    (h0 : P tr) : Serves (commandRules K S) tr m (fun tr' _ => P tr') fun tr' _ => P tr' :=
  Confined.serves (I := P) hm (fun _ _ _ => permitted_of_tame)
    (fun tr op a hI h => hP tr ⟨op, a⟩ h hI) h0

/-- First a tame computation, then the rest. -/
theorem Obeys.tame {m : Handler ε Op Ans α} {f : α → Handler ε Op Ans β} {Q : Trace → β → Prop}
    (hm : Tame m) {P : Trace → Prop} (hP : Kept P) (h0 : P tr)
    (hf : ∀ tr' a, tr <+: tr' → P tr' → Obeys (commandRules K S) tr' (f a) Q) :
    Obeys (commandRules K S) tr (m >>= f) Q :=
  Serves.bind ((serves_tame hm hP h0).weaken (fun _ _ _ h => h) fun _ _ _ _ => trivial) hf

theorem obeys_tame {m : Handler ε Op Ans α} (hm : Tame m) :
    Obeys (commandRules K S) tr m fun _ _ => True :=
  (Confined.serves (R := commandRules K S) (I := fun _ => True) hm (fun _ _ _ => permitted_of_tame)
    (fun _ _ _ _ _ => trivial) trivial).weaken (fun _ _ _ _ => trivial) fun _ _ _ _ => trivial

/-! ## Commands that are tame -/

theorem tame_logUiAction (method network outcome : String) (errorCode : Option ℤ)
    (resultJson : Option String) : Tame (logUiAction method network outcome errorCode resultJson) :=
  .bind (tame_act rfl) fun _ => .bind (tame_act rfl) fun _ => .pure _

theorem tame_failUi (method network : String) (code : ℤ) (message : String) :
    Tame (failUi method network code message : Command α) :=
  .bind (tame_logUiAction ..) fun _ => .throw _

theorem tame_generate (wordCount : ℕ) : Tame (generate wordCount) := by
  refine .bind (tame_act rfl) fun m => ?_
  split
  · exact .bind (tame_act rfl) fun _ => .pure _
  · exact .throw _

theorem tame_importMnemonic (phrase : String) : Tame (importMnemonic K phrase) := by
  unfold importMnemonic
  have hrest : Tame (do
      act (.stageMnemonic phrase)
      return Json.null) := .bind (tame_act rfl) fun _ => .pure _
  dsimp only
  split
  · exact .bind (.throw _) fun _ => hrest
  · exact hrest

theorem tame_lock : Tame Desktop.lock := .bind (tame_act rfl) fun _ => .pure _

theorem tame_setNetwork (network : String) : Tame (setNetwork K network) := by
  unfold setNetwork
  dsimp only
  split
  · exact .bind (tame_act rfl) fun _ => .pure _
  · split
    · exact .bind (tame_act rfl) fun _ => .pure _
    · exact .bind (.throw _) fun _ => .pure _

theorem tame_grantPermission (clientId : String) (days : ℕ) :
    Tame (grantPermission clientId days) := by
  refine .bind (tame_act rfl) fun now => .bind (tame_act rfl) fun found => ?_
  unfold knownClient
  split
  · exact .pure _
  · exact .throw _

theorem tame_revokePermission (clientId : String) : Tame (revokePermission clientId) := by
  refine .bind (tame_act rfl) fun found => ?_
  unfold knownClient
  split
  · exact .pure _
  · exact .throw _

theorem tame_revoke (clientId : String) : Tame (revoke clientId) := by
  refine .bind (tame_act rfl) fun found => ?_
  unfold knownClient
  split
  · exact .pure _
  · exact .throw _

theorem tame_setSettings (s : Settings) : Tame (setSettings s) := by
  have hsave : Tame (saveSettings s) := .bind (tame_act rfl) fun created =>
    .bind (.lift created) fun _ => .bind (tame_act rfl) fun written =>
    .bind (.lift written) fun _ => .bind (tame_act rfl) fun guarded => .lift guarded
  exact .bind (.lift s.validate) fun _ => .bind hsave fun _ => .pure _

theorem tame_autoLockTick : Tame autoLockTick := by
  refine .bind (tame_act rfl) fun mins => ?_
  dsimp only
  split
  · refine .bind (tame_act rfl) fun now => .bind (tame_act rfl) fun last => ?_
    split
    · exact .bind (tame_act rfl) fun _ => .pure _
    · exact .pure _
  · exact .pure _

/-! ## The STRK20 panel -/

section Batches

open Rpc.Strk20

theorem tame_propagate (r : Except ε α) : Tame (propagate r) := trivial

theorem tame_ctx (params : Json) : Tame (ctx K S .desktop params) := by
  refine .bind (tame_of_quiet (quiet_resolveChain ..)) fun chain => ?_
  refine .bind (confined_callerAccount K (by rfl) _ params) fun account => .bind (.lift _) fun user =>
    .bind (tame_of_quiet (quiet_requireNode _)) fun _ => ?_
  dsimp only
  split
  · exact .bind (tame_act rfl) fun _ => .bind (.lift _) fun _ => .pure _
  · exact .bind (.pure _) fun _ => .bind (.lift _) fun _ => .pure _

theorem tame_viewingKey (x : Ctx) : Tame x.viewingKey :=
  .bind (tame_act rfl) fun _ => tame_propagate _

theorem tame_prepare {text : String} {x : Ctx} {intent : Strkd.Strk20.Intent} {proving : Proving}
    {submission : String} : Tame (prepare K S .desktop text x intent proving submission) := by
  refine .bind (.lift _) fun _ => .bind (tame_of_quiet (quiet_blockNumber ..)) fun head =>
    .bind (tame_viewingKey _) fun userSk => .bind (tame_of_quiet (quiet_freshPlan ..)) fun plan =>
    .bind (.pure _) fun _ => .bind (tame_of_quiet (quiet_poolNonce ..)) fun nonce =>
    .bind (tame_act rfl) fun answer => .bind (tame_propagate _) fun signature =>
    .bind (tame_of_quiet (quiet_proveInvocation ..)) fun result => ?_
  split
  · exact .throw _
  · split
    · exact .throw _
    · exact .pure _

theorem tame_submitFromAccount {x : Ctx} {prepared : Prepared} {deposits : List (Felt × U128)} :
    Tame (submitFromAccount K x prepared deposits) :=
  .bind (tame_of_quiet (quiet_requireFreshAttestation _)) fun _ =>
    .bind (tame_of_quiet (quiet_poolFee ..)) fun _ =>
    .bind (tame_of_quiet (.mapErr (quiet_getNonce ..))) fun _ =>
    .bind (tame_of_quiet (.mapErr (quiet_estimate ..))) fun _ => .bind (tame_act rfl) fun _ =>
    .bind (tame_propagate _) fun _ => tame_of_quiet (.mapErr (quiet_addInvoke ..))

theorem tame_balances (params : Json) : Tame (balances K S .desktop params) := by
  refine .bind (.lift _) fun tokens => .bind (tame_ctx _) fun x => .bind (.pure _) fun _ =>
    .bind (tame_viewingKey _) fun userSk => tame_of_quiet ?_
  refine .bind (.mapErr (confined_registeredKey K (quiet_reader ..) _)) fun key => ?_
  have hrest : Quiet (do
      let notes ← fromPool (Strkd.Strk20.discoverNotes K (x.latest K) x.user userSk tokens)
      return Json.arr (tokens.map fun t => .obj [("token", .str (feltHex t)),
        ("balance", .str ("0x" ++ hexText (balanceOf notes t).toNat))]) : Serve Json) :=
    .bind (.mapErr (confined_discoverNotes K (quiet_reader ..) ..)) fun _ => .pure _
  dsimp only
  split
  · exact .bind (.throw _) fun _ => hrest
  · exact hrest

theorem tame_register (params : Json) : Tame (register K S .desktop params) := by
  refine .bind (tame_ctx _) fun x =>
    .bind (tame_of_quiet (.mapErr (confined_registeredKey K (quiet_reader ..) _))) fun key => ?_
  have hrest : Tame (do
      let prepared ← prepare K S .desktop "companion_strk20Register" x { register := true } .local
        "submitted from this account"
      let hash ← submitFromAccount K x prepared []
      return Json.obj [("transaction_hash", .str (feltHex hash))] : Serve Json) :=
    .bind tame_prepare fun _ => .bind tame_submitFromAccount fun _ => .pure _
  dsimp only
  split
  · exact .bind (.throw _) fun _ => hrest
  · exact hrest

theorem tame_prepareInvoke (params : Json) : Tame (prepareInvoke K S .desktop params) :=
  .bind (.lift _) fun _ => .bind (tame_ctx _) fun _ => .bind (.lift _) fun _ =>
    .bind tame_prepare fun _ => .pure _

theorem tame_invokeDeposit {x : Ctx} {actions : List Action} {intent : Strkd.Strk20.Intent} :
    Tame (invokeDeposit K S .desktop x actions intent) := by
  have hrest : Tame (do
      let proving ← provingFor x actions
      checkPublicFunds K x intent.deposits
      let prepared ← prepare K S .desktop "wallet_strk20InvokeTransaction" x intent proving
        "submitted from this account"
      let hash ← submitFromAccount K x prepared intent.deposits
      return Json.obj [("transaction_hash", .str (feltHex hash))] : Serve Json) :=
    .bind (.lift _) fun _ => .bind (tame_of_quiet (quiet_checkPublicFunds ..)) fun _ =>
      .bind tame_prepare fun _ => .bind tame_submitFromAccount fun _ => .pure _
  unfold invokeDeposit
  dsimp only
  split
  · exact .bind (.throw _) fun _ => hrest
  · exact hrest

theorem tame_invokeRelayed {x : Ctx} {intent : Strkd.Strk20.Intent} :
    Tame (invokeRelayed K S .desktop x intent) := by
  unfold invokeRelayed
  have hrest : ∀ p : Paymaster, Tame (do
      let fee ← mapErr WalletRpcError.unknown (Paymaster.quote K p x.pool x.user)
      let prepared ← mapErr (withRelayFee fee)
        (prepare K S .desktop "wallet_strk20InvokeTransaction" x
          { intent with
            withdrawals := intent.withdrawals ++ [(fee.recipient, fee.token, fee.amount)] }
          .local ("relayed privately by the AVNU paymaster for a fee of " ++
            toString fee.amount.toNat ++ " (base units of " ++ feltHex fee.token ++ ")"))
      let hash ← mapErr WalletRpcError.unknown
        (Paymaster.execute K p prepared.call prepared.proved.proof prepared.proved.proofFacts)
      return Json.obj [("transaction_hash", .str (feltHex hash))] : Serve Json) :=
    fun p => .bind (tame_of_quiet (.mapErr (quiet_quote ..))) fun _ =>
      .bind (.mapErr tame_prepare) fun _ =>
      .bind (tame_of_quiet (.mapErr (quiet_execute ..))) fun _ => .pure _
  dsimp only
  split
  · exact .bind (.throw _) fun _ => hrest _
  · exact hrest _

theorem tame_invokeTransaction (params : Json) :
    Tame (invokeTransaction K S .desktop params) := by
  refine .bind (.lift _) fun actions => .bind (tame_ctx _) fun x => ?_
  split
  · exact tame_invokeDeposit
  · exact tame_invokeRelayed

theorem tame_strk20Run {m : Serve Json} (hm : Tame m) (uiMethod : String) :
    Tame (strk20Run uiMethod m) := by
  refine .bind (.attempt hm) fun result => .bind (tame_act rfl) fun s => ?_
  split
  · exact .bind (tame_logUiAction ..) fun _ => .pure _
  · exact .bind (tame_logUiAction ..) fun _ => .throw _

end Batches

/-! ## Commands that hold a lock or write the vault -/

theorem append_pair (tr : Trace) (e e' : Event Op Ans) : tr ++ [e] ++ [e'] = tr ++ [e, e'] :=
  List.append_assoc tr [e] [e']

theorem done_finalizeSetup (passphrase : String) :
    Obeys (commandRules K S) tr (finalizeSetup K S passphrase) fun _ _ => True := by
  refine Obeys.act trivial fun staged => ?_
  cases staged with
  | none => exact serves_throw trivial
  | some m =>
      refine Obeys.act trivial fun draws => ?_
      cases hv : (WalletSession.newUnlocked S.desktopChain m passphrase .empty).reseal K draws with
      | error err => exact serves_throw trivial
      | ok vault =>
          have hstaged : Staged K S (tr ++ [⟨.takeMnemonic, some m⟩] ++ [⟨.entropy, draws⟩]) vault
              (WalletSession.newUnlocked S.desktopChain m passphrase .empty) :=
            ⟨tr, m, passphrase, draws, append_pair .., rfl, hv⟩
          refine Obeys.act (Or.inr ⟨_, hstaged⟩) fun written => ?_
          cases written with
          | error err => exact serves_throw trivial
          | ok _ =>
              refine Obeys.act ⟨_, vault, rfl, Or.inr ⟨_, hstaged⟩⟩ fun renamed => ?_
              cases renamed with
              | error err => exact serves_throw trivial
              | ok _ =>
                  exact Obeys.act ⟨_, vault, rfl, hstaged⟩ fun _ => serves_pure trivial

/-- The guess counted, a command is idle again. -/
theorem done_countGuess {vault : EncryptedVault} {passphrase : String}
    {opened : Except CoreError Unit} (hh : holds tr = true) :
    Serves (commandRules K S) (tr ++ [⟨.unlockSession vault passphrase, opened⟩]) (countGuess opened)
      (fun tr' _ => holds tr' = true) fun tr' _ => holds tr' = true := by
  have hstage := stage_append tr ⟨.unlockSession vault passphrase, opened⟩
  have hheld : ∀ tr, holds tr = true → ∀ e : Event Op Ans, still e.1 = true →
      holds (tr ++ [e]) = true := fun tr h e he => steady_holds true tr e he h
  have hh := hheld tr hh ⟨.unlockSession vault passphrase, opened⟩ rfl
  have hmissed : stage (tr ++ [⟨.unlockSession vault passphrase, opened⟩]) = .missed →
      Serves (commandRules K S) (tr ++ [⟨.unlockSession vault passphrase, opened⟩])
        (do
          let now ← act .instant
          act (.backoffFailure now) : Command Unit)
        (fun tr' _ => holds tr' = true) fun tr' _ => holds tr' = true := by
    intro hm
    refine Serves.act trivial fun now _ => ?_
    exact ⟨⟨_, rfl, hm⟩, fun _ _ => hheld _ (hheld _ hh _ rfl) _ rfl⟩
  cases opened with
  | ok _ => exact ⟨hstage, fun _ _ => hheld _ hh _ rfl⟩
  | error e =>
      cases e with
      | unsupportedVaultVersion _ => exact hh
      | _ => exact hmissed hstage

theorem done_unlock (passphrase : String) (hh : holds tr = false) (hs : stage tr = .idle) :
    Obeys (commandRules K S) tr (Desktop.unlock passphrase) fun _ _ => True := by
  refine Obeys.act trivial fun now => ?_
  have hh₁ := steady_holds false tr ⟨.instant, now⟩ rfl hh
  have hs₁ := kept_idle tr ⟨.instant, now⟩ rfl hs
  refine Obeys.act ⟨hs₁, tr, rfl⟩ fun wait => ?_
  cases wait with
  | some wait => exact serves_throw trivial
  | none =>
      have hh₂ := steady_holds false _ ⟨.backoffCheck now, none⟩ rfl hh₁
      have hs₂ := stage_append (tr ++ [⟨.instant, now⟩]) ⟨.backoffCheck now, none⟩
      refine Serves.bind (Q := fun tr' vault => holds tr' = false ∧ stage tr' = .checked ∧
        (⟨.loadVault, .ok (some vault)⟩ : Event Op Ans) ∈ tr') ?_ fun tr₃ vault _ h => ?_
      · refine Obeys.act trivial fun loaded => ?_
        have hh₃ := steady_holds false _ ⟨.loadVault, loaded⟩ rfl hh₂
        rcases loaded with e | _ | vault
        · exact serves_throw trivial
        · exact serves_throw trivial
        · refine serves_pure ⟨hh₃, ?_, List.mem_append_right _ List.mem_cons_self⟩
          rw [stage_append, hs₂]
          rfl
      · obtain ⟨hh₃, hs₃, hv⟩ := h
        refine Serves.bind (Q := fun _ _ => True) ?_ fun _ _ _ _ =>
          Obeys.act trivial fun _ => serves_pure trivial
        refine (serves_holdingSession hh₃ (fun _ => id) ?_).weaken (fun _ _ _ _ => trivial)
          fun _ _ _ _ => trivial
        have hh₄ : holds (tr₃ ++ [⟨.acquireSession, ()⟩]) = true := holds_append _ _
        have hs₄ : stage (tr₃ ++ [⟨.acquireSession, ()⟩]) = .checked := by
          rw [stage_append, hs₃]
          rfl
        refine Serves.act ⟨hs₄, hh₄, List.mem_append_left _ hv⟩ fun opened _ =>
          Serves.bind (done_countGuess hh₄) fun tr₅ _ _ hh₅ => ?_
        cases opened with
        | ok _ => exact hh₅
        | error e => exact hh₅

theorem done_archiveUnsupportedVault :
    Obeys (commandRules K S) tr (archiveUnsupportedVault S) fun _ _ => True := by
  refine Serves.bind (Q := fun tr' vault => ∃ tr₀, tr' = tr₀ ++ [⟨.loadVault, .ok (some vault)⟩]) ?_
    fun tr' vault _ h => ?_
  · refine Obeys.act trivial fun loaded => ?_
    rcases loaded with e | _ | vault
    · exact serves_throw trivial
    · exact serves_throw trivial
    · exact serves_pure ⟨tr, rfl⟩
  · obtain ⟨tr₀, rfl⟩ := h
    refine Obeys.refuse fun hsupported => Obeys.act trivial fun stamp => Obeys.act ?_ fun renamed => ?_
    · exact ⟨tr₀, vault, stamp, append_pair .., by simpa using hsupported, rfl⟩
    · exact obeys_tame (.bind (tame_propagate _) fun _ => .bind (tame_logUiAction ..) fun _ =>
        .pure _)

/-- A failed action does not go on. -/
theorem obeys_failUi (method network : String) (code : ℤ) (message : String) :
    Obeys (commandRules K S) tr (failUi method network code message : Command α) fun _ _ => False :=
  Obeys.tame (tame_logUiAction ..) (P := fun _ => True) (fun _ _ _ _ => trivial) trivial
    fun _ _ _ _ => serves_throw trivial

theorem done_revealSeed (passphrase : String) (hs : stage tr = .idle) :
    Obeys (commandRules K S) tr (revealSeed passphrase) fun _ _ => True := by
  refine Obeys.act trivial fun s => Obeys.act trivial fun now => ?_
  have hs₁ := kept_idle _ ⟨.instant, now⟩ rfl (kept_idle tr ⟨.session, s⟩ rfl hs)
  refine Obeys.act ⟨hs₁, _, rfl⟩ fun wait => ?_
  cases wait with
  | some wait => exact obeys_tame (tame_failUi ..)
  | none =>
      have hs₂ := stage_append (tr ++ [⟨.session, s⟩] ++ [⟨.instant, now⟩]) ⟨.backoffCheck now, none⟩
      refine Obeys.act trivial fun loaded => ?_
      rcases loaded with e | _ | vault
      · exact Serves.bind (obeys_failUi ..) fun _ _ _ h => h.elim
      · exact Serves.bind (obeys_failUi ..) fun _ _ _ h => h.elim
      · have hs₃ := (stage_append _ ⟨.loadVault, .ok (some vault)⟩).trans hs₂
        refine Obeys.act ⟨hs₃, List.mem_append_right _ List.mem_cons_self⟩ fun revealed => ?_
        have hs₄ := stage_append (tr ++ [⟨.session, s⟩] ++ [⟨.instant, now⟩] ++
          [⟨.backoffCheck now, none⟩] ++ [⟨.loadVault, .ok (some vault)⟩])
          ⟨.reveal vault passphrase, revealed⟩
        cases revealed with
        | ok phrase =>
            refine Obeys.act hs₄ fun _ => ?_
            exact obeys_tame (.bind (tame_logUiAction ..) fun _ => .pure _)
        | error e =>
            cases e with
            | locked => exact obeys_tame (tame_failUi ..)
            | _ =>
                refine Obeys.act trivial fun now => Obeys.act ⟨_, rfl, hs₄⟩ fun _ => ?_
                exact obeys_tame (tame_failUi ..)

/-- A tame computation under the session lock. -/
theorem done_holdingSession {body : Command α} (hbody : Tame body) (hh : holds tr = false) :
    Obeys (commandRules K S) tr (holdingSession body) fun _ _ => True :=
  (serves_holdingSession (R := commandRules K S) hh (fun _ h => h)
    (serves_tame hbody (steady_holds true).toKept (holds_append tr _))).weaken
    (fun _ _ _ _ => trivial) fun _ _ _ _ => trivial

theorem tame_fromNode {network : String} {m : Handler NodeError Op Ans α} (hm : Quiet m) :
    Tame (fromNode network m) := by
  refine .bind (.attempt (tame_of_quiet hm)) fun r => ?_
  split
  · exact .pure _
  · exact tame_failUi ..

theorem tame_orMessage {m : Serve α} (hm : Tame m) : Tame (orMessage m) := .mapErr hm

theorem done_deployAccount (address : String) (hh : holds tr = false) :
    Obeys (commandRules K S) tr (Desktop.deployAccount K address) fun _ _ => True := by
  unfold Desktop.deployAccount
  split
  · refine done_holdingSession ?_ hh
    refine .bind (tame_act rfl) fun s => .bind (tame_act rfl) fun configured =>
      .exit (.throw _) fun _ => .bind (tame_orMessage (tame_propagate _)) fun reg => ?_
    split
    · split
      · refine .bind (tame_fromNode (quiet_isDeployed ..)) fun deployed =>
          .exit (tame_failUi ..) fun _ => .bind (tame_orMessage (tame_propagate _)) fun d =>
          .bind (tame_fromNode (quiet_estimate ..)) fun bounds => .bind (tame_act rfl)
          fun answer => .bind (tame_orMessage (tame_propagate _)) fun signed =>
          .bind (tame_fromNode (quiet_addDeployAccount ..)) fun hash =>
          .bind (tame_logUiAction ..) fun _ => .pure _
      · exact .throw _
    · exact .throw _
  · exact serves_throw trivial

theorem serves_saveSession (hh : holds tr = true) :
    Serves (commandRules K S) tr (saveSession K) (fun tr' _ => holds tr' = true)
      fun tr' _ => holds tr' = true := by
  refine Serves.bind (Q := fun tr' vault => Resealed K tr' vault ∧ holds tr' = true)
    (Serves.mapErr (serves_resealSession commandRules_quiet (steady_holds true) hh))
    fun tr' vault _ h => ?_
  have hsave : MaySave K S tr' vault := Or.inl ⟨h.2, h.1⟩
  have hrename : CommandPermitted K S (tr' ++ [⟨.writeTmp vault, .ok ()⟩]) .renameTmp :=
    ⟨tr', vault, rfl, hsave⟩
  exact (serves_saveVault (R := commandRules K S) hsave hrename (steady_holds true) h.2).weaken
    (fun _ _ _ h => h.2) fun _ _ _ h => h

theorem done_addUserAccount (label : String) (hh : holds tr = false) :
    Obeys (commandRules K S) tr (addUserAccount K label) fun _ _ => True := by
  refine (serves_holdingSession (R := commandRules K S) hh (fun _ h => h) ?_).weaken
    (fun _ _ _ _ => trivial) fun _ _ _ _ => trivial
  have htame : ∀ {tr} {α : Type} {m : Command α}, Tame m → holds tr = true →
      Serves (commandRules K S) tr m (fun tr' _ => holds tr' = true) fun tr' _ => holds tr' = true :=
    fun hm h => serves_tame hm (steady_holds true).toKept h
  refine Serves.act trivial fun s _ => ?_
  have hh₁ := steady_holds true _ ⟨.session, s⟩ rfl (holds_append tr ⟨.acquireSession, ()⟩)
  refine Serves.act hh₁ fun created _ => ?_
  have hh₂ := steady_holds true _ ⟨.createUserAccount label, created⟩ rfl hh₁
  cases created with
  | error e => exact htame (tame_failUi ..) hh₂
  | ok account =>
      refine Serves.attempt (serves_saveSession hh₂) fun tr₃ r htr hr => ?_
      cases r with
      | ok _ => exact htame (.bind (tame_logUiAction ..) fun _ => .pure _) hr
      | error e =>
          have hcreated : (⟨.createUserAccount label, .ok account⟩ : Event Op Ans) ∈ tr₃ :=
            htr.subset (List.mem_append_right _ List.mem_cons_self)
          exact Serves.act ⟨hr, label, account, hcreated, rfl⟩ fun _ _ =>
            htame (tame_failUi ..) (steady_holds true _ _ rfl hr)

/-- Every command of the window keeps the rules. -/
theorem done_run (c : UiCommand) (hh : holds tr = false) (hs : stage tr = .idle) :
    Obeys (commandRules K S) tr (c.run K S) fun _ _ => True := by
  cases c with
  | generate n => exact obeys_tame (tame_generate n)
  | importMnemonic phrase => exact obeys_tame (tame_importMnemonic phrase)
  | finalizeSetup passphrase => exact done_finalizeSetup passphrase
  | unlock passphrase => exact done_unlock passphrase hh hs
  | archiveUnsupportedVault => exact done_archiveUnsupportedVault
  | lock => exact obeys_tame tame_lock
  | setNetwork network => exact obeys_tame (tame_setNetwork network)
  | revealSeed passphrase => exact done_revealSeed passphrase hs
  | addUserAccount label => exact done_addUserAccount label hh
  | deployAccount address => exact done_deployAccount address hh
  | strk20Balances address tokens => exact obeys_tame (.mapErr (tame_balances _))
  | strk20Register address => exact obeys_tame (tame_strk20Run (tame_register _) _)
  | strk20Invoke address actions => exact obeys_tame (tame_strk20Run (tame_invokeTransaction _) _)
  | strk20Prepare address actions => exact obeys_tame (tame_strk20Run (tame_prepareInvoke _) _)
  | grantPermission id days => exact obeys_tame (tame_grantPermission id days)
  | revokePermission id => exact obeys_tame (tame_revokePermission id)
  | revoke id => exact obeys_tame (tame_revoke id)
  | setSettings s => exact obeys_tame (tame_setSettings s)
  | autoLockTick => exact obeys_tame tame_autoLockTick

end Strkd.Service
