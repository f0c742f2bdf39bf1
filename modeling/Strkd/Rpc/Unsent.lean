import Strkd.Desktop.Commands
import Strkd.Rpc.Outward

/-!
# Computations that hand no transaction on

Everything but the broadcasts and the prover's jobs: the approvals, the signatures, the looks at the
wallet and the chain, and every method and command that ends with them.  All but a few are calm too:
they leave the session lock and the vault files alone.
-/

namespace Strkd.Rpc

open Wallet Prover

/-- A computation that hands no transaction to a node or a prover. -/
abbrev Withholding {ε α : Type} (m : Handler ε Op Ans α) : Prop :=
  Confined (fun op => sendsOut op = false) m

/-- Operations that leave the session lock, the open session and the vault files alone. -/
def calm : Op → Bool
  | .acquireSession | .releaseSession | .createAgentAccount _ _ | .createUserAccount _
  | .rollbackAccount _ | .unlockSession _ _ | .lockSession | .installSession _ | .writeTmp _
  | .renameTmp | .renameToBackup _ => false
  | _ => true

theorem calm_of_outward {op : Op} (h : outward op = true) : calm op = true := by
  cases op <;> first | rfl | cases h

/-- Calm operations that hand no transaction on. -/
def idle (op : Op) : Bool := calm op && !sendsOut op

abbrev Idling {ε α : Type} (m : Handler ε Op Ans α) : Prop := Confined (fun op => idle op = true) m

theorem Idling.withholding {ε α : Type} {m : Handler ε Op Ans α} (h : Idling m) : Withholding m :=
  Only.mono h fun _ hop => by simpa using (Bool.and_eq_true_iff.1 hop).2

theorem Reading.idle {ε α : Type} {m : Handler ε Op Ans α} (h : Reading m) : Idling m :=
  Only.mono h fun _ hop => by
    obtain ⟨houtward, hsends⟩ := Bool.and_eq_true_iff.1 hop
    exact Bool.and_eq_true_iff.2 ⟨calm_of_outward houtward, hsends⟩

theorem Reading.withholding {ε α : Type} {m : Handler ε Op Ans α} (h : Reading m) :
    Withholding m := Idling.withholding (Reading.idle h)

theorem idle_act {ε : Type} {op : Op} (h : idle op = true) :
    Idling (ExceptT.lift (Prog.perform op) : Handler ε Op Ans (Ans op)) := confined_perform h

theorem idle_propagate {ε α : Type} (r : Except ε α) : Idling (propagate r) := trivial

theorem withholding_act {ε : Type} {op : Op} (h : sendsOut op = false) :
    Withholding (ExceptT.lift (Prog.perform op) : Handler ε Op Ans (Ans op)) :=
  confined_perform h

theorem withholding_propagate {ε α : Type} (r : Except ε α) : Withholding (propagate r) := trivial

variable (K : Crates) (S : Setup)

/-! ## Approval and accounts -/

theorem idle_gatedApproval (client : PairedClient) (method summary : String) :
    Idling (gatedApproval client method summary) := by
  refine .bind (idle_act rfl) fun now => ?_
  split
  · exact .pure _
  · exact idle_act rfl

theorem idle_readRegistry : Idling readRegistry := confined_readRegistry rfl

theorem idle_scopedAccount (client : PairedClient) (want : String) :
    Idling (scopedAccount client want) := confined_scopedAccount (by rfl) client want

theorem idle_scopedAccountOr (client : PairedClient) (param : Option String)
    (missing : WalletRpcError) : Idling (scopedAccountOr K client param missing) :=
  confined_scopedAccountOr K (by rfl) client param missing

theorem idle_resolveChain (params : Json) : Idling (resolveChain K params) :=
  confined_resolveChain K (by rfl) params

/-! ## Pairing -/

theorem idle_ownedAccounts (id : String) : Idling (ownedAccounts id) := by
  refine .bind (idle_act rfl) fun s => ?_
  split
  · exact .pure _
  · exact .pure _

theorem idle_reattachClient (name : String) (kind : ClientKind) (id : String) :
    Idling (reattachClient name kind id) := by
  refine .bind (idle_ownedAccounts _) fun accounts => .bind (idle_act rfl) fun decision =>
    .bind (.lift _) fun _ => .bind (idle_act rfl) fun answer => ?_
  split
  · exact .pure _
  · exact .bind (idle_act rfl) fun crashed => nomatch crashed

theorem idle_pairClient (name : String) (kind : ClientKind) :
    Idling (pairClient name kind) :=
  .bind (idle_act rfl) fun _ => .bind (.lift _) fun _ => .bind (idle_act rfl) fun _ =>
    .pure _

theorem idle_handlePairing (params : Json) : Idling (handlePairing params) := by
  unfold handlePairing
  dsimp only
  split
  · refine .bind (idle_act rfl) fun existing => ?_
    cases existing with
    | some id => exact idle_reattachClient ..
    | none => exact idle_pairClient ..
  · refine .bind (.pure _) fun existing => ?_
    cases existing with
    | some id => exact idle_reattachClient ..
    | none => exact idle_pairClient ..

/-! ## Methods of a paired client -/

theorem idle_handleRequestChainId : Idling handleRequestChainId :=
  .bind (idle_act rfl) fun _ => .pure _

theorem idle_handleAccounts (client : PairedClient) (detailed : Bool) :
    Idling (handleAccounts client detailed) :=
  .bind idle_readRegistry fun _ => .pure _

theorem idle_handleDeploymentData (client : PairedClient) :
    Idling (handleDeploymentData K client) := by
  refine .bind idle_readRegistry fun reg => ?_
  split
  · exact .bind (idle_act rfl) fun _ => .bind (.lift _) fun _ => .pure _
  · exact .throw _

theorem idle_handleSignTypedData (client : PairedClient) (params : Json) :
    Idling (handleSignTypedData K client params) :=
  .bind (.lift _) fun _ => .bind (.lift _) fun _ => .bind (.lift _) fun _ =>
    .bind (idle_scopedAccount ..) fun _ => .bind (idle_gatedApproval ..) fun _ =>
    .bind (.lift _) fun _ => .bind (idle_act rfl) fun _ =>
    .bind (idle_propagate _) fun _ => .pure _

theorem idle_handleFundingSource : Idling (handleFundingSource K) :=
  .bind (idle_act rfl) fun _ => .bind (.lift _) fun _ => .pure _

theorem idle_handleEstimateFee (client : PairedClient) (params : Json) :
    Idling (handleEstimateFee K client params) := by
  refine .bind (.lift _) fun accountAddress => .bind (.lift _) fun want =>
    .bind (.lift _) fun calls => .bind (idle_scopedAccount ..) fun account =>
    .bind (.lift _) fun sender => .bind (idle_resolveChain ..) fun chain =>
    .bind (reading_requireNode chain).idle fun _ => .bind (.lift _) fun given => ?_
  have hrest : ∀ nonce, Idling (do
      let bounds ← mapErr nodeError (Node.estimateInvoke chain sender (encodeCalls calls) nonce)
      return Json.obj [("nonce", .str (feltHex nonce)), ("resource_bounds", boundsJson bounds)] :
        Serve Json) :=
    fun nonce => .bind (.mapErr (reading_estimate ..).idle) fun _ => .pure _
  split
  · exact .bind (.pure _) hrest
  · exact .bind (.mapErr (reading_getNonce ..).idle) hrest

theorem idle_handleRequestGrant (client : PairedClient) (params : Json) :
    Idling (handleRequestGrant client params) :=
  .bind (idle_act rfl) fun _ => .bind (.lift _) fun _ => .bind (idle_act rfl) fun _ =>
    .bind (idle_act rfl) fun _ => .pure _

theorem idle_handleSwitchChain (client : PairedClient) (params : Json) :
    Idling (handleSwitchChain K client params) := by
  refine .bind (.lift _) fun chainId => ?_
  split
  · split
    · exact .bind (idle_act rfl) fun _ => .bind (.lift _) fun _ =>
        .bind (idle_act rfl) fun _ => .pure _
    · exact .throw _
  · exact .throw _

theorem idle_handleWatchAsset (client : PairedClient) (params : Json) :
    Idling (handleWatchAsset client params) := by
  unfold handleWatchAsset
  dsimp only
  split
  · exact .bind (idle_act rfl) fun _ => .bind (.lift _) fun _ =>
      .bind (idle_act rfl) fun _ => .pure _
  · exact .throw _

theorem idle_resealSession : Idling (resealSession K) :=
  .bind (idle_act rfl) fun _ => .bind (idle_act rfl) fun _ => idle_propagate _

theorem withholding_saveVault (vault : EncryptedVault) : Withholding (saveVault vault) :=
  .bind (withholding_act rfl) fun _ => .bind (withholding_propagate _) fun _ =>
    .bind (withholding_act rfl) fun _ => withholding_propagate _

theorem withholding_holdingSession {ε α : Type} {body : Handler ε Op Ans α}
    (h : Withholding body) : Withholding (holdingSession body) :=
  .bind (withholding_act rfl) fun _ => .bind h.attempt fun _ => .bind (withholding_act rfl) fun _ =>
    withholding_propagate _

theorem withholding_persistOrRollback (account : AccountRef) :
    Withholding (persistOrRollback K account) := by
  have hpersist : Withholding (persistVault K) :=
    .bind (idle_resealSession K).withholding fun vault => .mapErr (withholding_saveVault vault)
  refine .bind hpersist.attempt fun r => ?_
  split
  · exact .pure _
  · exact .bind (withholding_act rfl) fun _ => .throw _

theorem withholding_handleCreateAgentAccount (client : PairedClient) (params : Json) :
    Withholding (handleCreateAgentAccount K S client params) := by
  unfold handleCreateAgentAccount
  refine .exit (.throw _) fun _ => ?_
  refine .bind (idle_gatedApproval ..).withholding fun _ => .bind (.lift _) fun _ =>
    withholding_holdingSession (.bind (withholding_act rfl) fun _ =>
      .bind (withholding_propagate _) fun account => ?_)
  split
  · exact .bind (withholding_persistOrRollback K _) fun _ => .pure _
  · exact .pure _

theorem idle_handleProveStatus (params : Json) : Idling (handleProveStatus S params) :=
  (reading_handleProveStatus ..).idle

theorem idle_handleProofActivity : Idling (handleProofActivity S) :=
  (reading_handleProofActivity ..).idle

/-! ## Commands of the window -/

section Commands

open Desktop

theorem idle_logUiAction (method network outcome : String) (errorCode : Option ℤ)
    (resultJson : Option String) :
    Idling (logUiAction method network outcome errorCode resultJson) :=
  .bind (idle_act rfl) fun _ => .bind (idle_act rfl) fun _ => .pure _

theorem idle_failUi {α : Type} (method network : String) (code : ℤ) (message : String) :
    Idling (failUi method network code message : Command α) :=
  .bind (idle_logUiAction ..) fun _ => .throw _

theorem idle_fromNode {α : Type} {network : String} {m : Handler NodeError Op Ans α} (h : Idling m) :
    Idling (fromNode network m) := by
  refine .bind h.attempt fun r => ?_
  split
  · exact .pure _
  · exact idle_failUi ..

theorem idle_generate (wordCount : ℕ) : Idling (generate wordCount) := by
  refine .bind (idle_act rfl) fun m => ?_
  split
  · exact .bind (idle_act rfl) fun _ => .pure _
  · exact .throw _

theorem idle_importMnemonic (phrase : String) : Idling (importMnemonic K phrase) := by
  unfold importMnemonic
  refine .exit (.throw _) fun _ => ?_
  exact .bind (idle_act rfl) fun _ => .pure _

theorem withholding_finalizeSetup (passphrase : String) :
    Withholding (finalizeSetup K S passphrase) := by
  refine .bind (withholding_act rfl) fun staged => ?_
  split
  · exact .bind (withholding_act rfl) fun _ => .bind (.mapErr (withholding_propagate _)) fun _ =>
      .bind (withholding_saveVault _) fun _ => .bind (withholding_act rfl) fun _ => .pure _
  · exact .throw _

theorem idle_loadVault (missing : String) : Idling (loadVault missing) := by
  refine .bind (idle_act rfl) fun loaded => .bind (idle_propagate _) fun vault => ?_
  split
  · exact .pure _
  · exact .throw _

theorem idle_countGuess (opened : Except CoreError Unit) :
    Idling (countGuess opened) := by
  unfold countGuess
  split
  · exact idle_act rfl
  · exact .pure _
  · exact .bind (idle_act rfl) fun _ => idle_act rfl

theorem withholding_unlock (passphrase : String) : Withholding (Desktop.unlock passphrase) := by
  refine .bind (withholding_act rfl) fun now => .bind (withholding_act rfl) fun wait => ?_
  split
  · exact .throw _
  · refine .bind (idle_loadVault _).withholding fun vault => .bind (withholding_holdingSession ?_)
      fun _ => .bind (withholding_act rfl) fun _ => .pure _
    exact .bind (withholding_act rfl) fun _ => .bind (idle_countGuess _).withholding fun _ =>
      withholding_propagate _

theorem withholding_archiveUnsupportedVault : Withholding (archiveUnsupportedVault S) := by
  unfold archiveUnsupportedVault
  refine .bind (idle_loadVault _).withholding fun vault => ?_
  refine .exit (.throw _) fun _ => ?_
  exact .bind (withholding_act rfl) fun _ => .bind (withholding_act rfl) fun _ =>
    .bind (withholding_propagate _) fun _ => .bind (idle_logUiAction ..).withholding fun _ =>
    .pure _

theorem idle_setNetwork (network : String) : Idling (setNetwork K network) := by
  unfold setNetwork
  dsimp only
  split
  · exact .bind (idle_act rfl) fun _ => .pure _
  · split
    · exact .bind (idle_act rfl) fun _ => .pure _
    · exact .bind (.throw _) fun _ => .pure _

theorem idle_revealSeed (passphrase : String) : Idling (revealSeed passphrase) := by
  refine .bind (idle_act rfl) fun s => .bind (idle_act rfl) fun now =>
    .bind (idle_act rfl) fun wait => ?_
  split
  · exact idle_failUi ..
  · refine .bind (idle_act rfl) fun loaded => ?_
    rcases loaded with e | _ | vault
    all_goals refine .bind ?_ fun vault => .bind (idle_act rfl) fun r => ?_
    -- what follows the vault's answer, whether or not there was a vault
    any_goals
      split
      · exact .bind (idle_act rfl) fun _ => .bind (idle_logUiAction ..) fun _ => .pure _
      · exact idle_failUi ..
      · exact .bind (idle_act rfl) fun _ => .bind (idle_act rfl) fun _ => idle_failUi ..
    · exact idle_failUi ..
    · exact idle_failUi ..
    · exact .pure _

theorem withholding_addUserAccount (label : String) : Withholding (addUserAccount K label) := by
  refine withholding_holdingSession (.bind (withholding_act rfl) fun s =>
    .bind (withholding_act rfl) fun created => ?_)
  split
  · exact (idle_failUi ..).withholding
  · have hsave : Withholding (saveSession K) :=
      .bind (.mapErr (idle_resealSession K).withholding) fun vault => withholding_saveVault vault
    refine .bind hsave.attempt fun r => ?_
    split
    · exact .bind (withholding_act rfl) fun _ => (idle_failUi ..).withholding
    · exact .bind (idle_logUiAction ..).withholding fun _ => .pure _

theorem idle_knownClient (found : Bool) : Idling (knownClient found) := by
  unfold knownClient
  split
  · exact .pure _
  · exact .throw _

theorem idle_setSettings (s : Settings) : Idling (setSettings s) :=
  .bind (idle_propagate _) fun _ => .bind (.bind (idle_act rfl) fun _ =>
    .bind (idle_propagate _) fun _ => .bind (idle_act rfl) fun _ =>
    .bind (idle_propagate _) fun _ => .bind (idle_act rfl) fun _ =>
    idle_propagate _) fun _ => .pure _

theorem withholding_autoLockTick : Withholding autoLockTick := by
  refine .bind (withholding_act rfl) fun file => ?_
  dsimp only
  split
  · refine .bind (withholding_act rfl) fun now => .bind (withholding_act rfl) fun last => ?_
    split
    · exact .bind (withholding_act rfl) fun _ => .pure _
    · exact .pure _
  · exact .pure _

end Commands

/-! ## The private batches -/

section Batches

open Rpc.Strk20

theorem idle_approve (caller : Caller) (method summary : String) :
    Idling (caller.approve method summary) := by
  cases caller with
  | rpc client => exact .bind (idle_gatedApproval ..) fun _ => .lift _
  | desktop => exact .pure _

theorem idle_viewingKey (c : Ctx) : Idling c.viewingKey :=
  .bind (idle_act rfl) fun _ => idle_propagate _

theorem idle_callerAccount (caller : Caller) (params : Json) :
    Idling (callerAccount K caller params) := confined_callerAccount K (by rfl) caller params

end Batches

end Strkd.Rpc
