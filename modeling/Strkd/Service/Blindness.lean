import Strkd.Prover.Preflight
import Strkd.Service.Prompts

/-!
# Calldata and the nodes

`companion_signAndProve` takes calldata that the nodes must not see.  Two requests that differ in
their calls only are twins (`twins_dispatch`): what the wallet asks of the nodes for the one it asks
for the other, and the payloads they leave to the native prover agree in what its checks read.
-/

namespace Strkd.Service

open Rpc Wallet Prover

/-! ## What may depend on the calls -/

/-- Tasks whose payloads the prover's checks cannot tell apart. -/
def LikeTask (t₁ t₂ : ProveTask) : Prop :=
  t₁.network = t₂.network ∧ checkedOf t₁.payload = checkedOf t₂.payload

/-- Operations of two requests that differ in their calls. -/
def opsAlike : Op → Op → Prop
  | .requestApproval r₁, .requestApproval r₂ =>
      r₁.clientLabel = r₂.clientLabel ∧ r₁.method = r₂.method
  | .signInvoke a₁ _ chain₁ p₁, .signInvoke a₂ _ chain₂ p₂ => a₁ = a₂ ∧ chain₁ = chain₂ ∧ p₁ = p₂
  | .createJob l₁ _, .createJob l₂ _ => l₁ = l₂
  | .spawnProve t₁, .spawnProve t₂ => LikeTask t₁ t₂
  | .record _, .record _ => True
  | op₁, op₂ => op₁ = op₂

/-- Whether a request goes on with the answer, but for the time and the name of its job. -/
def telling : Op → Bool
  | .clock .log | .elapsed | .jobClock | .proveElapsed | .createJob _ _ | .spawnProve _
  | .record _ => false
  | _ => true

/-- Answers of one server: its signer signs both transactions with the keys of one session. -/
def answersAlike (K : Crates) : (op₁ : Op) → Ans op₁ → (op₂ : Op) → Ans op₂ → Prop
  | .signInvoke a calls₁ chain p, r₁, .signInvoke _ calls₂ _ _, r₂ =>
      ∃ s : WalletSession, r₁ = s.signInvokeFor K a calls₁ chain p ∧
        r₂ = s.signInvokeFor K a calls₂ chain p
  | op₁, a₁, _, a₂ => telling op₁ = true → HEq a₁ a₂

/-- Two runs with one server, one user and one node, of requests that differ in their calls. -/
def blind (K : Crates) : Likeness Op Ans := ⟨opsAlike, answersAlike K⟩

/-- The signer turns down keys, not hashes. -/
def SignsAnyHash (K : Crates) : Prop :=
  ∀ sk h h', (K.signStarkHash sk h).isSome → (K.signStarkHash sk h').isSome

/-- Parameters that differ in `calls` only. -/
def OnlyCallsDiffer (p₁ p₂ : Json) : Prop := ∀ key, key ≠ "calls" → p₁.get? key = p₂.get? key

/-! ## One server, two requests -/

/-- Operations both requests perform alike, and go on with one answer. -/
def common : Op → Bool
  | .touchActivity | .verify _ | .session | .nodeFor _ | .nodeRpc _ _ _ | .clock (.gate _ _) => true
  | _ => false

section

variable {K : Crates} {ε : Type} {α β γ δ : Type} {Q : α → β → Prop} {Q' : γ → δ → Prop}

theorem blind_common {op : Op} (h : common op = true) :
    (blind K).op op op ∧ ∀ a b, (blind K).ans op a op b → a = b := by
  cases op with
  | clock use =>
      cases use with
      | gate client method => exact ⟨rfl, fun a b hab => eq_of_heq (hab rfl)⟩
      | _ => cases h
  | touchActivity | verify | session | nodeFor | nodeRpc =>
      exact ⟨rfl, fun a b hab => eq_of_heq (hab rfl)⟩
  | _ => cases h

/-- First an operation they have in common, then the rest. -/
theorem twins_perform {op : Op} (hop : common op = true) {f : Ans op → Serve α}
    {g : Ans op → Serve β} (h : ∀ a, TwinHandlers (blind K) (f a) (g a) Q) :
    TwinHandlers (blind K) (perform op >>= f) (perform op >>= g) Q :=
  .act (blind_common hop).1 fun a b hab => by
    rw [(blind_common hop).2 a b hab]
    exact h b

/-- First a computation they have in common, then the rest. -/
theorem twins_common {m : Serve α} (hm : Confined (fun op => common op = true) m)
    {f : α → Serve γ} {g : α → Serve δ} (h : ∀ a, TwinHandlers (blind K) (f a) (g a) Q') :
    TwinHandlers (blind K) (m >>= f) (m >>= g) Q' :=
  .same hm (fun _ => blind_common) h

end

/-! ## The handler -/

section

variable {K : Crates} {S : Setup} {p₁ p₂ : Json}

/-- Only the text of the prompt may differ. -/
theorem twins_gatedApproval (client : PairedClient) (method summary₁ summary₂ : String) :
    TwinHandlers (blind K) (gatedApproval client method summary₁)
      (gatedApproval client method summary₂) Eq := by
  refine twins_perform rfl fun now => ?_
  cases client.grantActive now with
  | true => exact .pure rfl
  | false => exact .act ⟨rfl, rfl⟩ fun a b hab => .pure (eq_of_heq (hab rfl))

theorem OnlyCallsDiffer.optParamStr (h : OnlyCallsDiffer p₁ p₂) {key : String}
    (hkey : key ≠ "calls") : optParamStr p₁ key = optParamStr p₂ key := by
  rw [Rpc.optParamStr, h key hkey]; rfl

theorem OnlyCallsDiffer.presentParam (h : OnlyCallsDiffer p₁ p₂) {key : String}
    (hkey : key ≠ "calls") : presentParam p₁ key = presentParam p₂ key := by
  rw [Rpc.presentParam, h key hkey]; rfl

theorem OnlyCallsDiffer.paramStr (h : OnlyCallsDiffer p₁ p₂) {key : String}
    (hkey : key ≠ "calls") : paramStr p₁ key = paramStr p₂ key := by
  rw [Rpc.paramStr, h.optParamStr hkey]; rfl

theorem OnlyCallsDiffer.resolveChain (h : OnlyCallsDiffer p₁ p₂) :
    resolveChain K p₁ = resolveChain K p₂ := by
  rw [Rpc.resolveChain, h "chainId" (by decide)]; rfl

theorem OnlyCallsDiffer.resolveNonce (h : OnlyCallsDiffer p₁ p₂) (chain : ChainId)
    (sender : Felt) : resolveNonce K chain sender p₁ = resolveNonce K chain sender p₂ := by
  rw [Rpc.resolveNonce, optNonce, h.presentParam (by decide)]; rfl

theorem OnlyCallsDiffer.optFeeBounds (h : OnlyCallsDiffer p₁ p₂) :
    optFeeBounds p₁ = optFeeBounds p₂ := by
  rw [Rpc.optFeeBounds, h.presentParam (by decide)]; rfl

/-- One key signs both hashes, or neither. -/
theorem signHash_together (hsign : SignsAnyHash K) (mnemonic : String) (domain : Domain)
    (index : U32) (h₁ h₂ : Felt) :
    BothEnd (fun _ _ => True) (signHash K mnemonic domain index h₁)
      (signHash K mnemonic domain index h₂) := by
  refine (bothEnd_self (privateKey K mnemonic domain index)).bind fun sk _ hsk => ?_
  cases hsk
  have h₁₂ := hsign sk h₁ h₂
  have h₂₁ := hsign sk h₂ h₁
  cases hs₁ : K.signStarkHash sk h₁ with
  | none =>
      cases hs₂ : K.signStarkHash sk h₂ with
      | none => trivial
      | some sig =>
          rw [hs₁, hs₂] at h₂₁
          cases h₂₁ rfl
  | some sig =>
      cases hs₂ : K.signStarkHash sk h₂ with
      | none =>
          rw [hs₁, hs₂] at h₁₂
          cases h₁₂ rfl
      | some sig' => trivial

theorem serializeSignature_ne_nil (contract : AccountContract) (sig : StarkSignature) :
    contract.serializeSignature sig ≠ [] := by
  cases contract with
  | openZeppelin => exact List.cons_ne_nil _ _

theorem bothEnd_liftCore {α β : Type} {Q : α → β → Prop} {r₁ : Except CoreError α}
    {r₂ : Except CoreError β} (h : BothEnd Q r₁ r₂) : BothEnd Q (liftCore r₁) (liftCore r₂) := by
  cases r₁ with
  | ok a =>
      cases r₂ with
      | ok b => exact h
      | error e => exact h.elim
  | error e =>
      cases r₂ with
      | ok b => exact h.elim
      | error e' => trivial

/-- A session signs both invokes, or neither; what it signs carries a signature. -/
theorem signInvokeFor_together (hsign : SignsAnyHash K) (s : WalletSession) (a : AccountRef)
    (calls₁ calls₂ : List Call) (chain : ChainId) (p : InvokeV3Params) :
    BothEnd (fun x y : SignedInvoke => x.signature ≠ [] ∧ y.signature ≠ [])
      (s.signInvokeFor K a calls₁ chain p) (s.signInvokeFor K a calls₂ chain p) := by
  refine (bothEnd_self s.requireUnlocked).bind fun u _ hu => ?_
  cases hu
  refine (bothEnd_self (WalletSession.storedAddress K a)).bind fun sender _ hsender => ?_
  cases hsender
  refine bothEnd_liftCore ((signHash_together hsign _ _ _ _ _).bind fun x y _ => ?_)
  exact ⟨serializeSignature_ne_nil a.contract x, serializeSignature_ne_nil a.contract y⟩

/-- The payload of a virtual invoke. -/
def virtualPayload (sender : Felt) (signed : SignedInvoke) (nonce : Felt) (bounds : FeeBounds)
    (params : Json) : Json :=
  let tx := invokeV3TxJson sender signed.calldata signed.signature nonce bounds [] none
  let block := match (params.get? "block_number").bind Json.asU64 with
    | some n => [("block_number", Json.int n)]
    | none => []
  .obj (("transaction", tx) :: block)

theorem isSigned_invokeV3TxJson (sender : Felt) {signed : SignedInvoke}
    (hsigned : signed.signature ≠ []) (nonce : Felt) (bounds : FeeBounds) :
    isSigned (invokeV3TxJson sender signed.calldata signed.signature nonce bounds [] none) =
      true := by
  have hget : (invokeV3TxJson sender signed.calldata signed.signature nonce bounds [] none).get?
      "signature" = some (feltArr signed.signature) := rfl
  rw [isSigned, hget]
  cases hs : signed.signature with
  | nil => exact absurd hs hsigned
  | cons f fs => rfl

/-- The checks read neither the calldata nor the signature's value. -/
theorem checkedOf_virtualPayload (sender : Felt) {x y : SignedInvoke} (hx : x.signature ≠ [])
    (hy : y.signature ≠ []) (nonce : Felt) (bounds : FeeBounds) (h : OnlyCallsDiffer p₁ p₂) :
    checkedOf (virtualPayload sender x nonce bounds p₁) =
      checkedOf (virtualPayload sender y nonce bounds p₂) := by
  have hblock := h "block_number" (by decide)
  have hget : ∀ (signed : SignedInvoke) (p : Json),
      (virtualPayload sender signed nonce bounds p).get? "transaction" =
        some (invokeV3TxJson sender signed.calldata signed.signature nonce bounds [] none) :=
    fun _ _ => rfl
  refine Checked.mk.injEq _ _ _ _ ▸ ⟨?_, ?_⟩
  · rw [hget, hget, Option.map_some, Option.map_some, isSigned_invokeV3TxJson sender hx,
      isSigned_invokeV3TxJson sender hy]
    rfl
  · unfold virtualPayload
    rw [hblock]
    cases (p₂.get? "block_number").bind Json.asU64 <;> rfl

/-! ## The requests -/

theorem twins_signAndEnqueue (hsign : SignsAnyHash K) (h : OnlyCallsDiffer p₁ p₂) (chain : ChainId)
    (account : AccountRef) (sender : Felt) (calls₁ calls₂ : List Call) (nonce : Felt)
    (bounds : FeeBounds) :
    TwinHandlers (blind K) (signAndEnqueue chain account sender calls₁ nonce bounds p₁)
      (signAndEnqueue chain account sender calls₂ nonce bounds p₂) fun _ _ => True := by
  refine .act ⟨rfl, rfl, rfl⟩ fun r₁ r₂ hr => ?_
  obtain ⟨s, rfl, rfl⟩ := hr
  refine .bind (.lift (signInvokeFor_together hsign s account calls₁ calls₂ chain _))
    fun x y hxy => ?_
  have hchecked := checkedOf_virtualPayload sender hxy.1 hxy.2 nonce bounds h
  refine .bind (Q := fun _ _ => True) ?_ fun _ _ _ => .pure trivial
  refine .act rfl fun now₁ now₂ _ => .act ?_ fun id₁ id₂ _ => .act ?_ fun _ _ _ => .pure trivial
  · exact h.optParamStr (by decide)
  · exact ⟨rfl, hchecked⟩

/-- Requests to sign and prove that differ in their calls do alike. -/
theorem twins_handleSignAndProve (hsign : SignsAnyHash K) (h : OnlyCallsDiffer p₁ p₂)
    {calls₁ calls₂ : List Call} (hcalls₁ : parseCalls K p₁ = .ok calls₁)
    (hcalls₂ : parseCalls K p₂ = .ok calls₂) (client : PairedClient) :
    TwinHandlers (blind K) (handleSignAndProve K S client p₁) (handleSignAndProve K S client p₂)
      fun _ _ => True := by
  unfold handleSignAndProve
  rw [hcalls₁, hcalls₂, h.paramStr (by decide), h.resolveChain]
  refine twins_common (.lift _) fun _ => twins_common (.lift _) fun accountAddress =>
    twins_common (.lift _) fun want => ?_
  refine twins_common (confined_resolveChain K (by rfl) p₂) fun chain => ?_
  refine twins_common (confined_scopedAccount (by rfl) client want) fun account => ?_
  refine twins_common (.lift _) fun sender => ?_
  rw [h.resolveNonce chain sender, h.optFeeBounds]
  refine twins_common (confined_resolveNonce K (by rfl) (by rfl) p₂) fun nonce => ?_
  refine twins_common (.lift _) fun bounds => ?_
  cases bounds with
  | none => exact .throw
  | some bounds =>
      refine .bind (twins_gatedApproval ..) fun decision _ hdecision => ?_
      cases hdecision
      exact twins_common (.lift _) fun _ => twins_signAndEnqueue hsign h chain account sender
        calls₁ calls₂ nonce bounds

theorem twins_handle {r₁ r₂ : Request} {token : Option String} (hsign : SignsAnyHash K)
    (hm₁ : r₁.method = "companion_signAndProve") (hm₂ : r₂.method = r₁.method)
    (h : OnlyCallsDiffer r₁.params r₂.params) {calls₁ calls₂ : List Call}
    (hcalls₁ : parseCalls K r₁.params = .ok calls₁) (hcalls₂ : parseCalls K r₂.params = .ok calls₂) :
    Twins (blind K) (fun _ _ => True) (handle K S token r₁) (handle K S token r₂) := by
  have hmethod : Method.ofString "companion_signAndProve" = some .signAndProve := by decide +kernel
  unfold handle
  rw [hm₂, hm₁, hmethod]
  refine Twins.bind (Q := Eq) ?_ fun found _ hfound => ?_
  · cases token with
    | none => exact rfl
    | some t => exact ⟨rfl, fun a b hab => eq_of_heq (hab rfl)⟩
  · cases hfound
    cases found with
    | none => trivial
    | some client =>
        exact Twins.bind (twins_handleSignAndProve hsign h hcalls₁ hcalls₂ client) fun _ _ _ => trivial

/-- So does the whole of them, up to the row in the log. -/
theorem twins_dispatch {r₁ r₂ : Request} {token : Option String} (hsign : SignsAnyHash K)
    (hm₁ : r₁.method = "companion_signAndProve") (hm₂ : r₂.method = r₁.method)
    (h : OnlyCallsDiffer r₁.params r₂.params) {calls₁ calls₂ : List Call}
    (hcalls₁ : parseCalls K r₁.params = .ok calls₁) (hcalls₂ : parseCalls K r₂.params = .ok calls₂) :
    Twins (blind K) (fun _ _ => True) (dispatch K S token r₁) (dispatch K S token r₂) := by
  refine ⟨rfl, fun _ _ _ => ?_⟩
  refine Twins.bind (p := handle K S token r₁) (q := handle K S token r₂)
    (twins_handle hsign hm₁ hm₂ h hcalls₁ hcalls₂) fun handled₁ handled₂ _ => ?_
  refine ⟨rfl, fun s₁ s₂ _ => ⟨rfl, fun _ _ _ => ⟨rfl, fun _ _ _ => ⟨trivial, fun _ _ _ => ?_⟩⟩⟩⟩
  cases handled₁.result <;> cases handled₂.result <;> trivial

end

/-! ## What the nodes see -/

/-- A request to a node: its chain, the method and the parameters. -/
def nodeRequest : Op → Option (ChainId × String × Json)
  | .nodeRpc chain method params => some (chain, method, params)
  | _ => none

/-- What a run asks of the nodes. -/
def nodeRequests (tr : Trace) : List (ChainId × String × Json) :=
  tr.filterMap fun e => nodeRequest e.1

def taskOf : Op → Option ProveTask
  | .spawnProve task => some task
  | _ => none

/-- The proving tasks a run leaves behind. -/
def tasksLeft (tr : Trace) : List ProveTask := tr.filterMap fun e => taskOf e.1

/-- The native prover posts the same for both tasks before it starts its CLI, wherever one CLI is
there and the settings and the nodes are the same. -/
def SamePosts (t₁ t₂ : ProveTask) : Prop :=
  ∀ bin tr₁ tr₂ rest₁ rest₂, Follows (prove bin t₁.payload t₁.network).run tr₁ rest₁ →
    Follows (prove bin t₂.payload t₂.network).run tr₂ rest₂ → InStep likeProver tr₁ tr₂ →
    StopAlike tr₁ tr₂ rest₁ rest₂ → posts tr₁ = posts tr₂

theorem LikeTask.samePosts {t₁ t₂ : ProveTask} (h : LikeTask t₁ t₂) : SamePosts t₁ t₂ := by
  intro bin tr₁ tr₂ rest₁ rest₂ hrun₁ hrun₂ hin hstop
  obtain ⟨hnetwork, hchecked⟩ := h
  rw [hnetwork] at hrun₁
  exact posts_alike ((twins_prove hchecked bin t₂.network).follows hrun₁ hrun₂ hin hstop).1

section

variable {K : Crates} {S : Setup}

theorem nodeRequest_alike (op₁ op₂ : Op) (h : opsAlike op₁ op₂) :
    Option.Rel Eq (nodeRequest op₁) (nodeRequest op₂) := by
  unfold opsAlike at h
  split at h
  case h_6 =>
    rw [h]
    cases nodeRequest op₂ with
    | none => exact .none
    | some asked => exact .some rfl
  all_goals exact .none

theorem taskOf_alike (op₁ op₂ : Op) (h : opsAlike op₁ op₂) :
    Option.Rel LikeTask (taskOf op₁) (taskOf op₂) := by
  unfold opsAlike at h
  split at h
  case h_4 => exact .some h
  case h_6 =>
    rw [h]
    cases taskOf op₂ with
    | none => exact .none
    | some task => exact .some ⟨rfl, rfl⟩
  all_goals exact .none

/-- Two replays with one oracle are in step when it answers alike operations alike. -/
theorem inStep_replay {α β : Type} {oracle : (op : Op) → Option (Ans op)}
    (h : ∀ op₁ a₁ op₂ a₂, oracle op₁ = some a₁ → oracle op₂ = some a₂ → opsAlike op₁ op₂ →
      answersAlike K op₁ a₁ op₂ a₂) (p : Prog Op Ans α) (q : Prog Op Ans β) :
    InStep (blind K) (replay oracle p) (replay oracle q) :=
  inStep_of_mem fun e₁ he₁ e₂ he₂ hop => h e₁.1 e₁.2 e₂.1 e₂.2
    (forall_mem_replay (P := fun op a => oracle op = some a) (fun _ _ ha => ha) p e₁ he₁)
    (forall_mem_replay (P := fun op a => oracle op = some a) (fun _ _ ha => ha) q e₂ he₂) hop

end

/-! ## An example -/

/-- A wallet of one account whose user approves, with a prover and a node. -/
def provingWallet : (op : Op) → Option (Ans op)
  | .touchActivity | .clock _ | .elapsed | .jobClock => some 0
  | .verify _ => some (some plainClient)
  | .session => some plainSession
  | .nodeFor _ => some true
  | .nodeRpc _ _ _ => some (.body (.obj [("result", .str "0x5")]))
  | .requestApproval _ => some .approve
  | .signInvoke a calls chain p => some (plainSession.signInvokeFor plainCrates a calls chain p)
  | .createJob _ _ => some "p0"
  | .spawnProve _ => some ()
  | .record _ => some true
  | _ => none

theorem provingWallet_self (op : Op) (a : Ans op) (h : provingWallet op = some a) :
    answersAlike plainCrates op a op a := by
  cases op with
  | signInvoke account calls chain p =>
      cases h
      exact ⟨plainSession, rfl, rfl⟩
  | _ => exact fun _ => .rfl

theorem provingWallet_alike (op₁ : Op) (a₁ : Ans op₁) (op₂ : Op) (a₂ : Ans op₂)
    (h₁ : provingWallet op₁ = some a₁) (h₂ : provingWallet op₂ = some a₂)
    (h : opsAlike op₁ op₂) : answersAlike plainCrates op₁ a₁ op₂ a₂ := by
  unfold opsAlike at h
  split at h
  case h_1 =>
    cases h₁
    cases h₂
    exact fun _ => .rfl
  case h_2 =>
    obtain ⟨rfl, rfl, rfl⟩ := h
    cases h₁
    cases h₂
    exact ⟨plainSession, rfl, rfl⟩
  case h_3 | h_4 | h_5 => exact fun hfalse => nomatch hfalse
  case h_6 =>
    subst h
    cases h₁.symm.trans h₂
    exact provingWallet_self _ _ h₁

def virtualRequest (secret : String) : Request where
  id := .int 1
  method := "companion_signAndProve"
  params := .obj [("account_address", .str "0x7"), ("calls", .arr [.obj [
    ("contract_address", .str "0x9"), ("entry_point_selector", .str "0x1"),
    ("calldata", .arr [.str secret])]]), ("resource_bounds", boundsJson plainBounds)]

def nativeSetup : Setup := { plainSetup with hasProver := true, proverKind := "native" }

/-- What a request of its does. -/
def virtualRun (secret : String) : Trace :=
  replay provingWallet (dispatch plainCrates nativeSetup (some "t") (virtualRequest secret))

theorem onlyCallsDiffer_virtualRequest (secret secret' : String) :
    OnlyCallsDiffer (virtualRequest secret).params (virtualRequest secret').params := by
  intro key hkey
  have hcalls : (key == "calls") = false := beq_false_of_ne hkey
  show List.lookup key _ = List.lookup key _
  simp only [List.lookup_cons, hcalls]

end Strkd.Service
