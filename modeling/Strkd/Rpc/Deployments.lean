import Strkd.Lib.Runs
import Strkd.Rpc.Estimates
import Strkd.Rpc.Prompts
import Strkd.Rpc.Quiet
import Strkd.Wallet.Wire

/-!
# Deployments

`companion_deployAccount` names an account three times: its registered address, the deployment data
on the default chain of the session, and what is signed on the chain of the request.  When the three
are one account (`deployment_agrees_iff`), and what a deployment that is only signed leaves out
(`signOnly_incomplete`).
-/

namespace Strkd.Rpc

open Wallet Prover

section

variable (K : Crates)

/-! ## What the handler holds when it asks -/

/-- What the handler holds when it asks the user. -/
structure Deployment where
  account : AccountRef
  chain : ChainId
  /-- The session the deployment data are read from. -/
  session : WalletSession
  data : DeploymentData
  bounds : FeeBounds

/-- The handler up to the question to the user. -/
def deploymentRequest (client : PairedClient) (params : Json) : Serve Deployment := do
  let account ← scopedAccountOr K client (optParamStr params "account")
    (.invalidRequest "no account in scope to deploy")
  let chain ← resolveChain K params
  requireUndeployed K chain account
  let session ← perform .session
  let data ← session.deploymentDataFor K account
  let bounds ← deployBounds chain data params
  return { account, chain, session, data, bounds }

/-- The handler from the question to the user on. -/
def deploymentAnswer (client : PairedClient) (params : Json) (q : Deployment) : Serve Json := do
  let submit := paramFlag params "submit"
  let decision ← gatedApproval client "companion_deployAccount"
    ((if submit then "Deploy" else "Sign deployment of") ++ " account " ++ q.account.address ++
      " on " ++ chainName q.chain ++ ". Max fee: " ++ boundsSummary q.bounds)
  confirmed decision
  signAndDeploy K q.chain q.account q.bounds submit

theorem handleDeployAccount_eq (client : PairedClient) (params : Json) :
    handleDeployAccount K client params =
      deploymentRequest K client params >>= deploymentAnswer K client params := by
  simp only [handleDeployAccount, deploymentRequest, deploymentAnswer, bind_assoc, pure_bind]

theorem quiet_deploymentRequest (client : PairedClient) (params : Json) :
    Quiet (deploymentRequest K client params) :=
  .bind (quiet_scopedAccountOr ..) fun _ => .bind (quiet_resolveChain ..) fun _ =>
    .bind (quiet_requireUndeployed ..) fun _ => .bind (quiet_act rfl) fun _ =>
      .bind (.lift _) fun _ => .bind (quiet_deployBounds ..) fun _ => .pure _

/-! ## One wallet -/

/-- The deployment data of an account on a chain. -/
def accountData (mnemonic : String) (a : AccountRef) (chain : ChainId) :
    Except CoreError DeploymentData :=
  deploymentData K mnemonic a.domain a.index chain a.contract

/-- Sessions hold the wallet of `mnemonic` whenever they are unlocked, and deployments are signed by
it.  Their default chain may be any, at every moment. -/
def OneWallet (mnemonic : String) : (op : Op) → Ans op → Prop
  | .session, s => ∀ u, s.unlocked = some u → u.mnemonic = mnemonic
  | .signDeployAccount a chain p, r => r = .error .locked ∨
      r = liftCore (signDeployAccountV3 K mnemonic a.domain a.index chain p a.contract)
  | _, _ => True

/-! ## Agreement -/

/-- The parameters of the check whether an address is deployed. -/
def deployedParams (address : Felt) : Json := .arr [.str "latest", .str (feltHex address)]

/-- The parameters of the estimate of a deployment. -/
def estimateParams (d : DeploymentData) : Json := .obj [
  ("request", .arr [deployAccountTxJson d.classHash d.constructorCalldata d.salt [] zeroBounds]),
  ("simulation_flags", .arr [.str "SKIP_VALIDATE"]), ("block_id", .str "latest")]

/-- What the handler asked of the node, and the address it prompts with and returns, are those of the
deployment `d`. -/
structure AskedFor (q : Deployment) (before : Trace) (d : DeploymentData) : Prop where
  named : q.account.address = addressHex d.address
  checked : ∀ e ∈ before, ∀ chain params,
    e.1 = .nodeRpc chain "starknet_getClassHashAt" params →
      chain = q.chain ∧ params = deployedParams d.address
  estimated : ∀ e ∈ before, ∀ chain params, e.1 = .nodeRpc chain "starknet_estimateFee" params →
    chain = q.chain ∧ params = estimateParams d

/-- Everything up to the prompt is about the account on the chain of the request. -/
def Agrees (mnemonic : String) (q : Deployment) (before : Trace) : Prop :=
  ∃ d, accountData K mnemonic q.account q.chain = .ok d ∧ AskedFor q before d

/-- The registered address is the account's on the chain of the request and, unless the caller gives
the fee, so are the data it has on the default chain of the session, up to the address. -/
def SameAccount (mnemonic : String) (params : Json) (q : Deployment) : Prop :=
  ∃ d, accountData K mnemonic q.account q.chain = .ok d ∧
    q.account.address = addressHex d.address ∧
    (optFeeBounds params = .ok none →
      ∃ d', accountData K mnemonic q.account q.session.chain = .ok d' ∧
        d'.classHash = d.classHash ∧ d'.constructorCalldata = d.constructorCalldata ∧
        d'.salt = d.salt)

/-! ## What the handler asks of the node -/

/-- Operations that ask no node. -/
def silent (op : Op) : Prop := ∀ chain method params, op ≠ .nodeRpc chain method params

/-- The only node call is the given one. -/
def asksOnly (chain : ChainId) (method : String) (params : Json) (op : Op) : Prop :=
  ∀ c m p, op = .nodeRpc c m p → c = chain ∧ m = method ∧ p = params

variable {K}

theorem silent_session : silent .session := nofun

theorem silent_nodeFor (chain : ChainId) : silent (.nodeFor chain) := nofun

theorem asksOnly_self (chain : ChainId) (method : String) (params : Json) :
    asksOnly chain method params (.nodeRpc chain method params) := by
  rintro c m p h
  cases h
  exact ⟨rfl, rfl, rfl⟩

theorem asksOnly_of_silent {chain : ChainId} {method : String} {params : Json} {op : Op}
    (h : silent op) : asksOnly chain method params op := fun c m p hop => absurd hop (h c m p)

/-- The check whether the account is deployed asks for its registered address. -/
theorem asks_requireUndeployed {chain : ChainId} {account : AccountRef} {address : Felt}
    (h : WalletSession.storedAddress K account = .ok address) :
    Confined (asksOnly chain "starknet_getClassHashAt" (deployedParams address))
      (requireUndeployed K chain account) := by
  refine confined_requireUndeployed K (asksOnly_of_silent (silent_nodeFor chain)) ?_
  rintro address' haddress'
  rw [h] at haddress'
  cases haddress'
  exact asksOnly_self chain "starknet_getClassHashAt" (deployedParams address)

/-- An account without a readable address is not asked about. -/
theorem silent_requireUndeployed {chain : ChainId} {account : AccountRef}
    {e : WalletRpcError} (h : WalletSession.storedAddress K account = .error e) :
    Confined silent (requireUndeployed K chain account) := by
  refine confined_requireUndeployed K (silent_nodeFor chain) ?_
  rintro address haddress
  rw [h] at haddress
  cases haddress

theorem confined_estimate (chain : ChainId) (d : DeploymentData) :
    Confined (asksOnly chain "starknet_estimateFee" (estimateParams d))
      (Node.estimateDeployAccount chain d.classHash d.constructorCalldata d.salt) := by
  have hop := asksOnly_self chain "starknet_estimateFee" (estimateParams d)
  exact .bind (.bind ⟨hop, fun _ => trivial⟩ fun _ => .lift _) fun _ =>
    .bind (.lift _) fun _ => .lift _

/-- The node is asked for the fee only if the caller gives none. -/
theorem confined_deployBounds (chain : ChainId) (d : DeploymentData) (params : Json) :
    Confined (fun op => asksOnly chain "starknet_estimateFee" (estimateParams d) op ∧
      (optFeeBounds params ≠ .ok none → silent op)) (deployBounds chain d params) := by
  unfold deployBounds
  cases hbounds : optFeeBounds params with
  | error e => exact .throw e
  | ok bounds =>
      cases bounds with
      | some b => exact .pure b
      | none =>
          have hgiven : ∀ op, (Except.ok none : Except WalletRpcError (Option FeeBounds)) ≠ .ok none →
              silent op := fun _ h => absurd rfl h
          refine Confined.bind (m := requireNode chain)
            (confined_requireNode ⟨asksOnly_of_silent (silent_nodeFor chain), hgiven _⟩)
            fun _ => .mapErr ?_
          exact Only.mono (confined_estimate chain d) fun op h => ⟨h, hgiven op⟩

/-- Without a fee in the request, the node is asked for one. -/
theorem asked_deployBounds {chain : ChainId} {d : DeploymentData} {params : Json} {tr : Trace}
    {bounds : FeeBounds} (h : Ran (deployBounds chain d params) tr (.ok bounds))
    (hnone : optFeeBounds params = .ok none) :
    ∃ e ∈ tr, e.1 = .nodeRpc chain "starknet_estimateFee" (estimateParams d) := by
  unfold deployBounds at h
  rw [hnone] at h
  obtain ⟨b, tr₁, tr₂, rfl, hb, h⟩ := h.bind_ok
  obtain ⟨rfl, hb⟩ := hb.lift
  cases hb
  obtain ⟨_, tr₃, tr₄, rfl, -, h⟩ := h.bind_ok
  obtain ⟨v, tr₅, tr₆, rfl, hcall, -⟩ := h.mapErr_ok.bind_ok
  obtain ⟨reply, rest, rfl, -⟩ := hcall.act
  refine ⟨⟨.nodeRpc chain "starknet_estimateFee" (estimateParams d), reply⟩, ?_, rfl⟩
  simp [estimateParams]

/-- What the run up to the prompt read and asked. -/
structure Requested (K : Crates) (params : Json) (before : Trace) (q : Deployment) : Prop where
  read : ∃ e ∈ before, e = ⟨.session, q.session⟩
  data : q.session.deploymentDataFor K q.account = .ok q.data
  checked : ∀ e ∈ before, ∀ chain params, e.1 = .nodeRpc chain "starknet_getClassHashAt" params →
    ∃ address, WalletSession.storedAddress K q.account = .ok address ∧ chain = q.chain ∧
      params = deployedParams address
  estimated : ∀ e ∈ before, ∀ chain p, e.1 = .nodeRpc chain "starknet_estimateFee" p →
    optFeeBounds params = .ok none ∧ chain = q.chain ∧ p = estimateParams q.data
  asked : optFeeBounds params = .ok none →
    ∃ e ∈ before, e.1 = .nodeRpc q.chain "starknet_estimateFee" (estimateParams q.data)

theorem requested_of_ran {client : PairedClient} {params : Json} {before : Trace} {q : Deployment}
    (h : Ran (deploymentRequest K client params) before (.ok q)) : Requested K params before q := by
  obtain ⟨account, tr₁, rest₁, rfl, haccount, hrest₁⟩ := h.bind_ok
  obtain ⟨chain, tr₂, rest₂, rfl, hchain, hrest₂⟩ := hrest₁.bind_ok
  obtain ⟨_, tr₃, rest₃, rfl, hcheck, hrest₃⟩ := hrest₂.bind_ok
  obtain ⟨s, rest₄, rfl, hrest₄⟩ := hrest₃.act
  obtain ⟨d, tr₄, rest₅, rfl, hread, hrest₅⟩ := hrest₄.bind_ok
  obtain ⟨rfl, hd⟩ := hread.lift
  obtain ⟨bounds, tr₅, rest₆, rfl, hbounds, hrest₆⟩ := hrest₅.bind_ok
  obtain ⟨rfl, hq⟩ := hrest₆.pure
  cases hq
  have h₁ := (confined_scopedAccountOr K silent_session client _ _).of_ran haccount
  have h₂ := (confined_resolveChain K silent_session _).of_ran hchain
  have h₅ := (confined_deployBounds ..).of_ran hbounds
  have h₃ : ∀ e ∈ tr₃, ∀ c m p, e.1 = .nodeRpc c m p → m = "starknet_getClassHashAt" ∧
      ∃ address, WalletSession.storedAddress K account = .ok address ∧ c = chain ∧
        p = deployedParams address := by
    intro e he c m p hop
    cases haddress : WalletSession.storedAddress K account with
    | ok address =>
        obtain ⟨hc, hm, hp⟩ := (asks_requireUndeployed haddress).of_ran hcheck e he c m p hop
        exact ⟨hm, address, rfl, hc, hp⟩
    | error x =>
        exact absurd hop ((silent_requireUndeployed haddress).of_ran hcheck e he c m p)
  -- which part of the run an event with a node call is from
  have hcases : ∀ e ∈ tr₁ ++ (tr₂ ++ (tr₃ ++ ⟨.session, s⟩ :: ([] ++ (tr₅ ++ [])))),
      ∀ c m p, e.1 = .nodeRpc c m p → e ∈ tr₃ ∨ e ∈ tr₅ := by
    intro e he c m p hop
    simp only [List.mem_append, List.mem_cons, List.not_mem_nil, or_false, false_or] at he
    rcases he with he | he | he | rfl | he
    · exact absurd hop (h₁ e he c m p)
    · exact absurd hop (h₂ e he c m p)
    · exact .inl he
    · cases hop
    · exact .inr he
  refine ⟨⟨⟨.session, s⟩, by simp, rfl⟩, hd.symm, fun e he c p hop => ?_, fun e he c p hop => ?_,
    fun hnone => ?_⟩
  · rcases hcases e he _ _ _ hop with he | he
    · exact (h₃ e he _ _ _ hop).2
    · exact absurd ((h₅ e he).1 _ _ _ hop).2.1 (by decide)
  · rcases hcases e he _ _ _ hop with he | he
    · exact absurd (h₃ e he _ _ _ hop).1 (by decide)
    · obtain ⟨hc, -, hp⟩ := (h₅ e he).1 _ _ _ hop
      exact ⟨by_contra fun hgiven => (h₅ e he).2 hgiven _ _ _ hop, hc, hp⟩
  · obtain ⟨e, he, hop⟩ := asked_deployBounds hbounds hnone
    exact ⟨e, by simp [he], hop⟩

/-! ## When everything is about one account -/

theorem estimateParams_injective {d d' : DeploymentData} (h : estimateParams d = estimateParams d') :
    d.classHash = d'.classHash ∧ d.constructorCalldata = d'.constructorCalldata ∧
      d.salt = d'.salt := by
  simp only [estimateParams, deployAccountTxJson, feltArr, Json.obj.injEq, List.cons.injEq,
    Prod.mk.injEq, Json.arr.injEq, Json.str.injEq, true_and, and_true] at h
  obtain ⟨hclass, hsalt, hcalldata⟩ := h
  refine ⟨feltHex_injective hclass, ?_, feltHex_injective hsalt⟩
  refine List.map_injective_iff.2 (fun f g hfg => ?_) hcalldata
  exact feltHex_injective (Json.str.inj hfg)

theorem estimateParams_congr {d d' : DeploymentData} (hclass : d.classHash = d'.classHash)
    (hcalldata : d.constructorCalldata = d'.constructorCalldata) (hsalt : d.salt = d'.salt) :
    estimateParams d = estimateParams d' := by
  rw [estimateParams, estimateParams, hclass, hcalldata, hsalt]

theorem agrees_iff (hex : ∀ f, K.feltFromHex (addressHex f) = some f) {mnemonic : String}
    {params : Json} {before : Trace} {q : Deployment} (h : Requested K params before q)
    (hlegal : ∀ e ∈ before, OneWallet K mnemonic e.1 e.2) :
    Agrees K mnemonic q before ↔ SameAccount K mnemonic params q := by
  have hdata : accountData K mnemonic q.account q.session.chain = .ok q.data := by
    obtain ⟨e, he, rfl⟩ := h.read
    have hread := h.data
    obtain ⟨u, hu, hd⟩ := except_bind_eq_ok.1 hread
    have hseed := hlegal _ he u (WalletSession.requireUnlocked_eq_ok hu)
    rw [hseed] at hd
    exact liftCore_eq_ok hd
  constructor
  · rintro ⟨d, hd, hasked⟩
    refine ⟨d, hd, hasked.named, fun hnone => ⟨q.data, hdata, ?_⟩⟩
    obtain ⟨e, he, hop⟩ := h.asked hnone
    exact estimateParams_injective (hasked.estimated e he _ _ hop).2
  · rintro ⟨d, hd, hnamed, hsame⟩
    refine ⟨d, hd, hnamed, fun e he chain p hop => ?_, fun e he chain p hop => ?_⟩
    · obtain ⟨address, haddress, hchain, hp⟩ := h.checked e he chain p hop
      unfold WalletSession.storedAddress at haddress
      rw [hnamed, hex] at haddress
      cases haddress
      exact ⟨hchain, hp⟩
    · obtain ⟨hnone, hchain, hp⟩ := h.estimated e he chain p hop
      obtain ⟨d', hd', hclass, hcalldata, hsalt⟩ := hsame hnone
      rw [hdata] at hd'
      cases hd'
      exact ⟨hchain, hp.trans (estimateParams_congr hclass hcalldata hsalt)⟩

/-! ## What is signed and returned -/

/-- A signed deployment carries the data of the account on the chain. -/
theorem signDeployAccountV3_spec {mnemonic : String} {a : AccountRef} {chain : ChainId}
    {p : InvokeV3Params} {signed : SignedDeployAccount}
    (h : signDeployAccountV3 K mnemonic a.domain a.index chain p a.contract = .ok signed) :
    ∃ d, accountData K mnemonic a chain = .ok d ∧ signed.address = d.address ∧
      signed.classHash = d.classHash ∧ signed.salt = d.salt ∧
      signed.constructorCalldata = d.constructorCalldata := by
  obtain ⟨d, hd, h⟩ := except_bind_eq_ok.1 h
  obtain ⟨sig, -, h⟩ := except_bind_eq_ok.1 h
  cases h
  exact ⟨d, hd, rfl, rfl, rfl, rfl⟩

/-- Only the deployment of `q` is signed. -/
def signsOnly (q : Deployment) (op : Op) : Prop :=
  ∀ a chain p, op = .signDeployAccount a chain p → a = q.account ∧ chain = q.chain

theorem signsOnly_of_quiet {q : Deployment} {op : Op} (h : quiet op = true) : signsOnly q op := by
  rintro a chain p rfl
  exact absurd h (by simp [quiet])

theorem confined_deploymentAnswer (client : PairedClient) (params : Json) (q : Deployment) :
    Confined (signsOnly q) (deploymentAnswer K client params q) := by
  have hquiet : ∀ {ε α : Type} {m : Handler ε Op Ans α}, Quiet m → Confined (signsOnly q) m :=
    fun h => Only.mono h fun _ => signsOnly_of_quiet
  have hgate : ∀ summary, Confined (signsOnly q)
      (gatedApproval client "companion_deployAccount" summary) := by
    intro summary
    refine .bind ⟨nofun, fun _ => trivial⟩ fun now => ?_
    split
    · exact .pure _
    · exact ⟨nofun, fun _ => trivial⟩
  refine .bind (hgate _) fun decision => .bind (.lift _) fun _ => ?_
  refine .bind ⟨?_, fun _ => trivial⟩ fun answer => .bind (hquiet (quiet_propagate _)) fun signed => ?_
  · rintro a chain p h
    cases h
    exact ⟨rfl, rfl⟩
  · split
    · exact .bind (hquiet (quiet_requireNode _)) fun _ =>
        .bind (.mapErr (hquiet (quiet_addDeployAccount ..))) fun _ => .pure _
    · exact .pure _

/-- What a deployment that is only signed returns for the caller to broadcast. -/
def signedFields (signed : SignedDeployAccount) : Json := .obj [("type", .str "DEPLOY_ACCOUNT"),
  ("version", .str "0x3"), ("class_hash", .str (feltHex signed.classHash)),
  ("contract_address_salt", .str (feltHex signed.salt)),
  ("constructor_calldata", feltArr signed.constructorCalldata), ("nonce", .str "0x0")]

/-- The transaction of a signed deployment, as it is broadcast. -/
def broadcastTx (signed : SignedDeployAccount) (bounds : FeeBounds) : Json :=
  deployAccountTxJson signed.classHash signed.constructorCalldata signed.salt signed.signature bounds

/-- The response to a deployment that is only signed. -/
def signedResponse (account : AccountRef) (signed : SignedDeployAccount) : Json := .obj [
  ("transaction_hash", .str (feltHex signed.transactionHash)),
  ("contract_address", .str account.address), ("signature", feltArr signed.signature),
  ("signed_transaction", signedFields signed), ("submitted", .bool false)]

/-- The response to a deployment. -/
inductive Responds (q : Deployment) (submit : Bool) (signed : SignedDeployAccount) (after : Trace) :
    Json → Prop where
  | broadcast (hsubmit : submit = true) (hash : Felt) (reply : HttpReply)
      (sent : (⟨.nodeRpc q.chain "starknet_addDeployAccountTransaction"
        (.obj [("deploy_account_transaction", broadcastTx signed q.bounds)]), reply⟩ :
          Event Op Ans) ∈ after) :
      Responds q submit signed after (.obj [("transaction_hash", .str (feltHex hash)),
        ("contract_address", .str q.account.address), ("submitted", .bool true)])
  | signed (hsubmit : submit = false) :
      Responds q submit signed after (signedResponse q.account signed)

theorem responds_of_ran {client : PairedClient} {params : Json} {q : Deployment} {after : Trace}
    {v : Json} (h : Ran (deploymentAnswer K client params q) after (.ok v)) :
    ∃ p signed, (⟨.signDeployAccount q.account q.chain p, .ok signed⟩ : Event Op Ans) ∈ after ∧
      p = { nonce := 0, l1Gas := q.bounds.l1Gas, l2Gas := q.bounds.l2Gas,
            l1DataGas := q.bounds.l1DataGas } ∧
      Responds q (paramFlag params "submit") signed after v := by
  obtain ⟨decision, tr₁, rest₁, rfl, -, hrest₁⟩ := h.bind_ok
  obtain ⟨_, tr₂, rest₂, rfl, -, hrest₂⟩ := hrest₁.bind_ok
  obtain ⟨answer, rest₃, rfl, hrest₃⟩ := hrest₂.act
  obtain ⟨signed, tr₃, rest₄, rfl, hsigned, hrest₄⟩ := hrest₃.bind_ok
  obtain ⟨rfl, rfl⟩ : tr₃ = [] ∧ answer = .ok signed := by
    cases hsigned
    exact ⟨rfl, rfl⟩
  refine ⟨_, signed, by simp, rfl, ?_⟩
  by_cases hsubmit : paramFlag params "submit" = true
  · rw [hsubmit] at hrest₄ ⊢
    obtain ⟨_, tr₄, rest₅, rfl, -, hrest₅⟩ := hrest₄.bind_ok
    obtain ⟨hash, tr₅, rest₆, rfl, hsend, hrest₆⟩ := hrest₅.bind_ok
    obtain ⟨rfl, hv⟩ := hrest₆.pure
    cases hv
    obtain ⟨r, tr₆, rest₇, rfl, hcall, -⟩ := hsend.mapErr_ok.bind_ok
    obtain ⟨reply, rest₈, rfl, -⟩ := hcall.act
    exact .broadcast rfl hash reply (by simp [broadcastTx])
  · rw [Bool.not_eq_true] at hsubmit
    rw [hsubmit] at hrest₄ ⊢
    obtain ⟨rfl, hv⟩ := hrest₄.pure
    cases hv
    exact .signed rfl

theorem Responds.get_contract_address {q : Deployment} {submit : Bool}
    {signed : SignedDeployAccount} {after : Trace} {v : Json} (h : Responds q submit signed after v) :
    v.get? "contract_address" = some (.str q.account.address) := by
  cases h <;> rfl

/-- Whatever is signed carries the data of the account on the chain of the request. -/
def SignedFor (K : Crates) (mnemonic : String) (q : Deployment) : (op : Op) → Ans op → Prop
  | .signDeployAccount a chain _, .ok signed => a = q.account ∧ chain = q.chain ∧
      ∃ d, accountData K mnemonic q.account q.chain = .ok d ∧ signed.address = d.address ∧
        signed.classHash = d.classHash
  | _, _ => True

theorem signedFor_of_legal {mnemonic : String} {q : Deployment} {op : Op} {a : Ans op}
    (hop : signsOnly q op) (hlegal : OneWallet K mnemonic op a) : SignedFor K mnemonic q op a := by
  cases op with
  | signDeployAccount account chain p =>
      obtain ⟨rfl, rfl⟩ := hop account chain p rfl
      cases a with
      | ok signed =>
          rcases hlegal with h | h
          · cases h
          · obtain ⟨d, hd, haddress, hclass, -⟩ := signDeployAccountV3_spec (liftCore_eq_ok h.symm)
            exact ⟨rfl, rfl, d, hd, haddress, hclass⟩
      | error e => trivial
  | _ => trivial

end

/-- A request to deploy an account fails before it asks, or everything it asks the node, prompts,
signs and returns is about the account on the chain of the request, if and only if the registered
address and the session's data are that account's. -/
theorem deployment_agrees_iff (K : Crates) (hex : ∀ f, K.feltFromHex (addressHex f) = some f)
    (mnemonic : String) (client : PairedClient) (params : Json) (tr : Trace)
    (r : Except WalletRpcError Json) (hrun : Ran (handleDeployAccount K client params) tr r)
    (hlegal : ∀ e ∈ tr, OneWallet K mnemonic e.1 e.2) :
    ((∀ e ∈ tr, quiet e.1 = true) ∧ ∃ e, r = .error e) ∨
    ∃ q before after, tr = before ++ after ∧
      Ran (deploymentRequest K client params) before (.ok q) ∧
      (Agrees K mnemonic q before ↔ SameAccount K mnemonic params q) ∧
      (∀ e ∈ after, SignedFor K mnemonic q e.1 e.2) ∧
      ∀ v, r = .ok v → v.get? "contract_address" = some (.str q.account.address) := by
  rw [handleDeployAccount_eq] at hrun
  rcases hrun.bind with ⟨q, before, after, rfl, hrequest, hanswer⟩ | ⟨e, hrequest, rfl⟩
  · refine .inr ⟨q, before, after, rfl, hrequest, ?_, fun e he => ?_, ?_⟩
    · exact agrees_iff hex (requested_of_ran hrequest) fun e he =>
        hlegal e (List.mem_append_left _ he)
    · exact signedFor_of_legal ((confined_deploymentAnswer client params q).of_ran hanswer e he)
        (hlegal e (List.mem_append_right _ he))
    · rintro v rfl
      obtain ⟨p, signed, -, -, hresponds⟩ := responds_of_ran hanswer
      exact hresponds.get_contract_address
  · exact .inl ⟨(quiet_deploymentRequest K client params).of_ran hrequest, e, rfl⟩

/-! ### An account registered on another chain -/

/-- Stand-ins whose accounts have another address on each chain. -/
def splitCrates : Crates :=
  { plainCrates with ozDeployment := fun chain pk => some ⟨chain.asFelt, 1, 0, [pk]⟩ }

/-- An account of the wallet with the given address. -/
def ownAccount (address : Felt) : AccountRef :=
  ⟨.user, 0, addressHex address, "Main", .openZeppelin, none⟩

/-- A session on the main network with one account. -/
def mainSession (account : AccountRef) : WalletSession :=
  ⟨.mainnet, some ⟨"seed", "pass", ⟨[account]⟩⟩⟩

/-- A service without nodes, whose user approves. -/
def approvingAll (K : Crates) (account : AccountRef) : (op : Op) → Option (Ans op)
  | .session => some (mainSession account)
  | .nodeFor _ => some false
  | .clock _ => some 0
  | .requestApproval _ => some .approve
  | .signDeployAccount a chain p =>
      some (liftCore (signDeployAccountV3 K "seed" a.domain a.index chain p a.contract))
  | _ => none

theorem oneWallet_approvingAll {K : Crates} {account : AccountRef} (op : Op) (a : Ans op)
    (h : approvingAll K account op = some a) : OneWallet K "seed" op a := by
  cases op with
  | session =>
      cases h
      rintro u hu
      cases hu
      rfl
  | signDeployAccount => exact .inr (Option.some.inj h).symm
  | _ => trivial

def app : PairedClient := ⟨"client-1", "App", .app, none, ""⟩

/-- A deployment on the test network with the given fee, to be signed only. -/
def onSepolia : Json :=
  let none := Json.obj []
  .obj [("chainId", .str (feltHex ChainId.sepolia.asFelt)),
    ("resource_bounds", .obj [("l1_gas", none), ("l2_gas", none), ("l1_data_gas", none)])]

/-- An account registered on the main network is signed for at its address on the test network, and
the response names the registered address. -/
theorem deployment_disagrees : ∃ tr v signed p,
    Ran (handleDeployAccount splitCrates app onSepolia) tr (.ok v) ∧
    (∀ e ∈ tr, OneWallet splitCrates "seed" e.1 e.2) ∧
    (⟨.signDeployAccount (ownAccount ChainId.mainnet.asFelt) .sepolia p, .ok signed⟩ :
      Event Op Ans) ∈ tr ∧
    v.get? "contract_address" ≠ some (.str (addressHex signed.address)) := by
  let account := ownAccount ChainId.mainnet.asFelt
  let signed : SignedDeployAccount := ⟨0, ChainId.sepolia.asFelt, 1, 0, [1], [1, 0], 1, 0⟩
  have hend : answered (approvingAll splitCrates account)
      (handleDeployAccount splitCrates app onSepolia).run =
        some (.ok (signedResponse account signed)) := by rfl
  refine ⟨_, _, signed, _, follows_replay hend, forall_mem_replay oneWallet_approvingAll _,
    List.mem_of_getElem? (i := 5) (by rfl), fun h => ?_⟩
  have haddress : addressHex ChainId.mainnet.asFelt = addressHex ChainId.sepolia.asFelt :=
    Json.str.inj (Option.some.inj h)
  exact absurd haddress (by decide +kernel)

theorem plainCrates_addressHex (f : Felt) : plainCrates.feltFromHex (addressHex f) = some f := by
  simp only [plainCrates, addressHex]
  rw [stripPrefix_append, Option.getD_some, parseRadix_hexPadded 64 f.isLt, Option.map_some,
    Felt.ofNat_val]

theorem answered_plain : answered (approvingAll plainCrates (ownAccount 1))
    (handleDeployAccount plainCrates app onSepolia).run =
      some (.ok (signedResponse (ownAccount 1) ⟨0, 1, 1, 0, [1], [1, 0], 1, 0⟩)) := by
  rfl

/-- A deployment on the test network, to be broadcast, that leaves the fee to the node. -/
def estimatedOnSepolia : Json :=
  .obj [("chainId", .str (feltHex ChainId.sepolia.asFelt)), ("submit", .bool true)]

/-- What a node without contracts answers: an estimate, and the hash of a transaction sent to it. -/
def nodeReply (method : String) : Json :=
  if method = "starknet_getClassHashAt" then .obj [("error", .str "Contract not found")]
  else if method = "starknet_getNonce" then .obj [("result", .str "0x0")]
  else if method = "starknet_estimateFee" then
    .obj [("result", .arr [sampleEstimate "0x2" "0x4"])]
  else .obj [("result", .obj [("transaction_hash", .str "0x9")])]

/-- A service with a node for every chain, whose user approves. -/
def deployingNode : (op : Op) → Option (Ans op)
  | .nodeFor _ => some true
  | .nodeRpc _ method _ => some (.body (nodeReply method))
  | op => approvingAll plainCrates (ownAccount 1) op

theorem oneWallet_deployingNode (op : Op) (a : Ans op) (h : deployingNode op = some a) :
    OneWallet plainCrates "seed" op a := by
  cases op with
  | nodeFor => trivial
  | nodeRpc => trivial
  | _ => exact @oneWallet_approvingAll plainCrates (ownAccount 1) _ _ h

/-- What the handler holds when it asks the user about `estimatedOnSepolia`. -/
def estimatedDeployment : Deployment where
  account := ownAccount 1
  chain := .sepolia
  session := mainSession (ownAccount 1)
  data := ⟨1, 1, 0, [1]⟩
  bounds := ⟨⟨0, 15000000000⟩, ⟨3, 1500000000⟩, ⟨192, 6⟩⟩

theorem answered_estimatedDeployment : answered deployingNode
    (deploymentRequest plainCrates app estimatedOnSepolia).run = some (.ok estimatedDeployment) := by
  rfl

theorem sameAccount_estimatedDeployment :
    SameAccount plainCrates "seed" estimatedOnSepolia estimatedDeployment :=
  ⟨⟨1, 1, 0, [1]⟩, rfl, rfl, fun _ => ⟨⟨1, 1, 0, [1]⟩, rfl, rfl, rfl, rfl⟩⟩

/-- An account with one address on all chains is deployed as the request says, in a session that is
set to another chain than the request's: the node is asked about its address, for the fee of its
deployment and to broadcast it. -/
theorem deployment_agrees_iff_estimated : ∃ tr before after v, tr = before ++ after ∧
    Ran (handleDeployAccount plainCrates app estimatedOnSepolia) tr (.ok v) ∧
    estimatedDeployment.session.chain ≠ estimatedDeployment.chain ∧
    (∃ e ∈ before, e.1 = .nodeRpc .sepolia "starknet_estimateFee"
      (estimateParams estimatedDeployment.data)) ∧
    (∃ e ∈ tr, ∃ params, e.1 = .nodeRpc .sepolia "starknet_addDeployAccountTransaction" params) ∧
    Agrees plainCrates "seed" estimatedDeployment before ∧
    v.get? "contract_address" = some (.str (ownAccount 1).address) := by
  obtain ⟨v, hend⟩ : ∃ v, answered deployingNode
      (handleDeployAccount plainCrates app estimatedOnSepolia).run = some (.ok v) := ⟨_, by rfl⟩
  have hrun := follows_replay hend
  have hreplay := forall_mem_replay (P := fun op a => deployingNode op = some a) (fun _ _ h => h)
    (handleDeployAccount plainCrates app estimatedOnSepolia).run
  have hsent : ∃ e ∈ replay deployingNode (handleDeployAccount plainCrates app
      estimatedOnSepolia).run, ∃ params,
      e.1 = .nodeRpc .sepolia "starknet_addDeployAccountTransaction" params :=
    ⟨⟨.nodeRpc .sepolia _ _, HttpReply.body _⟩, List.mem_of_getElem? (i := 10) (by rfl), _, rfl⟩
  rcases deployment_agrees_iff plainCrates plainCrates_addressHex "seed" app estimatedOnSepolia _ _
    hrun (fun e he => oneWallet_deployingNode e.1 e.2 (hreplay e he)) with
    ⟨-, e, he⟩ | ⟨q, before, after, htr, hq, hiff, hafter, hv⟩
  · cases he
  · rw [htr] at hreplay hrun
    have hanswered := answered_of_follows hq rfl fun e he => hreplay e (List.mem_append_left _ he)
    rw [answered_estimatedDeployment] at hanswered
    cases hanswered
    obtain ⟨e, he, hop⟩ := (requested_of_ran hq).asked (by rfl)
    exact ⟨_, before, after, v, rfl, hrun, by decide, ⟨e, he, hop⟩, htr ▸ hsent,
      hiff.2 sameAccount_estimatedDeployment, hv v rfl⟩

/-! ## A deployment that is only signed -/

/-- The hash of the response is that of the fields of its transaction. -/
def Recomputes (K : Crates) (address : Felt → Felt → List Felt → Felt) (chain : ChainId)
    (v : Json) : Prop :=
  ∃ tx x, v.get? "signed_transaction" = some tx ∧ Wire.deployAccount address chain tx = some x ∧
    v.get? "transaction_hash" = some (.str (feltHex (K.deployAccountV3Hash x)))

/-- The transaction of the response, with its signature, has the fields of the transaction `tx`. -/
def Broadcasts (tx v : Json) : Prop :=
  ∃ fields signature, v.get? "signed_transaction" = some (.obj fields) ∧
    v.get? "signature" = some signature ∧
    ∀ key, (Json.obj (("signature", signature) :: fields)).get? key = tx.get? key

theorem deployAccount_signedFields (address : Felt → Felt → List Felt → Felt) (chain : ChainId)
    (signed : SignedDeployAccount) :
    Wire.deployAccount address chain (signedFields signed) = none := by
  have hbounds : (signedFields signed).get? "resource_bounds" = none := rfl
  rw [Wire.deployAccount, hbounds]
  rfl

theorem not_recomputes (K : Crates) (address : Felt → Felt → List Felt → Felt) (chain : ChainId)
    (account : AccountRef) (signed : SignedDeployAccount) :
    ¬ Recomputes K address chain (signedResponse account signed) := by
  rintro ⟨tx, x, htx, hread, -⟩
  cases htx
  rw [deployAccount_signedFields] at hread
  cases hread

theorem not_broadcasts (account : AccountRef) (signed : SignedDeployAccount) (bounds : FeeBounds) :
    ¬ Broadcasts (broadcastTx signed bounds) (signedResponse account signed) := by
  rintro ⟨fields, signature, hfields, -, h⟩
  cases hfields
  have hbounds := h "resource_bounds"
  cases hbounds

/-- Nobody can tell from the response to a deployment that is only signed what was signed: the fee
bounds are left out, and with them the tip, the paymaster data and the data-availability modes. -/
theorem signOnly_incomplete (K : Crates) (client : PairedClient) (params : Json) (tr : Trace)
    (v : Json) (hrun : Ran (handleDeployAccount K client params) tr (.ok v))
    (hsubmit : paramFlag params "submit" = false) :
    ∃ account chain p signed bounds,
      (⟨.signDeployAccount account chain p, .ok signed⟩ : Event Op Ans) ∈ tr ∧
      p = { nonce := 0, l1Gas := bounds.l1Gas, l2Gas := bounds.l2Gas,
            l1DataGas := bounds.l1DataGas } ∧
      v = signedResponse account signed ∧
      (∀ address, ¬ Recomputes K address chain v) ∧ ¬ Broadcasts (broadcastTx signed bounds) v := by
  rw [handleDeployAccount_eq] at hrun
  obtain ⟨q, before, after, rfl, -, hanswer⟩ := hrun.bind_ok
  obtain ⟨p, signed, hsigned, hp, hresponds⟩ := responds_of_ran hanswer
  rw [hsubmit] at hresponds
  cases hresponds with
  | broadcast h => cases h
  | signed =>
      exact ⟨_, _, p, signed, q.bounds, List.mem_append_right _ hsigned, hp, rfl,
        fun address => not_recomputes K address q.chain q.account signed,
        not_broadcasts q.account signed q.bounds⟩

theorem signOnly_incomplete_plain : ∃ account chain, ∃ p : InvokeV3Params, ∃ signed bounds,
    p = { nonce := 0, l1Gas := bounds.l1Gas, l2Gas := bounds.l2Gas,
          l1DataGas := bounds.l1DataGas } ∧
    (∀ address, ¬ Recomputes plainCrates address chain (signedResponse account signed)) ∧
    ¬ Broadcasts (broadcastTx signed bounds) (signedResponse account signed) := by
  have hrun := follows_replay answered_plain
  obtain ⟨account, chain, p, signed, bounds, -, hp, hv, h⟩ :=
    signOnly_incomplete plainCrates app onSepolia _ _ hrun (by decide +kernel)
  rw [hv] at h
  exact ⟨account, chain, p, signed, bounds, hp, h⟩

/-- An account signed for with a fee of zero. -/
theorem signOnly_unreadable : ∃ tr v,
    Ran (handleDeployAccount plainCrates app onSepolia) tr (.ok v) ∧
    paramFlag onSepolia "submit" = false ∧
    (∀ address, ¬ Recomputes plainCrates address .sepolia v) ∧
    ∀ signed bounds, v = signedResponse (ownAccount 1) signed →
      ¬ Broadcasts (broadcastTx signed bounds) v := by
  refine ⟨_, _, follows_replay answered_plain, by decide +kernel,
    fun address => not_recomputes plainCrates address .sepolia _ _, ?_⟩
  rintro signed bounds h
  rw [h]
  exact not_broadcasts _ signed bounds

end Strkd.Rpc
