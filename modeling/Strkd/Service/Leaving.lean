import Strkd.Lib.Since
import Strkd.Rpc.Carried
import Strkd.Rpc.Unsent
import Strkd.Service.Audit
import Strkd.Service.Declares

/-!
# What leaves the wallet

Whatever the service hands to a node or a prover, or gives back to be broadcast by the caller, is a
transaction that the same task has had signed, on the same chain, and it carries exactly what the
signature was made over.  The reader of the wire shares nothing with the code that prints the
transactions, and the V3 hashes are any functions of their arguments.
-/

namespace Strkd.Service

open Wallet Prover Rpc

/-! ## Transactions as they were signed -/

section

variable (K : Crates) (address : Felt → Felt → List Felt → Felt) (tr : Trace) (chain : ChainId)

/-- The transaction `tx` of a kind, read off the wire on `chain`, gives the hash that one of the
signatures in `tr` was made over, and carries that signature. -/
inductive AsSigned : String → Json → Prop
  | invoke (account : AccountRef) (calls : List Call) (p : InvokeV3Params) (signed : SignedInvoke)
      (tx : Json) (x : InvokeV3)
      (hsigned : (⟨.signInvoke account calls chain p, .ok signed⟩ : Event Op Ans) ∈ tr)
      (hv3 : Wire.isV3 "INVOKE" tx) (hsignature : Wire.signature tx = some signed.signature)
      (hread : Wire.invoke chain tx = some x) (hhash : K.invokeV3Hash x = signed.transactionHash) :
      AsSigned "INVOKE" tx
  /-- A proof invocation, whose hash is signed as such. -/
  | invocation (account : AccountRef) (hash : Felt) (signature : List Felt) (tx : Json)
      (x : InvokeV3) (hsigned : (⟨.signHash account hash, .ok signature⟩ : Event Op Ans) ∈ tr)
      (hv3 : Wire.isV3 "INVOKE" tx) (hsignature : Wire.signature tx = some signature)
      (hread : Wire.invoke chain tx = some x) (hhash : K.invokeV3Hash x = hash) :
      AsSigned "INVOKE" tx
  /-- A declaration; the class, where it is there, has the hash that was signed. -/
  | declare (account : AccountRef) (classHash compiledClassHash : Felt) (p : InvokeV3Params)
      (signed : SignedDeclare) (tx : Json) (x : DeclareV3)
      (hsigned : (⟨.signDeclare account classHash compiledClassHash chain p, .ok signed⟩ :
        Event Op Ans) ∈ tr)
      (hv3 : Wire.isV3 "DECLARE" tx) (hsignature : Wire.signature tx = some signed.signature)
      (hclass : tx.get? "contract_class" ≠ none → Wire.classHash K tx = some classHash)
      (hread : Wire.declare chain classHash tx = some x)
      (hhash : K.declareV3Hash x = signed.transactionHash) : AsSigned "DECLARE" tx
  | deploy (account : AccountRef) (p : InvokeV3Params) (signed : SignedDeployAccount) (tx : Json)
      (x : DeployAccountV3)
      (hsigned : (⟨.signDeployAccount account chain p, .ok signed⟩ : Event Op Ans) ∈ tr)
      (hv3 : Wire.isV3 "DEPLOY_ACCOUNT" tx) (hsignature : Wire.signature tx = some signed.signature)
      (hread : Wire.deployAccount address chain tx = some x)
      (hhash : K.deployAccountV3Hash x = signed.transactionHash) : AsSigned "DEPLOY_ACCOUNT" tx

/-- The payload of a prover's job on a network is a transaction as it was signed. -/
def ProvesSigned (payload : Json) (network : String) : Prop :=
  ∃ chain tx, network = proverNetwork chain ∧ payload.get? "transaction" = some tx ∧
    AsSigned K address tr chain "INVOKE" tx

/-- What a method of the node broadcasts: the kind of the transaction, and where it stands. -/
def broadcastOf (method : String) : Option (String × String) :=
  if method = "starknet_addInvokeTransaction" then some ("INVOKE", "invoke_transaction")
  else if method = "starknet_addDeclareTransaction" then some ("DECLARE", "declare_transaction")
  else if method = "starknet_addDeployAccountTransaction" then
    some ("DEPLOY_ACCOUNT", "deploy_account_transaction")
  else none

/-- What an operation hands on is as it was signed before; a prover's job only where it is the
wallet's `own`. -/
def LeavesAsSigned (own : Bool) : Op → Prop
  | .nodeRpc chain method params => ∀ kind key, broadcastOf method = some (kind, key) →
      ∃ tx, params = .obj [(key, tx)] ∧ AsSigned K address tr chain kind tx
  | .remoteProve _ chain _ tx => AsSigned K address tr chain "INVOKE" tx
  | .prove payload _ network => own = true → ProvesSigned K address tr payload network
  | .spawnProve job => own = true → ProvesSigned K address tr job.payload job.network
  | _ => True

/-- The transaction in an answer, where there is one, is as it was signed. -/
def ReturnsSigned (v : Json) : Prop :=
  ∀ tx, v.get? "signed_transaction" = some tx → ∃ chain kind, AsSigned K address tr chain kind tx

end

/-- Signatures come from some session of the wallet. -/
def FromSession (K : Crates) : (op : Op) → Ans op → Prop
  | .signInvoke account calls chain p, a =>
      ∃ s : WalletSession, a = s.signInvokeFor K account calls chain p
  | .signDeclare account classHash compiled chain p, a =>
      ∃ s : WalletSession, a = s.signDeclareFor K account classHash compiled chain p
  | .signDeployAccount account chain p, a =>
      ∃ s : WalletSession, a = s.signDeployAccountFor K account chain p
  | _, _ => True

theorem fromSession_of_answers {K : Crates} {w : World} {pid : ℕ} {op : Op} {a : Ans op}
    (h : w.Answers K pid op a) : FromSession K op a := by
  cases op with
  | signInvoke account calls chain p => exact ⟨_, h.2⟩
  | signDeclare account classHash compiled chain p => exact ⟨_, h.2⟩
  | signDeployAccount account chain p => exact ⟨_, h.2⟩
  | _ => trivial

/-- What is handed on is as it was signed, and signatures come from the wallet. -/
def leaveRules (K : Crates) (address : Felt → Felt → List Felt → Felt) (own : Bool) :
    Rules Op Ans where
  allows tr := LeavesAsSigned K address tr own
  legal _ := FromSession K

section

variable {K : Crates} {address : Felt → Felt → List Felt → Felt} {tr tr' : Trace} {own : Bool}

theorem AsSigned.mono {chain : ChainId} {kind : String} {tx : Json}
    (h : AsSigned K address tr chain kind tx) (htr : tr <+: tr') :
    AsSigned K address tr' chain kind tx := by
  cases h with
  | invoke account calls p signed tx x hsigned hv3 hsignature hread hhash =>
      exact .invoke account calls p signed _ x (htr.subset hsigned) hv3 hsignature hread hhash
  | invocation account hash signature tx x hsigned hv3 hsignature hread hhash =>
      exact .invocation account hash signature _ x (htr.subset hsigned) hv3 hsignature hread hhash
  | declare account classHash compiled p signed tx x hsigned hv3 hsignature hclass hread hhash =>
      exact .declare account classHash compiled p signed _ x (htr.subset hsigned) hv3 hsignature
        hclass hread hhash
  | deploy account p signed tx x hsigned hv3 hsignature hread hhash =>
      exact .deploy account p signed _ x (htr.subset hsigned) hv3 hsignature hread hhash

theorem ProvesSigned.mono {payload : Json} {network : String}
    (h : ProvesSigned K address tr payload network) (htr : tr <+: tr') :
    ProvesSigned K address tr' payload network := by
  obtain ⟨chain, tx, hnetwork, hpayload, h⟩ := h
  exact ⟨chain, tx, hnetwork, hpayload, h.mono htr⟩

theorem LeavesAsSigned.mono {op : Op} (h : LeavesAsSigned K address tr own op) (htr : tr <+: tr') :
    LeavesAsSigned K address tr' own op := by
  cases op with
  | nodeRpc chain method params =>
      intro kind key hkey
      obtain ⟨tx, hparams, h⟩ := h kind key hkey
      exact ⟨tx, hparams, h.mono htr⟩
  | remoteProve prover chain block tx => exact AsSigned.mono h htr
  | prove payload label network => exact fun hown => (h hown).mono htr
  | spawnProve job => exact fun hown => (h hown).mono htr
  | _ => trivial

theorem returnsSigned_of_none {v : Json} (h : v.get? "signed_transaction" = none) :
    ReturnsSigned K address tr v := by
  intro tx htx
  rw [h] at htx
  cases htx

/-- What hands no transaction on is allowed. -/
theorem leaves_of_withholding {op : Op} (h : sendsOut op = false) :
    LeavesAsSigned K address tr own op := by
  cases op with
  | nodeRpc chain method params =>
      intro kind key hkey
      have hmem : method ∉ broadcastMethods := by
        simpa [sendsOut, List.contains_iff_mem] using h
      simp only [broadcastMethods, List.mem_cons, List.not_mem_nil, or_false, not_or] at hmem
      simp [broadcastOf, hmem.1, hmem.2.1, hmem.2.2] at hkey
  | remoteProve prover chain block tx => cases h
  | prove payload label network => cases h
  | spawnProve job => cases h
  | _ => trivial

/-! ## Walking through a computation -/

variable {ε α β : Type} {Q : Trace → β → Prop}

theorem obeys_withholding {m : Handler ε Op Ans α} (hm : Withholding m) :
    Obeys (leaveRules K address own) tr m fun _ _ => True :=
  (Confined.serves (I := fun _ => True) hm (fun _ _ _ h => leaves_of_withholding h)
    (fun _ _ _ _ _ => trivial) trivial)

/-- First something that hands no transaction on, then the rest. -/
theorem Obeys.withholding {m : Handler ε Op Ans α} {f : α → Handler ε Op Ans β}
    (hm : Withholding m)
    (hf : ∀ tr' a, tr <+: tr' → Obeys (leaveRules K address own) tr' (f a) Q) :
    Obeys (leaveRules K address own) tr (m >>= f) Q :=
  Serves.bind (obeys_withholding hm) fun tr' a htr _ => hf tr' a htr

theorem obeys_idle {m : Handler ε Op Ans α} (hm : Idling m) :
    Obeys (leaveRules K address own) tr m fun _ _ => True := obeys_withholding hm.withholding

theorem Obeys.idle {m : Handler ε Op Ans α} {f : α → Handler ε Op Ans β} (hm : Idling m)
    (hf : ∀ tr' a, tr <+: tr' → Obeys (leaveRules K address own) tr' (f a) Q) :
    Obeys (leaveRules K address own) tr (m >>= f) Q := .withholding hm.withholding hf

/-- A branch that hands no transaction on, then the rest. -/
theorem Obeys.exit {p : Prop} [Decidable p] {leave : Handler ε Op Ans Unit}
    {f : Unit → Handler ε Op Ans β} (hleave : Withholding leave)
    (hf : ∀ tr', tr <+: tr' → Obeys (leaveRules K address own) tr' (f ()) Q) :
    Obeys (leaveRules K address own) tr (if p then leave >>= f else f ()) Q := by
  by_cases hp : p
  · rw [if_pos hp]
    exact .withholding hleave fun tr' _ htr => hf tr' htr
  · rw [if_neg hp]
    exact hf tr (List.prefix_refl tr)

/-- First a signature, then the rest. -/
theorem Obeys.signing {op : Op} {f : Ans op → Handler ε Op Ans β} (hop : sendsOut op = false)
    (hf : ∀ a, FromSession K op a →
      Obeys (leaveRules K address own) (tr ++ [⟨op, a⟩]) (f a) Q) :
    Obeys (leaveRules K address own) tr (ExceptT.lift (Prog.perform op) >>= f) Q :=
  ⟨leaves_of_withholding hop, fun a ha => hf a ha⟩

/-- A transaction as it was signed may be broadcast. -/
theorem obeys_call {chain : ChainId} {method kind key : String} {tx : Json}
    (hmethod : broadcastOf method = some (kind, key)) (h : AsSigned K address tr chain kind tx) :
    Obeys (leaveRules K address own) tr (Node.call chain method (.obj [(key, tx)]))
      fun _ _ => True := by
  refine Obeys.act (fun kind' key' hkey => ?_) fun reply => serves_lift (fun _ _ => trivial)
    fun _ _ => trivial
  rw [hmethod] at hkey
  cases hkey
  exact ⟨tx, rfl, h⟩

end

/-! ## Invokes -/

section Handlers

variable {K : Crates} {S : Setup} {address : Felt → Felt → List Felt → Felt} {tr : Trace}
variable {own : Bool}

/-- The parameters an invoke is signed with, for a nonce, fee bounds and proof facts. -/
abbrev signingParams (nonce : Felt) (bounds : FeeBounds) (proofFacts : List Felt) :
    InvokeV3Params where
  nonce
  l1Gas := bounds.l1Gas
  l2Gas := bounds.l2Gas
  l1DataGas := bounds.l1DataGas
  proofFacts

/-- The invoke printed for a signature is as it was signed. -/
theorem asSigned_invoke (tr : Trace) (address : Felt → Felt → List Felt → Felt) {chain : ChainId}
    {account : AccountRef} {calls : List Call} {nonce : Felt} {bounds : FeeBounds}
    {proofFacts : List Felt} {sender : Felt} {s : WalletSession} {signed : SignedInvoke}
    (proof : Option String) (hsender : K.feltFromHex account.address = some sender)
    (hanswer : .ok signed =
      s.signInvokeFor K account calls chain (signingParams nonce bounds proofFacts)) :
    AsSigned K address
      (tr ++ [⟨.signInvoke account calls chain (signingParams nonce bounds proofFacts),
        .ok signed⟩])
      chain "INVOKE"
      (invokeV3TxJson sender signed.calldata signed.signature nonce bounds proofFacts proof) := by
  obtain ⟨sender', hsender', hhash, hcalldata⟩ := WalletSession.signInvokeFor_eq_ok hanswer.symm
  cases hsender.symm.trans hsender'
  obtain ⟨hv3, hsignature, x, hread, hx⟩ := invokeV3TxJson_signed K chain sender calls
    signed.signature nonce bounds proofFacts proof
  rw [hcalldata]
  exact .invoke account calls _ signed _ x (List.mem_append_right tr List.mem_cons_self) hv3
    hsignature hread (hx.trans hhash.symm)

theorem obeys_addInvoke {chain : ChainId} {sender : Felt} {calldata signature : List Felt}
    {nonce : Felt} {bounds : FeeBounds} {proofFacts : List Felt} {proof : Option String}
    (h : AsSigned K address tr chain "INVOKE"
      (invokeV3TxJson sender calldata signature nonce bounds proofFacts proof)) :
    Obeys (leaveRules K address own) tr
      (Node.addInvoke K chain sender calldata signature nonce bounds proofFacts proof)
      fun _ _ => True :=
  Serves.bind (obeys_call rfl h) fun _ _ _ _ => serves_lift (fun _ _ => trivial) fun _ _ => trivial

theorem obeys_signAndSubmit {chain : ChainId} {account : AccountRef} {calls : List Call}
    {nonce : Felt} {bounds : FeeBounds} {submit : Bool} {proofFacts : List Felt}
    {proof : Option String} :
    Obeys (leaveRules K address own) tr
      (signAndSubmit K chain account calls nonce bounds submit proofFacts proof)
      (ReturnsSigned K address) := by
  refine Obeys.signing rfl fun answer ⟨s, hanswer⟩ => Obeys.propagate fun signed hok => ?_
  subst hok
  refine Obeys.lift fun sender hsender => ?_
  have htx := asSigned_invoke tr address proof
    (WalletSession.storedAddress_eq_ok hsender) hanswer
  split
  · refine Obeys.withholding (reading_requireNode chain).withholding fun tr' _ htr => ?_
    refine Serves.bind (Obeys.mapErr (obeys_addInvoke (htx.mono htr))) fun _ hash _ _ => ?_
    exact serves_pure (returnsSigned_of_none rfl)
  · refine serves_pure fun tx hreturned => ?_
    cases hreturned
    exact ⟨chain, _, htx⟩

theorem obeys_handleAddInvoke {client : PairedClient} {params : Json} :
    Obeys (leaveRules K address own) tr (handleAddInvoke K client params)
      (ReturnsSigned K address) := by
  refine .lift fun _ _ => .lift fun want _ => .lift fun calls _ => .lift fun proofFacts _ =>
    .lift fun proof _ => .refuse fun _ => ?_
  exact .idle (idle_scopedAccount ..) fun _ account _ => .lift fun sender _ =>
    .idle (idle_resolveChain ..) fun _ chain _ =>
    .withholding (reading_resolveExec ..).withholding fun _ exec _ =>
    .idle (idle_gatedApproval ..) fun _ _ _ => .lift fun _ _ => obeys_signAndSubmit

theorem returnsSigned_insertFields {v : Json} {fields : List (String × Json)}
    (h : ReturnsSigned K address tr v)
    (hfields : (Json.obj fields).get? "signed_transaction" = none) :
    ReturnsSigned K address tr (insertFields fields v) := by
  intro tx htx
  refine h tx ?_
  cases v with
  | obj old =>
      change (old ++ fields).lookup "signed_transaction" = some tx at htx
      change fields.lookup "signed_transaction" = none at hfields
      rwa [List.lookup_append, hfields, Option.or_none] at htx
  | _ => exact htx

theorem obeys_handleRequestFunding {client : PairedClient} {params : Json} :
    Obeys (leaveRules K address own) tr (handleRequestFunding K client params)
      (ReturnsSigned K address) := by
  unfold handleRequestFunding
  refine .refuse fun _ => ?_
  dsimp only
  refine .lift fun amount _ => ?_
  refine .refuse fun _ => ?_
  split
  · refine .lift fun managerIndex _ => .idle (idle_scopedAccountOr ..)
      fun _ recipient _ => .lift fun toAddr _ => .withholding (withholding_act rfl) fun _ s _ =>
      .lift fun manager _ => ?_
    split
    · refine .idle (idle_resolveChain ..) fun _ chain _ =>
        .withholding (reading_requireDeployed ..).withholding fun _ _ _ =>
        .withholding (reading_resolveExec ..).withholding fun _ exec _ =>
        .withholding (withholding_act rfl) fun _ _ _ => .lift fun _ _ =>
        Serves.bind obeys_signAndSubmit fun _ v _ hv => ?_
      exact serves_pure (returnsSigned_insertFields hv rfl)
    · exact serves_throw trivial
  · exact serves_throw trivial

theorem obeys_signAndEnqueue {chain : ChainId} {account : AccountRef} {sender : Felt}
    {calls : List Call} {nonce : Felt} {bounds : FeeBounds} {params : Json}
    (hsender : K.feltFromHex account.address = some sender) :
    Obeys (leaveRules K address own) tr
      (signAndEnqueue chain account sender calls nonce bounds params) fun _ _ => True := by
  refine Obeys.signing rfl fun answer ⟨s, hanswer⟩ => Obeys.propagate fun signed hok => ?_
  subst hok
  have htx := asSigned_invoke tr address none hsender hanswer
  refine Serves.bind (Q := fun _ _ => True) ?_ fun _ _ _ _ => serves_pure trivial
  refine Obeys.withholding (withholding_act rfl) fun tr' _ htr =>
    .withholding (withholding_act rfl) fun tr'' _ htr' => ?_
  exact Obeys.act (fun _ => ⟨chain, _, rfl, rfl, htx.mono (htr.trans htr')⟩) fun _ =>
    serves_pure trivial

theorem obeys_handleSignAndProve {client : PairedClient} {params : Json} :
    Obeys (leaveRules K address own) tr (handleSignAndProve K S client params) fun _ _ => True := by
  refine .lift fun _ _ => .lift fun _ _ => .lift fun want _ => .lift fun calls _ =>
    .idle (idle_resolveChain ..) fun _ chain _ =>
    .idle (idle_scopedAccount ..) fun _ account _ => .lift fun sender hsender =>
    .withholding (reading_resolveNonce ..).withholding fun _ nonce _ => .lift fun bounds _ => ?_
  cases bounds with
  | none => exact serves_throw trivial
  | some bounds =>
      exact .idle (idle_gatedApproval ..) fun _ _ _ => .lift fun _ _ =>
        obeys_signAndEnqueue (WalletSession.storedAddress_eq_ok hsender)

/-! ## Declarations -/

theorem obeys_signAndDeclare {chain : ChainId} {account : AccountRef}
    {sender classHash compiledClassHash : Felt} {classJson : Option Json} {nonce : Felt}
    {bounds : FeeBounds} {submit : Bool} (hsender : K.feltFromHex account.address = some sender)
    (hclass : ∀ cc, classJson = some cc → HashesTo K cc classHash) :
    Obeys (leaveRules K address own) tr (signAndDeclare K chain account sender classHash
      compiledClassHash classJson nonce bounds submit) (ReturnsSigned K address) := by
  refine Obeys.signing rfl fun answer ⟨s, hanswer⟩ => Obeys.propagate fun signed hok => ?_
  subst hok
  obtain ⟨sender', hsender', hhash⟩ := WalletSession.signDeclareFor_eq_ok hanswer.symm
  cases hsender.symm.trans hsender'
  have htx : AsSigned K address (tr ++ [⟨.signDeclare account classHash compiledClassHash chain
      { nonce, l1Gas := bounds.l1Gas, l2Gas := bounds.l2Gas, l1DataGas := bounds.l1DataGas },
      .ok signed⟩]) chain "DECLARE"
      (declareV3TxJson sender compiledClassHash classJson signed.signature nonce bounds) := by
    obtain ⟨hv3, hsignature, x, hread, hx⟩ := declareV3TxJson_signed K chain sender classHash
      compiledClassHash classJson signed.signature nonce bounds
    refine .declare account classHash compiledClassHash _ signed _ x
      (List.mem_append_right tr List.mem_cons_self) hv3 hsignature ?_ hread (hx.trans hhash.symm)
    rw [contractClass_declareV3TxJson]
    intro hne
    obtain ⟨cc, hcc⟩ := Option.ne_none_iff_exists'.1 hne
    obtain ⟨c, hparsed, hc⟩ := hclass cc hcc
    rw [Wire.classHash, contractClass_declareV3TxJson, hcc]
    simp [hparsed, hc]
  split
  · refine Obeys.withholding (reading_requireNode chain).withholding fun tr' _ htr => ?_
    cases classJson with
    | none => exact serves_throw trivial
    | some cc =>
        have hadd : Obeys (leaveRules K address own) tr' (Node.addDeclare K chain sender
            compiledClassHash cc signed.signature nonce bounds) fun _ _ => True :=
          Serves.bind (obeys_call rfl (htx.mono htr)) fun _ _ _ _ =>
            serves_lift (fun _ _ => trivial) fun _ _ => trivial
        exact Serves.bind (Obeys.mapErr hadd) fun _ _ _ _ =>
          serves_pure (returnsSigned_of_none rfl)
  · refine serves_pure fun tx hreturned => ?_
    cases hreturned
    exact ⟨chain, _, htx⟩

theorem obeys_handleAddDeclare (hex : ∀ f, K.feltFromHex (feltHex f) = some f)
    {client : PairedClient} {params : Json} :
    Obeys (leaveRules K address own) tr (handleAddDeclare K client params)
      (ReturnsSigned K address) :=
  .lift fun _ _ => .lift fun _ _ => .idle (idle_scopedAccount ..)
    fun _ _ _ => .lift fun _ hsender => .lift fun _ hparsed =>
    .lift fun _ _ => .lift fun _ hhash => .lift fun _ _ =>
    .idle (idle_resolveChain ..) fun _ _ _ =>
    .withholding (reading_resolveNonce ..).withholding fun _ _ _ =>
    .withholding (reading_declareBounds ..).withholding fun _ _ _ =>
    .idle (idle_gatedApproval ..) fun _ _ _ => .lift fun _ _ =>
    obeys_signAndDeclare (WalletSession.storedAddress_eq_ok hsender) fun _ hcc =>
      hashesTo_of_declared hex hparsed hhash hcc

/-! ## Deployments -/

theorem signDeployAccountFor_eq_ok {s : WalletSession} {account : AccountRef} {chain : ChainId}
    {p : InvokeV3Params} {signed : SignedDeployAccount}
    (h : s.signDeployAccountFor K account chain p = .ok signed) :
    ∃ pk d, account.contract.deployment K pk chain = .ok d ∧ signed.classHash = d.classHash ∧
      signed.salt = d.salt ∧ signed.constructorCalldata = d.constructorCalldata ∧
      signed.transactionHash = K.deployAccountV3Hash {
        deployment := d, chainId := chain.asFelt, nonce := p.nonce, tip := p.tip, l1Gas := p.l1Gas,
        l2Gas := p.l2Gas, l1DataGas := p.l1DataGas, paymasterData := p.paymasterData,
        nonceDa := .l1, feeDa := .l1 } := by
  simp only [WalletSession.signDeployAccountFor, except_bind_eq_ok] at h
  obtain ⟨u, -, h⟩ := h
  have hsigned := liftCore_eq_ok h
  simp only [signDeployAccountV3, deploymentData, except_bind_eq_ok, except_pure_eq_ok] at hsigned
  obtain ⟨d, ⟨pk, -, hd⟩, sig, -, rfl⟩ := hsigned
  exact ⟨pk, d, hd, rfl, rfl, rfl, rfl⟩

/-- The address of an account is the one its class hash, its salt and its constructor calldata
determine. -/
def Addresses (K : Crates) (address : Felt → Felt → List Felt → Felt) : Prop :=
  ∀ chain pk d, K.ozDeployment chain pk = some d →
    d.address = address d.classHash d.salt d.constructorCalldata

theorem Addresses.deployment {contract : AccountContract} {pk : Felt} {chain : ChainId}
    {d : DeploymentData} (h : Addresses K address) (hd : contract.deployment K pk chain = .ok d) :
    d.address = address d.classHash d.salt d.constructorCalldata := by
  cases contract
  unfold AccountContract.deployment at hd
  cases hoz : K.ozDeployment chain pk with
  | none =>
      rw [hoz] at hd
      cases hd
  | some d' =>
      rw [hoz] at hd
      cases hd
      exact h chain pk _ hoz

theorem asSigned_deploy (haddress : Addresses K address) (tr : Trace) {chain : ChainId}
    {account : AccountRef} {bounds : FeeBounds} {s : WalletSession} {signed : SignedDeployAccount}
    (hanswer : .ok signed = s.signDeployAccountFor K account chain (signingParams 0 bounds [])) :
    AsSigned K address
      (tr ++ [⟨.signDeployAccount account chain (signingParams 0 bounds []), .ok signed⟩])
      chain "DEPLOY_ACCOUNT" (deployAccountTxJson signed.classHash signed.constructorCalldata
        signed.salt signed.signature bounds) := by
  obtain ⟨pk, d, hd, hclass, hsalt, hcalldata, hhash⟩ := signDeployAccountFor_eq_ok hanswer.symm
  rw [hclass, hsalt, hcalldata]
  refine .deploy account _ signed _ _ (List.mem_append_right tr List.mem_cons_self) ⟨rfl, rfl⟩
    (Wire.felts_map _) (wire_deployAccountTxJson ..) ?_
  rw [hhash, ← haddress.deployment hd]

theorem obeys_addDeployAccount {chain : ChainId} {classHash salt : Felt}
    {constructorCalldata signature : List Felt} {bounds : FeeBounds}
    (h : AsSigned K address tr chain "DEPLOY_ACCOUNT"
      (deployAccountTxJson classHash constructorCalldata salt signature bounds)) :
    Obeys (leaveRules K address own) tr
      (Node.addDeployAccount K chain classHash constructorCalldata salt signature bounds)
      fun _ _ => True :=
  Serves.bind (obeys_call rfl h) fun _ _ _ _ => serves_lift (fun _ _ => trivial) fun _ _ => trivial

theorem obeys_signAndDeploy (haddress : Addresses K address) {chain : ChainId}
    {account : AccountRef} {bounds : FeeBounds} {submit : Bool} :
    Obeys (leaveRules K address own) tr (signAndDeploy K chain account bounds submit)
      fun _ _ => True := by
  refine Obeys.signing rfl fun answer ⟨s, hanswer⟩ => Obeys.propagate fun signed hok => ?_
  subst hok
  have htx := asSigned_deploy haddress tr hanswer
  split
  · refine Obeys.withholding (reading_requireNode chain).withholding fun tr' _ htr => ?_
    exact Serves.bind (Obeys.mapErr (obeys_addDeployAccount (htx.mono htr))) fun _ _ _ _ =>
      serves_pure trivial
  · exact serves_pure trivial

theorem obeys_handleDeployAccount (haddress : Addresses K address) {client : PairedClient}
    {params : Json} :
    Obeys (leaveRules K address own) tr (handleDeployAccount K client params) fun _ _ => True :=
  .idle (idle_scopedAccountOr ..) fun _ _ _ =>
    .idle (idle_resolveChain ..) fun _ _ _ =>
    .withholding (reading_requireUndeployed ..).withholding fun _ _ _ =>
    .withholding (withholding_act rfl) fun _ _ _ => .lift fun _ _ =>
    .withholding (reading_deployBounds ..).withholding fun _ _ _ =>
    .idle (idle_gatedApproval ..) fun _ _ _ => .lift fun _ _ =>
    obeys_signAndDeploy haddress

theorem obeys_holdingSession {ε α : Type} {body : Handler ε Op Ans α}
    (h : ∀ tr, Obeys (leaveRules K address own) tr body fun _ _ => True) :
    Obeys (leaveRules K address own) tr (holdingSession body) fun _ _ => True :=
  Obeys.withholding (withholding_act rfl) fun tr' _ _ => Serves.attempt (h tr') fun _ r _ _ =>
    Obeys.withholding (withholding_act rfl) fun _ _ _ => obeys_withholding (withholding_propagate r)

theorem obeys_uiDeployAccount (haddress : Addresses K address) {text : String} :
    Obeys (leaveRules K address own) tr (Desktop.deployAccount K text) fun _ _ => True := by
  unfold Desktop.deployAccount
  split
  · refine obeys_holdingSession fun tr => ?_
    refine .withholding (withholding_act rfl) fun _ s _ =>
      .withholding (withholding_act rfl) fun _ configured _ => ?_
    refine .refuse fun _ => ?_
    refine .withholding (.mapErr (withholding_propagate _)) fun _ reg _ => ?_
    split
    · split
      · refine .idle (idle_fromNode (reading_isDeployed ..).idle)
          fun _ deployed _ => ?_
        refine Obeys.exit (idle_failUi ..).withholding fun _ _ => ?_
        refine .withholding (.mapErr (withholding_propagate _)) fun _ d _ =>
          .idle (idle_fromNode (reading_estimate ..).idle) fun tr' bounds _ =>
          Obeys.signing rfl fun answer ⟨s', hanswer⟩ => ?_
        refine Obeys.orMessage fun signed hok => ?_
        subst hok
        have htx := asSigned_deploy haddress tr' hanswer
        refine Serves.bind (Serves.attempt (obeys_addDeployAccount htx) fun _ r _ _ =>
          obeys_withholding ?_) fun _ hash _ _ => obeys_withholding ?_
        · cases r with
          | ok hash => exact .pure _
          | error e => exact (idle_failUi ..).withholding
        · exact .bind (idle_logUiAction ..).withholding fun _ => .pure _
      · exact serves_throw trivial
    · exact serves_throw trivial
  · exact serves_throw trivial

/-! ## The private batches -/

theorem obeys_ctx {caller : Rpc.Strk20.Caller} {params : Json} :
    Obeys (leaveRules K address own) tr (Rpc.Strk20.ctx K S caller params)
      fun _ c => K.feltFromHex c.account.address = some c.user := by
  refine .idle (idle_resolveChain ..) fun _ chain _ =>
    .idle (idle_callerAccount ..) fun _ account _ => .lift fun user huser =>
    .withholding (reading_requireNode chain).withholding fun _ _ _ => ?_
  have hpool : ∀ (tr : Trace) (cfg : Strk20Config), Obeys (leaveRules K address own) tr (do
      let pool ← Rpc.Strk20.poolFor K cfg chain
      return { account, user, chain, pool, cfg } : Serve Rpc.Strk20.Ctx)
      fun _ c => K.feltFromHex c.account.address = some c.user :=
    fun _ _ => .lift fun _ _ => serves_pure (WalletSession.storedAddress_eq_ok huser)
  split
  · exact .withholding (withholding_act rfl) fun _ cfg _ => hpool _ cfg
  · exact .withholding (.pure _) fun _ cfg _ => hpool _ cfg

theorem obeys_proveUnrecorded {chain : ChainId} {tx : Json} {fields : List (String × Json)}
    {label : Option String} (htx : AsSigned K address tr chain "INVOKE" tx) :
    Obeys (leaveRules K address own) tr (Rpc.Strk20.proveUnrecorded
      (.obj (("transaction", tx) :: fields)) label (proverNetwork chain)) fun _ _ => True := by
  refine .withholding (withholding_act rfl) fun _ now h₁ => .withholding (withholding_act rfl)
    fun _ jobId h₂ => .withholding (withholding_act rfl) fun _ _ h₃ => ?_
  refine Obeys.act (fun _ => ⟨chain, tx, rfl, rfl, htx.mono ((h₁.trans h₂).trans h₃)⟩) fun res => ?_
  refine obeys_withholding ?_
  split
  · exact .bind (withholding_act rfl) fun _ => .pure _
  · exact .bind (withholding_act rfl) fun _ => .pure _

theorem obeys_proveInvocation {c : Rpc.Strk20.Ctx} {method : String} {proving : Rpc.Strk20.Proving}
    {userSk : Felt} {block : ℕ} {tx : Json} (htx : AsSigned K address tr c.chain "INVOKE" tx) :
    Obeys (leaveRules K address own) tr
      (Rpc.Strk20.proveInvocation c method proving userSk block tx) fun _ _ => True := by
  unfold Rpc.Strk20.proveInvocation
  split
  · refine Serves.bind (obeys_proveUnrecorded htx) fun _ res _ _ => obeys_withholding ?_
    split
    · exact .pure _
    · exact .throw _
  · refine Obeys.act htx fun res => obeys_withholding ?_
    split
    · exact .pure _
    · exact .throw _
    · exact .throw _

theorem obeys_signAndProveBatch {c : Rpc.Strk20.Ctx} {method : String}
    {proving : Rpc.Strk20.Proving} {userSk : Felt} {block : ℕ} {plan : Strk20.Plan} :
    Obeys (leaveRules K address own) tr
      (Rpc.Strk20.signAndProveBatch K c method proving userSk block plan) fun _ _ => True := by
  refine .withholding (reading_poolNonce ..).withholding fun tr' nonce _ => Obeys.signing rfl
    fun answer _ => Obeys.propagate fun signature hok => ?_
  subst hok
  obtain ⟨hv3, hsignature, ⟨x, hread, hhash⟩, -⟩ := Strk20.ProofInvocation.hash_toRpcJson K c.pool
    c.chain nonce c.user userSk plan.actions signature
  have htx : AsSigned K address (tr' ++ [⟨.signHash c.account _, .ok signature⟩]) c.chain
      "INVOKE" _ :=
    .invocation c.account _ signature _ x (List.mem_append_right tr' List.mem_cons_self) hv3
      hsignature hread hhash.symm
  refine Serves.bind (obeys_proveInvocation htx) fun _ result _ _ => obeys_withholding ?_
  split
  · exact .throw _
  · split
    · exact .throw _
    · exact .pure _

theorem obeys_prepare {caller : Rpc.Strk20.Caller} {method : String} {c : Rpc.Strk20.Ctx}
    {intent : Strk20.Intent} {proving : Rpc.Strk20.Proving} {submission : String} :
    Obeys (leaveRules K address own) tr
      (Rpc.Strk20.prepare K S caller method c intent proving submission) fun _ _ => True :=
  .lift fun _ _ => .withholding (reading_blockNumber c).withholding fun _ _ _ =>
    .idle (idle_viewingKey c) fun _ _ _ =>
    .withholding (reading_freshPlan ..).withholding fun _ _ _ =>
    .idle (idle_approve ..) fun _ _ _ => obeys_signAndProveBatch

theorem obeys_submitFromAccount {c : Rpc.Strk20.Ctx} {prepared : Rpc.Strk20.Prepared}
    {deposits : List (Felt × U128)} (hc : K.feltFromHex c.account.address = some c.user) :
    Obeys (leaveRules K address own) tr (Rpc.Strk20.submitFromAccount K c prepared deposits)
      fun _ _ => True := by
  refine .withholding (reading_requireFreshAttestation _).withholding fun _ _ _ =>
    .withholding (reading_poolFee ..).withholding fun _ fee _ =>
    .withholding (.mapErr (reading_getNonce ..).withholding) fun _ nonce _ =>
    .withholding (.mapErr (reading_estimate ..).withholding) fun tr' bounds _ =>
    Obeys.signing rfl fun answer ⟨s, hanswer⟩ => Obeys.propagate fun signed hok => ?_
  subst hok
  exact Obeys.mapErr (obeys_addInvoke (asSigned_invoke tr' address _ hc hanswer))

theorem obeys_balances {caller : Rpc.Strk20.Caller} {params : Json} :
    Obeys (leaveRules K address own) tr (Rpc.Strk20.balances K S caller params)
      fun _ _ => True := by
  refine .lift fun tokens _ => Obeys.andThen obeys_ctx fun _ c _ _ => ?_
  refine .idle (idle_approve ..) fun _ _ _ => .idle (idle_viewingKey c)
    fun _ userSk _ => .withholding (.mapErr (Reading.withholding
    (confined_registeredKey K (reading_reader ..) _))) fun _ key _ => .refuse fun _ => ?_
  exact .withholding (.mapErr (Reading.withholding
    (confined_discoverNotes K (reading_reader ..) ..))) fun _ _ _ => serves_pure trivial

theorem obeys_register {caller : Rpc.Strk20.Caller} {params : Json} :
    Obeys (leaveRules K address own) tr (Rpc.Strk20.register K S caller params)
      fun _ _ => True := by
  refine Obeys.andThen obeys_ctx fun _ c _ hc => .withholding (.mapErr (Reading.withholding
    (confined_registeredKey K (reading_reader ..) _))) fun _ key _ => .refuse fun _ => ?_
  exact Obeys.andThen obeys_prepare fun _ _ _ _ => Obeys.andThen (obeys_submitFromAccount hc)
    fun _ _ _ _ => serves_pure trivial

theorem obeys_prepareInvoke {caller : Rpc.Strk20.Caller} {params : Json} :
    Obeys (leaveRules K address own) tr (Rpc.Strk20.prepareInvoke K S caller params)
      fun _ _ => True :=
  .lift fun _ _ => Obeys.andThen obeys_ctx fun _ _ _ _ => .lift fun _ _ =>
    Obeys.andThen obeys_prepare fun _ _ _ _ => serves_pure trivial

theorem obeys_invokeDeposit {caller : Rpc.Strk20.Caller} {c : Rpc.Strk20.Ctx}
    {actions : List Rpc.Strk20.Action} {intent : Strk20.Intent}
    (hc : K.feltFromHex c.account.address = some c.user) :
    Obeys (leaveRules K address own) tr (Rpc.Strk20.invokeDeposit K S caller c actions intent)
      fun _ _ => True := by
  unfold Rpc.Strk20.invokeDeposit
  refine .refuse fun _ => ?_
  refine .lift fun proving _ => .withholding (reading_checkPublicFunds ..).withholding
    fun _ _ _ => ?_
  exact .andThen obeys_prepare fun _ _ _ _ => .andThen (obeys_submitFromAccount hc)
    fun _ _ _ _ => serves_pure trivial

theorem obeys_invokeRelayed {caller : Rpc.Strk20.Caller} {c : Rpc.Strk20.Ctx}
    {intent : Strk20.Intent} :
    Obeys (leaveRules K address own) tr (Rpc.Strk20.invokeRelayed K S caller c intent)
      fun _ _ => True := by
  unfold Rpc.Strk20.invokeRelayed
  refine .refuse fun _ => ?_
  refine .withholding (.mapErr (reading_quote ..).withholding) fun _ fee _ => ?_
  exact .andThen (.mapErr obeys_prepare) fun _ _ _ _ =>
    .withholding (.mapErr (reading_execute ..).withholding) fun _ _ _ => serves_pure trivial

theorem obeys_invokeTransaction {caller : Rpc.Strk20.Caller} {params : Json} :
    Obeys (leaveRules K address own) tr (Rpc.Strk20.invokeTransaction K S caller params)
      fun _ _ => True := by
  refine .lift fun actions _ => .andThen obeys_ctx fun _ c _ hc => ?_
  split
  · exact obeys_invokeDeposit hc
  · exact obeys_invokeRelayed

/-! ## Every task -/

/-- Whether the prover's jobs of a task are the wallet's own: `companion_prove` has proved what the
caller gives it, and a task in the background what was left to it. -/
def provesOwn : Task → Bool
  | .request _ req => decide (Method.ofString req.method ≠ some .prove)
  | .command _ => true
  | .proving _ => false

/-- The methods that answer with a whole transaction when they are not to submit it. -/
def returnsTransaction : Option Method → Bool
  | some .addInvokeTransaction | some .addDeclareTransaction | some .requestFunding => true
  | _ => false

/-- The answer of a method that hands out transactions. -/
def AnswersSigned (K : Crates) (address : Felt → Felt → List Felt → Felt) (m : Option Method)
    (tr : Trace) (v : Json) : Prop := returnsTransaction m = true → ReturnsSigned K address tr v

theorem answersSigned_of_false {m : Option Method} (hm : returnsTransaction m = false) (v : Json) :
    AnswersSigned K address m tr v := fun h => by
  rw [hm] at h
  cases h

theorem Obeys.unsigned {m : Option Method} {body : Serve Json} {P : Trace → Json → Prop}
    (hm : returnsTransaction m = false) (h : Obeys (leaveRules K address own) tr body P) :
    Obeys (leaveRules K address own) tr body (AnswersSigned K address m) :=
  Serves.mono h fun _ v _ _ => answersSigned_of_false hm v

theorem obeys_handleProve {params : Json} :
    Obeys (leaveRules K address false) tr (handleProve S params) fun _ _ => True := by
  have henqueue : ∀ (tr : Trace) (payload : Json) (label : Option String) (network : String),
      Obeys (leaveRules K address false) tr (enqueueProve payload label network) fun _ _ => True :=
    fun _ _ _ _ => .withholding (withholding_act rfl) fun _ now _ =>
      .withholding (withholding_act rfl) fun _ jobId _ => .act (fun h => nomatch h) fun _ =>
      serves_pure trivial
  exact .lift fun _ _ => .andThen (henqueue ..) fun _ _ _ _ => serves_pure trivial

theorem obeys_serve (hex : ∀ f, K.feltFromHex (feltHex f) = some f)
    (haddress : Addresses K address) {client : PairedClient} {req : Request} (m : Option Method) :
    Obeys (leaveRules K address (decide (m ≠ some .prove))) tr (serve K S client req m)
      (AnswersSigned K address m) := by
  cases m with
  | none => exact serves_throw trivial
  | some m =>
      cases m with
      | requestChainId => exact .unsigned rfl (obeys_idle idle_handleRequestChainId)
      | requestAccounts => exact .unsigned rfl (obeys_idle (idle_handleAccounts ..))
      | listAccounts => exact .unsigned rfl (obeys_idle (idle_handleAccounts ..))
      | deploymentData =>
          exact .unsigned rfl (obeys_idle (idle_handleDeploymentData ..))
      | signTypedData => exact .unsigned rfl (obeys_idle (idle_handleSignTypedData ..))
      | addInvokeTransaction => exact Serves.mono obeys_handleAddInvoke fun _ _ _ h _ => h
      | addDeclareTransaction =>
          exact Serves.mono (obeys_handleAddDeclare hex) fun _ _ _ h _ => h
      | createAgentAccount =>
          exact .unsigned rfl (obeys_withholding (withholding_handleCreateAgentAccount ..))
      | switchStarknetChain =>
          exact .unsigned rfl (obeys_idle (idle_handleSwitchChain ..))
      | watchAsset => exact .unsigned rfl (obeys_idle (idle_handleWatchAsset ..))
      | fundingSource => exact .unsigned rfl (obeys_idle (idle_handleFundingSource _))
      | reportIssue => exact .unsigned rfl (obeys_withholding (withholding_propagate _))
      | typedDataHash => exact .unsigned rfl (obeys_withholding (withholding_propagate _))
      | estimateFee => exact .unsigned rfl (obeys_idle (idle_handleEstimateFee ..))
      | requestGrant => exact .unsigned rfl (obeys_idle (idle_handleRequestGrant ..))
      | requestFunding => exact Serves.mono obeys_handleRequestFunding fun _ _ _ h _ => h
      | deployAccount => exact .unsigned rfl (obeys_handleDeployAccount haddress)
      | prove => exact .unsigned rfl obeys_handleProve
      | proveStatus => exact .unsigned rfl (obeys_idle (idle_handleProveStatus ..))
      | proofActivity => exact .unsigned rfl (obeys_idle (idle_handleProofActivity _))
      | signAndProve => exact .unsigned rfl obeys_handleSignAndProve
      | strk20Balances => exact .unsigned rfl obeys_balances
      | strk20PrepareInvoke => exact .unsigned rfl obeys_prepareInvoke
      | strk20InvokeTransaction => exact .unsigned rfl obeys_invokeTransaction
      | strk20Register => exact .unsigned rfl obeys_register
      | _ => exact serves_throw trivial

/-- What is handled, if it is an answer of a method that hands out transactions. -/
def HandlesSigned (K : Crates) (address : Felt → Felt → List Felt → Felt) (m : Option Method)
    (tr : Trace) (h : Handled) : Prop := ∀ v, h.result = .ok v → AnswersSigned K address m tr v

theorem safe_handlePaired_leaving (hex : ∀ f, K.feltFromHex (feltHex f) = some f)
    (haddress : Addresses K address) {client : PairedClient} {req : Request} {m : Option Method} :
    Safe (leaveRules K address (decide (m ≠ some .prove))) tr (handlePaired K S client req m)
      (HandlesSigned K address m) := by
  unfold handlePaired
  split
  · exact fun v hv => nomatch hv
  · refine Safe.bind (obeys_serve hex haddress m) fun tr' r _ hr v hv => ?_
    cases r with
    | ok v' =>
        cases hv
        exact hr
    | error e => cases hv

theorem safe_verifyToken_leaving {token : Option String} :
    Safe (leaveRules K address own) tr (verifyToken token) fun _ _ => True := by
  cases token with
  | none => trivial
  | some token => exact ⟨trivial, fun _ _ => trivial⟩

theorem safe_handle_leaving (hex : ∀ f, K.feltFromHex (feltHex f) = some f)
    (haddress : Addresses K address) {token : Option String} {req : Request} :
    Safe (leaveRules K address (decide (Method.ofString req.method ≠ some .prove))) tr
      (handle K S token req) (HandlesSigned K address (Method.ofString req.method)) := by
  unfold handle
  generalize Method.ofString req.method = m
  split
  · exact fun v _ => answersSigned_of_false rfl v
  · exact fun v _ => answersSigned_of_false rfl v
  · exact Safe.bind safe_verifyToken_leaving fun _ _ _ _ v _ => answersSigned_of_false rfl v
  · refine Safe.bind (Q := fun _ _ => True) (Safe.bind safe_verifyToken_leaving ?_) ?_
    · intro tr' client _ _
      cases client with
      | none => trivial
      | some c => exact ⟨trivial, fun _ _ => trivial⟩
    · exact fun _ _ _ _ => ⟨trivial, fun _ _ v _ => answersSigned_of_false rfl v⟩
  · exact Safe.bind (obeys_idle (idle_handlePairing _))
      fun _ _ _ _ v _ => answersSigned_of_false rfl v
  · refine Safe.bind safe_verifyToken_leaving fun tr' client _ _ => ?_
    cases client with
    | none =>
        intro v hv
        cases hv
    | some client => exact safe_handlePaired_leaving hex haddress

theorem obeys_strk20Run {uiMethod : String} {m : Serve Json}
    (h : Obeys (leaveRules K address own) tr m fun _ _ => True) :
    Obeys (leaveRules K address own) tr (Desktop.strk20Run uiMethod m) fun _ _ => True :=
  Serves.attempt h fun tr' r _ _ => Obeys.withholding (withholding_act rfl) fun _ s _ => by
    cases r with
    | ok v => exact obeys_withholding (.bind (idle_logUiAction ..).withholding fun _ => .pure _)
    | error e => exact obeys_withholding (.bind (idle_logUiAction ..).withholding fun _ => .throw _)

theorem obeys_command (haddress : Addresses K address) (c : UiCommand) :
    Obeys (leaveRules K address own) tr (c.run K S) fun _ _ => True := by
  cases c with
  | generate wordCount => exact obeys_idle (idle_generate _)
  | importMnemonic phrase => exact obeys_idle (idle_importMnemonic ..)
  | finalizeSetup passphrase => exact obeys_withholding (withholding_finalizeSetup ..)
  | unlock passphrase => exact obeys_withholding (withholding_unlock _)
  | archiveUnsupportedVault => exact obeys_withholding (withholding_archiveUnsupportedVault _)
  | lock => exact obeys_withholding (.bind (withholding_act rfl) fun _ => .pure _)
  | setNetwork network => exact obeys_idle (idle_setNetwork ..)
  | revealSeed passphrase => exact obeys_idle (idle_revealSeed _)
  | addUserAccount label => exact obeys_withholding (withholding_addUserAccount ..)
  | deployAccount text => exact obeys_uiDeployAccount haddress
  | strk20Balances text tokens => exact .mapErr obeys_balances
  | strk20Register text => exact obeys_strk20Run obeys_register
  | strk20Invoke text actions => exact obeys_strk20Run obeys_invokeTransaction
  | strk20Prepare text actions => exact obeys_strk20Run obeys_prepareInvoke
  | grantPermission clientId days =>
      exact obeys_withholding (.bind (withholding_act rfl) fun _ =>
        .bind (withholding_act rfl) fun _ => (idle_knownClient _).withholding)
  | revokePermission clientId =>
      exact obeys_idle (.bind (idle_act rfl) fun _ => idle_knownClient _)
  | revoke clientId =>
      exact obeys_idle (.bind (idle_act rfl) fun _ => idle_knownClient _)
  | setSettings s => exact obeys_idle (idle_setSettings _)
  | autoLockTick => exact obeys_withholding withholding_autoLockTick

/-- How a task ends: what a method that hands out transactions answers is as it was signed. -/
def RepliesSigned (K : Crates) (address : Felt → Felt → List Felt → Felt) :
    Task → Trace → Reply → Prop
  | .request _ req, tr, .response r =>
      ∀ v, r.outcome = .ok v → AnswersSigned K address (Method.ofString req.method) tr v
  | _, _, _ => True

theorem safe_dispatch_leaving (hex : ∀ f, K.feltFromHex (feltHex f) = some f)
    (haddress : Addresses K address) {token : Option String} {req : Request} :
    Safe (leaveRules K address (decide (Method.ofString req.method ≠ some .prove))) []
      (dispatch K S token req) fun tr r =>
        ∀ v, r.outcome = .ok v → AnswersSigned K address (Method.ofString req.method) tr v := by
  refine ⟨trivial, fun _ _ => Safe.bind (p := handle K S token req)
    (safe_handle_leaving hex haddress) fun tr h _ hh => ?_⟩
  refine ⟨trivial, fun s _ => ⟨trivial, fun now _ => ⟨trivial, fun latency _ => ⟨trivial,
    fun _ _ => ?_⟩⟩⟩⟩
  cases hr : h.result with
  | ok v =>
      intro v' hv' hreturns tx htx
      cases hv'
      obtain ⟨chain, kind, hsigned⟩ := hh v hr hreturns tx htx
      exact ⟨chain, kind, hsigned.mono (by simp only [List.append_assoc, List.prefix_append])⟩
  | error e => exact fun v hv => nomatch hv

theorem safe_start_leaving (hex : ∀ f, K.feltFromHex (feltHex f) = some f)
    (haddress : Addresses K address) (task : Task) :
    Safe (leaveRules K address (provesOwn task)) [] ((service K S).start task)
      (RepliesSigned K address task) := by
  cases task with
  | request token req => exact Safe.bind (safe_dispatch_leaving hex haddress) fun _ _ _ h => h
  | command c =>
      exact Safe.bind (p := (c.run K S).run) (obeys_command haddress c) fun _ _ _ _ => trivial
  | proving task =>
      refine Safe.bind (p := proveInBackground task) (Q := fun _ _ => True) ?_
        fun _ _ _ _ => trivial
      refine ⟨trivial, fun _ _ => ⟨trivial, fun _ _ => ⟨(fun h => nomatch h), fun res _ =>
        ⟨trivial, fun _ _ => ?_⟩⟩⟩⟩
      cases res with
      | ok proof => exact ⟨trivial, fun _ _ => ⟨trivial, fun _ _ => trivial⟩⟩
      | error e => exact ⟨trivial, fun _ _ => ⟨trivial, fun _ _ => trivial⟩⟩

end Handlers

/-! ## Runs -/

variable {K : Crates} {S : Setup} {address : Felt → Felt → List Felt → Felt}
variable {init : State → Prop} {C : State → Act → Prop} {s : State}

/-- In every run, whatever the tasks and however they interleave: what a task broadcasts or has
proved is a transaction that it had signed before, on the same chain, with the signature it got and
the contents that signature was made over, and so is the transaction that a method of the wallet
gives back unsubmitted.  Only `companion_prove` and the tasks it leaves behind have proved what
they were given. -/
theorem leaves_asSigned (hex : ∀ f, K.feltFromHex (feltHex f) = some f)
    (haddress : Addresses K address) (h : Sys.Reach (service K S) init C s)
    (hinit : ∀ s, init s → s.procs = []) {pid : ℕ} {p : Proc} (hp : s.procs[pid]? = some p) :
    (∀ e ∈ p.trace, LeavesAsSigned K address p.trace (provesOwn p.task) e.1) ∧
      ∀ reply, p.rest = some (.pure reply) → RepliesSigned K address p.task p.trace reply := by
  obtain ⟨hsafe, hallowed⟩ := h.allowed (R := fun task => leaveRules K address (provesOwn task))
    hinit (safe_start_leaving hex haddress)
    (fun _ _ _ _ _ _ _ hx => fromSession_of_answers hx.answers)
    fun _ _ _ _ hop htr => hop.mono htr
  exact ⟨hallowed pid p hp, fun reply hr => hsafe pid p hp _ hr⟩

/-- The address that the stand-in for the deployments reads off the constructor calldata. -/
def plainAddress (_ _ : Felt) (calldata : List Felt) : Felt := calldata.headD 0

theorem addresses_plainAddress : Addresses plainCrates plainAddress := by
  intro chain pk d hd
  cases hd
  rfl

/-- The invoke of a caller with a grant, broadcast as it was signed. -/
theorem broadcast_asSigned : ∃ s p,
    Sys.Reach (service plainCrates plainSetup) (Starts grantedWorld) (fun _ _ => True) s ∧
      s.procs[0]? = some p ∧ HandedOver p.trace ∧
      ∀ e ∈ p.trace, LeavesAsSigned plainCrates plainAddress p.trace (provesOwn p.task) e.1 := by
  have hplay : (broadcast 12).map (fun r => answeredAfterHandover r.2) = some true := by
    decide +kernel
  obtain ⟨⟨moves, s⟩, h, hanswered⟩ := Option.map_eq_some_iff.1 hplay
  have hreach := reach_broadcast (C := fun _ _ => True) (fun _ _ => trivial)
    (fun _ _ _ _ _ => trivial) h
  simp only [answeredAfterHandover] at hanswered
  split at hanswered
  · rename_i token req tr r hp
    simp only [Bool.and_eq_true, List.any_eq_true] at hanswered
    obtain ⟨-, e, he, hover⟩ := hanswered
    exact ⟨s, _, hreach, hp, ⟨e, he, hover⟩, (leaves_asSigned plainCrates_feltFromHex
      addresses_plainAddress hreach (fun _ => Starts.procs) hp).1⟩
  · cases hanswered

end Strkd.Service
