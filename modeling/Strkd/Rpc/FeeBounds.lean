import Strkd.Rpc.Deployments

/-!
# Fee bounds of the caller

Five requests take fee bounds from the caller.  What the caller wrote, what is parsed from it, and
what is shown, signed, handed on and returned: the same bounds everywhere, and the numbers of the
caller exactly when every amount fits in 64 bits (`bounds_honoured_iff`).
-/

namespace Strkd.Rpc

open Wallet Prover

/-! ## What the caller wrote -/

/-- The number a value spells: an integer, decimal digits, or `0x` with hexadecimal digits. -/
def Denotes : Json → ℕ → Prop
  | .str text, n =>
      match stripPrefix "0x" (trim text) with
      | some digits => ∃ limit, parseRadix 16 limit digits = some n
      | none => ∃ limit, parseRadix 10 limit (trim text) = some n
  | .int i, n => i = n
  | _, _ => False

/-- The resources of a transaction, with their bounds. -/
def resources : List (String × (FeeBounds → ResourceBounds)) :=
  [("l1_gas", FeeBounds.l1Gas), ("l2_gas", FeeBounds.l2Gas), ("l1_data_gas", FeeBounds.l1DataGas)]

/-- The caller gives `n` for a field of a resource. -/
def Supplied (params : Json) (resource field : String) (n : ℕ) : Prop :=
  ∃ rb entry v, presentParam params "resource_bounds" = some rb ∧ rb.get? resource = some entry ∧
    entry.get? field = some v ∧ Denotes v n

/-- The bounds have every number the caller gives. -/
def ExactFor (params : Json) (b : FeeBounds) : Prop :=
  ∀ x ∈ resources, ∀ n,
    (Supplied params x.1 "max_amount" n → (x.2 b).maxAmount.toNat = n) ∧
    (Supplied params x.1 "max_price_per_unit" n → (x.2 b).maxPricePerUnit.toNat = n)

/-- Every amount the caller gives fits in 64 bits. -/
def AmountsFit (params : Json) : Prop :=
  ∀ x ∈ resources, ∀ n, Supplied params x.1 "max_amount" n → n < 2 ^ 64

/-! ## What is parsed -/

theorem parseRadix_unique {base limit limit' n n' : ℕ} {s : String}
    (h : parseRadix base limit s = some n) (h' : parseRadix base limit' s = some n') : n = n' := by
  unfold parseRadix at h h'
  dsimp only at h h'
  split_ifs at h h'
  have hn := (Option.filter_eq_some_iff.1 h).1
  have hn' := (Option.filter_eq_some_iff.1 h').1
  exact Option.some.inj (hn.symm.trans hn')

theorem parseRadix_lt {base limit n : ℕ} {s : String} (h : parseRadix base limit s = some n) :
    n < limit := by
  unfold parseRadix at h
  dsimp only at h
  split_ifs at h
  exact of_decide_eq_true (Option.filter_eq_some_iff.1 h).2

/-- A field is read as the number it spells. -/
theorem boundField_eq {entry v : Json} {field : String} {m n : ℕ}
    (h : boundField entry field = .ok m) (hv : entry.get? field = some v) (hn : Denotes v n) :
    m = n := by
  unfold boundField at h
  rw [hv] at h
  cases v with
  | str text =>
      simp only [Denotes] at hn
      cases hstrip : stripPrefix "0x" (trim text) with
      | some digits =>
          simp only [hstrip] at h hn
          obtain ⟨limit, hn⟩ := hn
          split at h
          · cases h
            exact parseRadix_unique ‹_› hn
          · cases h
      | none =>
          simp only [hstrip] at h hn
          obtain ⟨limit, hn⟩ := hn
          split at h
          · cases h
            exact parseRadix_unique ‹_› hn
          · cases h
  | int i =>
      have hi : i = n := hn
      simp only [Json.asU64] at h
      split_ifs at h with hrange
      · cases h
        omega
      · cases h
  | _ => cases hn

theorem boundField_lt {entry : Json} {field : String} {m : ℕ}
    (h : boundField entry field = .ok m) : m < 2 ^ 128 := by
  unfold boundField at h
  split at h
  · dsimp only at h
    split at h
    · cases h
      rename_i hparsed
      split at hparsed
      · exact parseRadix_lt hparsed
      · exact parseRadix_lt hparsed
    · cases h
  · rename_i i _
    simp only [Json.asU64] at h
    split_ifs at h with hrange
    · cases h
      omega
    · cases h
  · cases h
  · cases h
    exact Nat.two_pow_pos 128

/-- A bound as it is parsed: the price as given, the amount cast to 64 bits. -/
theorem parseResourceBounds_spec {entry : Json} {b : ResourceBounds}
    (h : parseResourceBounds entry = .ok b) :
    ∃ amount price, boundField entry "max_amount" = .ok amount ∧
      boundField entry "max_price_per_unit" = .ok price ∧ b.maxAmount.toNat = amount % 2 ^ 64 ∧
      b.maxPricePerUnit.toNat = price := by
  obtain ⟨amount, ha, h⟩ := except_bind_eq_ok.1 h
  obtain ⟨price, hp, h⟩ := except_bind_eq_ok.1 h
  cases h
  refine ⟨amount, price, ha, hp, BitVec.toNat_ofNat .., ?_⟩
  rw [BitVec.toNat_ofNat, Nat.mod_eq_of_lt (boundField_lt hp)]

/-- The bounds of each resource are parsed from its entry. -/
theorem optFeeBounds_spec {params : Json} {b : FeeBounds} (h : optFeeBounds params = .ok (some b)) :
    ∃ rb, presentParam params "resource_bounds" = some rb ∧
      ∀ x ∈ resources, ∃ entry, rb.get? x.1 = some entry ∧
        parseResourceBounds entry = .ok (x.2 b) := by
  unfold optFeeBounds at h
  split at h
  · cases h
  · rename_i rb hrb
    obtain ⟨l1Gas, h₁, h⟩ := except_bind_eq_ok.1 h
    obtain ⟨l2Gas, h₂, h⟩ := except_bind_eq_ok.1 h
    obtain ⟨l1DataGas, h₃, h⟩ := except_bind_eq_ok.1 h
    cases h
    have hof : ∀ {key : String} {r : ResourceBounds}, boundsOf rb key = .ok r →
        ∃ entry, rb.get? key = some entry ∧ parseResourceBounds entry = .ok r := by
      intro key r hr
      unfold boundsOf at hr
      split at hr
      · exact ⟨_, ‹_›, hr⟩
      · cases hr
    refine ⟨rb, hrb, ?_⟩
    simp only [resources, List.forall_mem_cons, List.not_mem_nil, false_imp_iff, implies_true,
      and_true]
    exact ⟨hof h₁, hof h₂, hof h₃⟩

/-- What is parsed is exact if and only if no amount is cut off. -/
theorem exactFor_iff {params : Json} {b : FeeBounds} (h : optFeeBounds params = .ok (some b)) :
    ExactFor params b ↔ AmountsFit params := by
  obtain ⟨rb, hrb, hentries⟩ := optFeeBounds_spec h
  have hread : ∀ x ∈ resources, ∀ n, Supplied params x.1 "max_amount" n →
      (x.2 b).maxAmount.toNat = n % 2 ^ 64 := by
    rintro x hx n ⟨rb', entry', v, hrb', hentry', hv, hn⟩
    obtain ⟨entry, hentry, hparse⟩ := hentries x hx
    rw [hrb] at hrb'
    cases hrb'
    rw [hentry] at hentry'
    cases hentry'
    obtain ⟨amount, -, ha, -, hamount, -⟩ := parseResourceBounds_spec hparse
    rw [hamount, boundField_eq ha hv hn]
  have hprice : ∀ x ∈ resources, ∀ n, Supplied params x.1 "max_price_per_unit" n →
      (x.2 b).maxPricePerUnit.toNat = n := by
    rintro x hx n ⟨rb', entry', v, hrb', hentry', hv, hn⟩
    obtain ⟨entry, hentry, hparse⟩ := hentries x hx
    rw [hrb] at hrb'
    cases hrb'
    rw [hentry] at hentry'
    cases hentry'
    obtain ⟨-, price, -, hp, -, heq⟩ := parseResourceBounds_spec hparse
    rw [heq, boundField_eq hp hv hn]
  constructor
  · intro hexact x hx n hn
    have hsame := (hexact x hx n).1 hn
    rw [hread x hx n hn] at hsame
    rw [← hsame]
    exact Nat.mod_lt _ (Nat.two_pow_pos 64)
  · intro hfit x hx n
    refine ⟨fun hn => ?_, hprice x hx n⟩
    rw [hread x hx n hn, Nat.mod_eq_of_lt (hfit x hx n hn)]

/-- A computation whose only error is an invalid request. -/
def OnlyInvalid {α : Type} (x : Except WalletRpcError α) : Prop :=
  ∀ e, x = .error e → ∃ message, e = .invalidRequest message

theorem onlyInvalid_ok {α : Type} (a : α) : OnlyInvalid (.ok a : Except WalletRpcError α) := nofun

theorem onlyInvalid_invalidRequest {α : Type} (message : String) :
    OnlyInvalid (invalidRequest message : Except WalletRpcError α) := by
  rintro e h
  cases h
  exact ⟨message, rfl⟩

theorem OnlyInvalid.bind {α β : Type} {x : Except WalletRpcError α}
    {f : α → Except WalletRpcError β} (hx : OnlyInvalid x) (hf : ∀ a, OnlyInvalid (f a)) :
    OnlyInvalid (x >>= f) := by
  cases x with
  | ok a => exact hf a
  | error e =>
      rintro e' h
      cases h
      exact hx e rfl

theorem onlyInvalid_boundField (entry : Json) (field : String) :
    OnlyInvalid (boundField entry field) := by
  unfold boundField
  split
  · dsimp only
    split
    · exact onlyInvalid_ok _
    · exact onlyInvalid_invalidRequest _
  · split
    · exact onlyInvalid_ok _
    · exact onlyInvalid_invalidRequest _
  · exact onlyInvalid_invalidRequest _
  · exact onlyInvalid_ok _

theorem onlyInvalid_boundsOf (rb : Json) (key : String) : OnlyInvalid (boundsOf rb key) := by
  unfold boundsOf
  split
  · exact OnlyInvalid.bind (onlyInvalid_boundField _ _) fun _ =>
      OnlyInvalid.bind (onlyInvalid_boundField _ _) fun _ => onlyInvalid_ok _
  · exact onlyInvalid_invalidRequest _

/-- Bounds that cannot be read are an invalid request. -/
theorem onlyInvalid_optFeeBounds (params : Json) : OnlyInvalid (optFeeBounds params) := by
  unfold optFeeBounds
  split
  · exact onlyInvalid_ok _
  · exact OnlyInvalid.bind (onlyInvalid_boundsOf _ _) fun _ =>
      OnlyInvalid.bind (onlyInvalid_boundsOf _ _) fun _ =>
      OnlyInvalid.bind (onlyInvalid_boundsOf _ _) fun _ => onlyInvalid_ok _

/-! ## Where bounds appear -/

/-- A prompt that ends with the fee. -/
def ShowsFee (b : FeeBounds) (summary : String) : Prop :=
  (∃ submit calls facts address chain, summary = invokeText submit calls facts address chain b) ∨
  (∃ submit classHash address chain, summary = declareText submit classHash address chain b) ∨
  (∃ submit address chain, summary = deployText submit address chain b) ∨
  ∃ calls address chain, summary = proveText calls address chain b

/-- A transaction object with the bounds. -/
def HasBounds (b : FeeBounds) (tx : Json) : Prop :=
  tx.get? "resource_bounds" = some (boundsJson b)

def broadcasts (method : String) : Bool :=
  method ∈ ["starknet_addInvokeTransaction", "starknet_addDeclareTransaction",
    "starknet_addDeployAccountTransaction"]

/-- The operations that show, sign or hand on a transaction. -/
def carries : Op → Bool
  | .requestApproval _ | .signInvoke _ _ _ _ | .signDeclare _ _ _ _ _ | .signDeployAccount _ _ _
  | .spawnProve _ => true
  | .nodeRpc _ method _ => broadcasts method
  | _ => false

/-- The bounds an operation shows, signs or hands on. -/
def Uses (b : FeeBounds) : Op → Prop
  | .requestApproval request => ShowsFee b request.summary
  | .signInvoke _ _ _ p | .signDeclare _ _ _ _ p | .signDeployAccount _ _ p => feeBoundsOf p = b
  | .spawnProve task => ∃ tx, task.payload.get? "transaction" = some tx ∧ HasBounds b tx
  | .nodeRpc _ _ params => ∃ key tx, params = .obj [(key, tx)] ∧ HasBounds b tx
  | _ => False

theorem boundJson_injective : Function.Injective boundJson := by
  intro a b h
  simp only [boundJson, Json.obj.injEq, List.cons.injEq, Prod.mk.injEq, Json.str.injEq, true_and,
    and_true, String.append_right_inj] at h
  obtain ⟨hamount, hprice⟩ := h
  cases a
  cases b
  exact congrArg₂ ResourceBounds.mk (BitVec.eq_of_toNat_eq (hexText_injective hamount))
    (BitVec.eq_of_toNat_eq (hexText_injective hprice))

theorem boundsJson_injective : Function.Injective boundsJson := by
  intro a b h
  simp only [boundsJson, Json.obj.injEq, List.cons.injEq, Prod.mk.injEq, true_and, and_true] at h
  obtain ⟨h₁, h₂, h₃⟩ := h
  cases a
  cases b
  exact FeeBounds.mk.injEq .. ▸ ⟨boundJson_injective h₁, boundJson_injective h₂,
    boundJson_injective h₃⟩

theorem HasBounds.unique {b b' : FeeBounds} {tx : Json} (h : HasBounds b tx)
    (h' : HasBounds b' tx) : b = b' :=
  boundsJson_injective (Option.some.inj (h.symm.trans h'))

/-- Every text with a fee ends with it. -/
theorem ShowsFee.ends {b : FeeBounds} {summary : String} (h : ShowsFee b summary) :
    ∃ before, summary = before ++ (". Max fee: " ++ boundsSummary b) := by
  rcases h with ⟨submit, calls, facts, address, chain, rfl⟩ | ⟨submit, classHash, address, chain, rfl⟩ |
    ⟨submit, address, chain, rfl⟩ | ⟨calls, address, chain, rfl⟩
  · exact ⟨_, String.append_assoc⟩
  · exact ⟨_, String.append_assoc⟩
  · exact ⟨_, String.append_assoc⟩
  · exact ⟨_, String.append_assoc⟩

theorem ShowsFee.unique {b b' : FeeBounds} {summary : String} (h : ShowsFee b summary)
    (h' : ShowsFee b' summary) : b = b' := by
  obtain ⟨before, rfl⟩ := h.ends
  obtain ⟨before', heq⟩ := h'.ends
  have hfee : (". Max fee: ").toList = '.' :: " Max fee: ".toList := by decide
  exact boundsSummary_injective (split_at_last '.' hfee (by decide) (notMem_boundsSummary _)
    (notMem_boundsSummary _) heq).2

/-- An operation uses one set of bounds. -/
theorem Uses.unique {b b' : FeeBounds} {op : Op} (h : Uses b op) (h' : Uses b' op) : b = b' := by
  cases op with
  | requestApproval request => exact ShowsFee.unique h h'
  | signInvoke account calls chain p => exact Eq.trans (Eq.symm h) h'
  | signDeclare account classHash compiled chain p => exact Eq.trans (Eq.symm h) h'
  | signDeployAccount account chain p => exact Eq.trans (Eq.symm h) h'
  | spawnProve task =>
      obtain ⟨tx, htx, hb⟩ := h
      obtain ⟨tx', htx', hb'⟩ := h'
      rw [htx] at htx'
      cases htx'
      exact hb.unique hb'
  | nodeRpc chain method params =>
      obtain ⟨key, tx, rfl, hb⟩ := h
      obtain ⟨key', tx', heq, hb'⟩ := h'
      cases heq
      exact hb.unique hb'
  | _ => cases h

/-- A text that begins as a funding prompt does is no text with a fee. -/
theorem agent_ne (start : String) {a b : String} (hstart : start.toList[0]? ≠ some 'A')
    (hne : start.toList[0]? ≠ none) : "Agent " ++ a ≠ start ++ b := by
  intro h
  have hfirst := congrArg (fun s => s.toList[0]?) h
  have hagent : "Agent ".toList = ['A', 'g', 'e', 'n', 't', ' '] := by decide
  simp only [String.toList_append, hagent, List.cons_append, List.getElem?_cons_zero] at hfirst
  cases hlist : start.toList with
  | nil => exact hne (by rw [hlist]; rfl)
  | cons c cs =>
      rw [hlist, List.cons_append, List.getElem?_cons_zero] at hfirst
      exact hstart (by rw [hlist, hfirst]; rfl)

/-- A funding prompt shows no fee. -/
theorem not_showsFee_fundingText {client : PairedClient} {amount : ℕ} {chain : ChainId}
    {managerIndex : U32} {manager recipient : String} (b : FeeBounds) :
    ¬ ShowsFee b (fundingText client amount chain managerIndex manager recipient) := by
  have hone : ∀ (x y : String) (submit : Bool), x.toList[0]? ≠ some 'A' → x.toList[0]? ≠ none →
      y.toList[0]? ≠ some 'A' → y.toList[0]? ≠ none → ∀ {a b : String},
      "Agent " ++ a ≠ (if submit then x else y) ++ b := by
    intro x y submit hx hx' hy hy' a b
    cases submit
    · exact agent_ne y hy hy'
    · exact agent_ne x hx hx'
  rw [fundingText_eq]
  rintro (⟨submit, calls, facts, address, chain', h⟩ | ⟨submit, classHash, address, chain', h⟩ |
    ⟨submit, address, chain', h⟩ | ⟨calls, address, chain', h⟩)
  · simp only [invokeText, String.append_assoc] at h
    exact hone "Submit" "Sign" submit (by decide) (by decide) (by decide) (by decide) h
  · simp only [declareText, String.append_assoc] at h
    exact hone "Declare" "Sign declaration of" submit (by decide) (by decide) (by decide)
      (by decide) h
  · simp only [deployText, String.append_assoc] at h
    exact hone "Deploy" "Sign deployment of" submit (by decide) (by decide) (by decide)
      (by decide) h
  · unfold proveText at h
    simp only [String.append_assoc] at h
    exact agent_ne "Sign + locally prove " (by decide) (by decide) h

/-! ## The five requests -/

/-- The requests that take fee bounds. -/
inductive FeeRequest where
  | addInvoke
  | addDeclare
  | deployAccount
  | requestFunding
  | signAndProve
  deriving DecidableEq, Repr

section

variable (K : Crates) (S : Setup)

def FeeRequest.handle (client : PairedClient) (params : Json) : FeeRequest → Serve Json
  | addInvoke => handleAddInvoke K client params
  | addDeclare => handleAddDeclare K client params
  | deployAccount => handleDeployAccount K client params
  | requestFunding => handleRequestFunding K client params
  | signAndProve => handleSignAndProve K S client params

/-- An operation that carries bounds carries `b`. -/
def Bears (b : FeeBounds) (op : Op) : Prop := carries op = true → Uses b op

theorem bears_of_bare {b : FeeBounds} {op : Op} (h : carries op = false) : Bears b op := by
  intro hcarries
  rw [h] at hcarries
  cases hcarries

/-- The run shows, signs or hands on something. -/
def Reached (tr : Trace) : Prop := ∃ e ∈ tr, carries e.1 = true

/-- What is claimed of the runs of a request: of the operations it performs, of the answer it ends
with, and of a run that reaches the prompt. -/
structure Terms where
  allows : Op → Prop
  ends : Trace → Json → Prop
  asks : Trace → Prop
  bare : ∀ op, carries op = false → allows op
  ends_append : ∀ before tr v, ends tr v → ends (before ++ tr) v
  asks_append : ∀ before tr, asks tr → asks (before ++ tr)

/-- The runs of `m` are as `T` says. -/
structure Meets (T : Terms) (m : Serve Json) : Prop where
  confined : Confined T.allows m
  ends : ∀ tr v, Ran m tr (.ok v) → T.ends tr v
  asks : ∀ tr r, Ran m tr r → Reached tr → T.asks tr

variable {K S} {b : FeeBounds} {client : PairedClient} {params : Json}

theorem Reached.append {tr : Trace} (h : Reached tr) (before : Trace) : Reached (before ++ tr) := by
  obtain ⟨e, he, hcarries⟩ := h
  exact ⟨e, List.mem_append_right _ he, hcarries⟩

theorem Reached.of_append {before tr : Trace} (h : Reached (before ++ tr))
    (hbefore : ∀ e ∈ before, carries e.1 = false) : Reached tr := by
  obtain ⟨e, he, hcarries⟩ := h
  rcases List.mem_append.1 he with he | he
  · rw [hbefore e he] at hcarries
    cases hcarries
  · exact ⟨e, he, hcarries⟩

/-- Computations that show, sign and hand on nothing. -/
abbrev Bare {ε α : Type} (m : Handler ε Op Ans α) : Prop := Confined (fun op => carries op = false) m

section

variable {T : Terms}

/-- A bare computation, then one that meets the terms. -/
theorem Meets.bind {α : Type} {m : Serve α} {f : α → Serve Json} (hm : Bare m)
    (hf : ∀ a, Meets T (f a)) : Meets T (m >>= f) where
  confined := .bind (Only.mono hm T.bare) fun a => (hf a).confined
  ends := by
    intro tr v hrun
    obtain ⟨a, tr₁, tr₂, rfl, -, hrest⟩ := hrun.bind_ok
    exact T.ends_append _ _ _ ((hf a).ends tr₂ v hrest)
  asks := by
    intro tr r hrun hreached
    rcases hrun.bind with ⟨a, tr₁, tr₂, rfl, hfirst, hrest⟩ | ⟨e, hfirst, rfl⟩
    · exact T.asks_append _ _ ((hf a).asks tr₂ r hrest (hreached.of_append (hm.of_ran hfirst)))
    · obtain ⟨e, he, hcarries⟩ := hreached
      rw [hm.of_ran hfirst e he] at hcarries
      cases hcarries

theorem Meets.throw_bind {α : Type} {e : WalletRpcError} {f : α → Serve Json} :
    Meets T ((throw e : Serve α) >>= f) where
  confined := .throw e
  ends := by
    intro tr v hrun
    cases hrun.throw.2
  asks := by
    intro tr r hrun hreached
    obtain ⟨rfl, -⟩ := hrun.throw
    obtain ⟨e, he, -⟩ := hreached
    cases he

theorem Meets.exit {p : Prop} [Decidable p] {e : WalletRpcError} {f : Unit → Serve Json}
    (hf : ∀ u, Meets T (f u)) : Meets T (if p then throw e >>= f else f ()) := by
  by_cases hp : p
  · rw [if_pos hp]
    exact .throw_bind
  · rw [if_neg hp]
    exact hf ()

theorem Meets.throw {e : WalletRpcError} : Meets T (throw e) where
  confined := .throw e
  ends := by
    intro tr v hrun
    cases hrun.throw.2
  asks := by
    intro tr r hrun hreached
    obtain ⟨rfl, -⟩ := hrun.throw
    obtain ⟨e, he, -⟩ := hreached
    cases he

end

/-! ### Bare computations -/

theorem bare_resolveNonce (chain : ChainId) (sender : Felt) :
    Bare (resolveNonce K chain sender params) := confined_resolveNonce K (by rfl) (by rfl) params

theorem bare_resolveChain : Bare (resolveChain K params) := confined_resolveChain K (by rfl) params

theorem bare_scopedAccount (want : String) : Bare (scopedAccount client want) :=
  confined_scopedAccount (by rfl) client want

theorem bare_scopedAccountOr (param : Option String) (missing : WalletRpcError) :
    Bare (scopedAccountOr K client param missing) :=
  confined_scopedAccountOr K (by rfl) client param missing

/-! ### Signing -/

theorem hasBounds_invoke (sender : Felt) (calldata signature : List Felt) (nonce : Felt)
    (proofFacts : List Felt) (proof : Option String) :
    HasBounds b (invokeV3TxJson sender calldata signature nonce b proofFacts proof) := rfl

theorem hasBounds_declare (sender compiledClassHash : Felt) (contractClass : Option Json)
    (signature : List Felt) (nonce : Felt) :
    HasBounds b (declareV3TxJson sender compiledClassHash contractClass signature nonce b) := rfl

theorem bears_broadcast {chain : ChainId} {method key : String} {tx : Json} (h : HasBounds b tx) :
    Bears b (.nodeRpc chain method (.obj [(key, tx)])) := fun _ => ⟨key, tx, rfl, h⟩

theorem bears_requireNode (chain : ChainId) : Confined (Bears b) (requireNode chain) :=
  confined_requireNode (bears_of_bare rfl)

theorem bears_signAndSubmit (chain : ChainId) (account : AccountRef) (calls : List Call)
    (nonce : Felt) (submit : Bool) (proofFacts : List Felt) (proof : Option String) :
    Confined (Bears b) (signAndSubmit K chain account calls nonce b submit proofFacts proof) := by
  refine .bind (confined_perform fun _ => rfl) fun answer => .bind (confined_propagate _) fun signed =>
    .bind (.lift _) fun sender => ?_
  split
  · refine .bind (bears_requireNode chain) fun _ => .bind (.mapErr ?_) fun _ => .pure _
    exact .bind (confined_call (bears_broadcast (hasBounds_invoke ..))) fun _ => .lift _
  · exact .pure _

theorem bears_signAndDeclare (chain : ChainId) (account : AccountRef)
    (sender classHash compiledClassHash : Felt) (classJson : Option Json) (nonce : Felt)
    (submit : Bool) : Confined (Bears b)
      (signAndDeclare K chain account sender classHash compiledClassHash classJson nonce b submit) := by
  refine .bind (confined_perform fun _ => rfl) fun answer => .bind (confined_propagate _) fun signed => ?_
  split
  · refine .bind (bears_requireNode chain) fun _ => ?_
    split
    · exact .throw _
    · refine .bind (.mapErr ?_) fun _ => .pure _
      exact .bind (confined_call (bears_broadcast (hasBounds_declare ..))) fun _ => .lift _
  · exact .pure _

theorem bears_signAndDeploy (chain : ChainId) (account : AccountRef) (submit : Bool) :
    Confined (Bears b) (signAndDeploy K chain account b submit) := by
  refine .bind (confined_perform fun _ => rfl) fun answer => .bind (confined_propagate _) fun signed => ?_
  split
  · refine .bind (bears_requireNode chain) fun _ => .bind (.mapErr ?_) fun _ => .pure _
    exact .bind (confined_call (bears_broadcast rfl)) fun _ => .lift _
  · exact .pure _

theorem bears_signAndEnqueue (chain : ChainId) (account : AccountRef) (sender : Felt)
    (calls : List Call) (nonce : Felt) :
    Confined (Bears b) (signAndEnqueue chain account sender calls nonce b params) := by
  refine .bind (confined_perform fun _ => rfl) fun answer => .bind (confined_propagate _) fun signed =>
    .bind ?_ fun _ => .pure _
  refine .bind (confined_perform (bears_of_bare rfl)) fun now =>
    .bind (confined_perform (bears_of_bare rfl)) fun jobId => .bind (confined_perform ?_) fun _ => .pure _
  exact fun _ => ⟨_, rfl, hasBounds_invoke ..⟩

/-- A transaction in an answer has the bounds. -/
def ReturnsBounds (b : FeeBounds) (v : Json) : Prop :=
  ∀ tx, v.get? "signed_transaction" = some tx → HasBounds b tx

/-- First an operation that carries something, then the rest. -/
theorem reached_act {op : Op} {f : Ans op → Serve Json} {tr : Trace} {r : Except WalletRpcError Json}
    (hop : carries op = true) (h : Ran (ExceptT.lift (Prog.perform op) >>= f) tr r) :
    Reached tr ∧ ∃ a rest, Ran (f a) rest r := by
  obtain ⟨a, rest, rfl, hrest⟩ := h.act
  exact ⟨⟨_, List.mem_cons_self, hop⟩, a, rest, hrest⟩

theorem returns_signAndSubmit {chain : ChainId} {account : AccountRef} {calls : List Call}
    {nonce : Felt} {submit : Bool} {proofFacts : List Felt} {proof : Option String} {tr : Trace}
    {v : Json}
    (h : Ran (signAndSubmit K chain account calls nonce b submit proofFacts proof) tr (.ok v)) :
    Reached tr ∧ ReturnsBounds b v := by
  obtain ⟨hreached, answer, rest, hrun⟩ := reached_act rfl h
  refine ⟨hreached, fun tx htx => ?_⟩
  obtain ⟨signed, -, tr₁, -, -, hrun⟩ := hrun.bind_ok
  obtain ⟨sender, -, tr₂, -, -, hrun⟩ := hrun.bind_ok
  cases submit with
  | true =>
      obtain ⟨_, -, tr₃, -, -, hrun⟩ := hrun.bind_ok
      obtain ⟨hash, -, tr₄, -, -, hrun⟩ := hrun.bind_ok
      obtain ⟨-, hv⟩ := hrun.pure
      cases hv
      cases htx
  | false =>
      obtain ⟨-, hv⟩ := hrun.pure
      cases hv
      cases htx
      exact hasBounds_invoke ..

theorem returns_signAndDeclare {chain : ChainId} {account : AccountRef}
    {sender classHash compiledClassHash : Felt} {classJson : Option Json} {nonce : Felt}
    {submit : Bool} {tr : Trace} {v : Json} (h : Ran (signAndDeclare K chain account sender classHash
      compiledClassHash classJson nonce b submit) tr (.ok v)) : Reached tr ∧ ReturnsBounds b v := by
  obtain ⟨hreached, answer, rest, hrun⟩ := reached_act rfl h
  refine ⟨hreached, fun tx htx => ?_⟩
  obtain ⟨signed, -, tr₁, -, -, hrun⟩ := hrun.bind_ok
  cases submit with
  | true =>
      obtain ⟨_, -, tr₂, -, -, hrun⟩ := hrun.bind_ok
      cases classJson with
      | none => cases hrun.throw.2
      | some cc =>
          obtain ⟨hash, -, tr₃, -, -, hrun⟩ := hrun.bind_ok
          obtain ⟨-, hv⟩ := hrun.pure
          cases hv
          cases htx
  | false =>
      obtain ⟨-, hv⟩ := hrun.pure
      cases hv
      cases htx
      exact hasBounds_declare ..

theorem returns_signAndEnqueue {chain : ChainId} {account : AccountRef} {sender : Felt}
    {calls : List Call} {nonce : Felt} {tr : Trace} {v : Json}
    (h : Ran (signAndEnqueue chain account sender calls nonce b params) tr (.ok v)) :
    Reached tr ∧ ReturnsBounds b v := by
  obtain ⟨hreached, answer, rest, hrun⟩ := reached_act rfl h
  refine ⟨hreached, fun tx htx => ?_⟩
  obtain ⟨signed, -, tr₁, -, -, hrun⟩ := hrun.bind_ok
  obtain ⟨jobId, -, tr₂, -, -, hrun⟩ := hrun.bind_ok
  obtain ⟨-, hv⟩ := hrun.pure
  cases hv
  cases htx

/-! ### The terms -/

/-- Bounds that cannot be read: the request fails before it asks. -/
def refused : Terms where
  allows op := carries op = false
  ends _ _ := False
  asks _ := True
  bare _ h := h
  ends_append _ _ _ h := h
  asks_append _ _ _ := trivial

/-- Everything shown, signed and handed on bears `b`, and the answer is as `Q` says. -/
def bearing (b : FeeBounds) (Q : Json → Prop) : Terms where
  allows := Bears b
  ends tr v := Reached tr ∧ Q v
  asks _ := True
  bare _ := bears_of_bare
  ends_append before _ _ h := ⟨h.1.append before, h.2⟩
  asks_append _ _ _ := trivial

/-- A prompt that shows no fee. -/
def ShowsNoFee (op : Op) : Prop :=
  ∃ request, op = .requestApproval request ∧ ∀ b, ¬ ShowsFee b request.summary

/-- The prompt shows no fee, and everything signed and handed on bears `b`. -/
def unshown (b : FeeBounds) : Terms where
  allows op := carries op = true → Uses b op ∨ ShowsNoFee op
  ends tr _ := Reached tr
  asks tr := ∃ e ∈ tr, ShowsNoFee e.1
  bare op h hcarries := by
    rw [h] at hcarries
    cases hcarries
  ends_append before _ _ h := h.append before
  asks_append before _ h := h.imp fun _ he => ⟨List.mem_append_right _ he.1, he.2⟩

/-- The user is asked with the fee, and then the transaction is signed. -/
def Tail (T : Terms) (params : Json) (Q : FeeBounds → Json → Prop) : Prop :=
  ∀ b, optFeeBounds params = .ok (some b) → ∀ (client : PairedClient) (method summary : String)
    (sign : Serve Json), ShowsFee b summary → Confined (Bears b) sign →
    (∀ tr v, Ran sign tr (.ok v) → Reached tr ∧ Q b v) →
    Meets T (gatedApproval client method summary >>= fun decision =>
      (confirmed decision : Serve Unit) >>= fun _ => sign)

theorem tail_refused {e : WalletRpcError} (h : optFeeBounds params = .error e)
    (Q : FeeBounds → Json → Prop) : Tail refused params Q := by
  intro b hb
  rw [h] at hb
  cases hb

theorem bears_gatedApproval {method summary : String} (h : ShowsFee b summary) :
    Confined (Bears b) (gatedApproval client method summary) := by
  refine .bind (confined_perform (bears_of_bare rfl)) fun now => ?_
  split
  · exact .pure _
  · exact confined_perform fun _ => h

theorem tail_bearing (h : optFeeBounds params = .ok (some b)) (Q : FeeBounds → Json → Prop) :
    Tail (bearing b (Q b)) params Q := by
  intro b' hb client method summary sign hsummary hsign hends
  rw [h] at hb
  cases hb
  refine ⟨.bind (bears_gatedApproval hsummary) fun _ => .bind (.lift _) fun _ => hsign, ?_,
    fun _ _ _ _ => trivial⟩
  intro tr v hrun
  obtain ⟨decision, tr₁, rest, rfl, -, hrun⟩ := hrun.bind_ok
  obtain ⟨_, tr₂, rest', rfl, -, hrun⟩ := hrun.bind_ok
  obtain ⟨hreached, hQ⟩ := hends rest' v hrun
  exact ⟨(hreached.append tr₂).append tr₁, hQ⟩

/-- Only a deployment that is signed and not sent returns its transaction, without the bounds. -/
def DeploymentReturns (params : Json) (_ : FeeBounds) (v : Json) : Prop :=
  if paramFlag params "submit" then v.get? "signed_transaction" = none
  else ∃ tx, v.get? "signed_transaction" = some tx ∧ tx.get? "resource_bounds" = none

theorem returns_signAndDeploy {chain : ChainId} {account : AccountRef} {tr : Trace} {v : Json}
    (h : Ran (signAndDeploy K chain account b (paramFlag params "submit")) tr (.ok v)) :
    Reached tr ∧ DeploymentReturns params b v := by
  obtain ⟨hreached, answer, rest, hrun⟩ := reached_act rfl h
  refine ⟨hreached, ?_⟩
  obtain ⟨signed, -, tr₁, -, -, hrun⟩ := hrun.bind_ok
  unfold DeploymentReturns
  cases hsubmit : paramFlag params "submit" with
  | true =>
      rw [hsubmit] at hrun
      obtain ⟨_, -, tr₂, -, -, hrun⟩ := hrun.bind_ok
      obtain ⟨hash, -, tr₃, -, -, hrun⟩ := hrun.bind_ok
      obtain ⟨-, hv⟩ := hrun.pure
      cases hv
      rfl
  | false =>
      rw [hsubmit] at hrun
      obtain ⟨-, hv⟩ := hrun.pure
      cases hv
      exact ⟨_, rfl, rfl⟩

section

variable {T : Terms} (hgiven : optFeeBounds params ≠ .ok none)
include hgiven

/-- The bounds of the caller are used as they are. -/
theorem Meets.bounds_bind {f : Option FeeBounds → Serve Json}
    (hf : ∀ b, optFeeBounds params = .ok (some b) → Meets T (f (some b))) :
    Meets T ((optFeeBounds params : Serve (Option FeeBounds)) >>= f) := by
  cases h : optFeeBounds params with
  | error e => exact .throw_bind
  | ok bounds =>
      cases bounds with
      | none => exact absurd h hgiven
      | some b => exact hf b h

theorem Meets.exec_bind {chain : ChainId} {sender : Felt} {calldata : List Felt}
    {carrying : Option (List Felt × Option String)} {f : Felt × FeeBounds → Serve Json}
    (hf : ∀ b, optFeeBounds params = .ok (some b) → ∀ nonce, Meets T (f (nonce, b))) :
    Meets T (resolveExec K chain sender calldata params carrying >>= f) := by
  unfold resolveExec
  rw [bind_assoc]
  refine .bind (bare_resolveNonce chain sender) fun nonce => ?_
  rw [bind_assoc]
  exact .bounds_bind hgiven fun b hb => hf b hb nonce

theorem Meets.declare_bind {chain : ChainId} {sender compiledClassHash : Felt}
    {classJson : Option Json} {nonce : Felt} {f : FeeBounds → Serve Json}
    (hf : ∀ b, optFeeBounds params = .ok (some b) → Meets T (f b)) :
    Meets T (declareBounds chain sender compiledClassHash classJson nonce params >>= f) := by
  unfold declareBounds
  rw [bind_assoc]
  exact .bounds_bind hgiven hf

theorem Meets.deploy_bind {chain : ChainId} {d : DeploymentData} {f : FeeBounds → Serve Json}
    (hf : ∀ b, optFeeBounds params = .ok (some b) → Meets T (f b)) :
    Meets T (deployBounds chain d params >>= f) := by
  unfold deployBounds
  rw [bind_assoc]
  exact .bounds_bind hgiven hf

/-! ### The handlers -/

theorem meets_addInvoke (htail : Tail T params ReturnsBounds) :
    Meets T (handleAddInvoke K client params) := by
  refine .bind (.lift _) fun accountAddress => .bind (.lift _) fun want => .bind (.lift _) fun calls =>
    .bind (.lift _) fun proofFacts => .bind (.lift _) fun proof => .exit fun _ =>
    .bind (bare_scopedAccount want) fun account => .bind (.lift _) fun sender =>
    .bind bare_resolveChain fun chain => .exec_bind hgiven fun b hb nonce => ?_
  exact htail b hb client _ _ _ (.inl ⟨_, _, _, _, _, rfl⟩) (bears_signAndSubmit ..)
    fun _ _ => returns_signAndSubmit

theorem meets_addDeclare (htail : Tail T params ReturnsBounds) :
    Meets T (handleAddDeclare K client params) := by
  refine .bind (.lift _) fun accountAddress => .bind (.lift _) fun want =>
    .bind (bare_scopedAccount want) fun account => .bind (.lift _) fun sender =>
    .bind (.lift _) fun contractClass => .bind (.lift _) fun given => .bind (.lift _) fun classHash =>
    .bind (.lift _) fun compiledClassHash => .bind bare_resolveChain fun chain =>
    .bind (bare_resolveNonce chain sender) fun nonce => .declare_bind hgiven fun b hb => ?_
  exact htail b hb client _ _ _ (.inr (.inl ⟨_, _, _, _, rfl⟩)) (bears_signAndDeclare ..)
    fun _ _ => returns_signAndDeclare

theorem meets_signAndProve (htail : Tail T params ReturnsBounds) :
    Meets T (handleSignAndProve K S client params) := by
  refine .bind (.lift _) fun _ => .bind (.lift _) fun accountAddress => .bind (.lift _) fun want =>
    .bind (.lift _) fun calls => .bind bare_resolveChain fun chain =>
    .bind (bare_scopedAccount want) fun account => .bind (.lift _) fun sender =>
    .bind (bare_resolveNonce chain sender) fun nonce => .bounds_bind hgiven fun b hb => ?_
  exact htail b hb client _ _ _ (.inr (.inr (.inr ⟨_, _, _, rfl⟩))) (bears_signAndEnqueue ..)
    fun _ _ => returns_signAndEnqueue

theorem meets_deployAccount (htail : Tail T params (DeploymentReturns params)) :
    Meets T (handleDeployAccount K client params) := by
  refine .bind (bare_scopedAccountOr ..) fun account => .bind bare_resolveChain fun chain =>
    .bind (confined_requireUndeployed K (by rfl) fun _ _ => by rfl) fun _ =>
    .bind (confined_perform rfl) fun s => .bind (.lift _) fun d => .deploy_bind hgiven fun b hb => ?_
  exact htail b hb client _ _ _ (.inr (.inr (.inl ⟨_, _, _, rfl⟩))) (bears_signAndDeploy ..)
    fun _ _ => returns_signAndDeploy

/-- The user is asked without the fee, and then the transaction is signed. -/
def UnshownTail (T : Terms) (params : Json) : Prop :=
  ∀ b, optFeeBounds params = .ok (some b) → ∀ (label method summary : String) (sign : Serve Json),
    (∀ b', ¬ ShowsFee b' summary) → Confined (Bears b) sign →
    Meets T (askUser label method summary >>= fun decision =>
      (confirmed decision : Serve Unit) >>= fun _ => sign)

theorem meets_requestFunding (htail : UnshownTail T params) :
    Meets T (handleRequestFunding K client params) := by
  refine .exit fun _ => .bind (.lift _) fun amount => ?_
  refine .exit fun _ => ?_
  dsimp only
  split
  · refine .bind (.lift _) fun managerIndex => .bind (bare_scopedAccountOr ..) fun recipientAcct =>
      .bind (.lift _) fun recipient => .bind (confined_perform rfl) fun s =>
      .bind (.lift _) fun manager => ?_
    split
    · refine .bind bare_resolveChain fun chain =>
        .bind (confined_requireDeployed (by rfl) (by rfl) manager) fun _ =>
        .exec_bind hgiven fun b hb nonce => ?_
      exact htail b hb _ _ _ _ not_showsFee_fundingText
        (.bind (bears_signAndSubmit ..) fun _ => .pure _)
    · exact .throw
  · exact .throw

end

theorem unshownTail_refused {e : WalletRpcError} (h : optFeeBounds params = .error e) :
    UnshownTail refused params := by
  intro b hb
  rw [h] at hb
  cases hb

theorem unshownTail_unshown (h : optFeeBounds params = .ok (some b)) :
    UnshownTail (unshown b) params := by
  intro b' hb label method summary sign hsummary hsign
  rw [h] at hb
  cases hb
  have hsilent : ShowsNoFee (.requestApproval ⟨label, method, summary⟩) := ⟨_, rfl, hsummary⟩
  refine ⟨.bind (confined_perform fun _ => .inr hsilent) fun _ => .bind (.lift _) fun _ =>
    Only.mono hsign fun op hop hcarries => .inl (hop hcarries), ?_, ?_⟩
  · exact fun tr v hrun => (reached_act rfl hrun).1
  · intro tr r hrun _
    obtain ⟨a, rest, rfl, -⟩ := hrun.act
    exact ⟨_, List.mem_cons_self, hsilent⟩

end

/-! ## The numbers of the caller -/

/-- Whatever the run shows, signs, hands on or returns has the numbers of the caller. -/
structure Honours (params : Json) (tr : Trace) (r : Except WalletRpcError Json) : Prop where
  used : ∀ e ∈ tr, carries e.1 = true → ∃ b, Uses b e.1 ∧ ExactFor params b
  returned : ∀ v, r = .ok v → ∀ tx, v.get? "signed_transaction" = some tx →
    ∃ b, HasBounds b tx ∧ ExactFor params b

/-- A run that shows, signs or hands on something is of a request with amounts that fit in 64 bits,
that shows the fee, and that returns it with what it signs. -/
def Met (f : FeeRequest) (params : Json) (tr : Trace) (r : Except WalletRpcError Json) : Prop :=
  Reached tr → AmountsFit params ∧ f ≠ .requestFunding ∧
    (f = .deployAccount → paramFlag params "submit" = true ∨ ∃ e, r = .error e)

section

variable {params : Json} {b : FeeBounds} {tr : Trace} {r : Except WalletRpcError Json}
variable {m : Serve Json}

/-- With everything bearing the parsed bounds, the run honours the caller if they are exact. -/
theorem honours_of_bearing (hb : optFeeBounds params = .ok (some b)) {Q : Json → Prop}
    (h : Meets (bearing b Q) m) (hrun : Ran m tr r) (hfit : Reached tr → AmountsFit params)
    (hreturned : ∀ v, r = .ok v → Q v → ReturnsBounds b v) : Honours params tr r where
  used e he hcarries :=
    ⟨b, h.confined.of_ran hrun e he hcarries, (exactFor_iff hb).2 (hfit ⟨e, he, hcarries⟩)⟩
  returned := by
    rintro v rfl tx htx
    obtain ⟨hreached, hQ⟩ := h.ends tr v hrun
    exact ⟨b, hreturned v rfl hQ tx htx, (exactFor_iff hb).2 (hfit hreached)⟩

theorem fit_of_bearing (hb : optFeeBounds params = .ok (some b)) {Q : Json → Prop}
    (h : Meets (bearing b Q) m) (hrun : Ran m tr r) (hhonours : Honours params tr r)
    (hreached : Reached tr) : AmountsFit params := by
  obtain ⟨e, he, hcarries⟩ := hreached
  obtain ⟨b', huses, hexact⟩ := hhonours.used e he hcarries
  have hsame : b' = b := huses.unique (h.confined.of_ran hrun e he hcarries)
  rw [hsame] at hexact
  exact (exactFor_iff hb).1 hexact

theorem honours_iff_of_returns (hb : optFeeBounds params = .ok (some b))
    (h : Meets (bearing b (ReturnsBounds b)) m) (hrun : Ran m tr r) :
    Honours params tr r ↔ (Reached tr → AmountsFit params) :=
  ⟨fit_of_bearing hb h hrun, fun hfit => honours_of_bearing hb h hrun hfit fun _ _ hQ => hQ⟩

theorem honours_iff_of_deployment (hb : optFeeBounds params = .ok (some b))
    (h : Meets (bearing b (DeploymentReturns params b)) m) (hrun : Ran m tr r) :
    Honours params tr r ↔ (Reached tr → AmountsFit params ∧
      (paramFlag params "submit" = true ∨ ∃ e, r = .error e)) := by
  constructor
  · refine fun hhonours hreached => ⟨fit_of_bearing hb h hrun hhonours hreached, ?_⟩
    cases r with
    | error e => exact .inr ⟨e, rfl⟩
    | ok v =>
        by_cases hsubmit : paramFlag params "submit" = true
        · exact .inl hsubmit
        · have hreturns := (h.ends tr v hrun).2
          rw [DeploymentReturns, if_neg hsubmit] at hreturns
          obtain ⟨tx, htx, hnone⟩ := hreturns
          obtain ⟨b', hbounds, -⟩ := hhonours.returned v rfl tx htx
          rw [HasBounds, hnone] at hbounds
          cases hbounds
  · intro hmet
    refine honours_of_bearing hb h hrun (fun hreached => (hmet hreached).1) ?_
    rintro v rfl hreturns tx htx
    rcases (hmet (h.ends tr v hrun).1).2 with hsubmit | ⟨e, he⟩
    · rw [DeploymentReturns, if_pos hsubmit, htx] at hreturns
      cases hreturns
    · cases he

theorem honours_iff_of_unshown (h : Meets (unshown b) m) (hrun : Ran m tr r) :
    Honours params tr r ↔ ¬ Reached tr := by
  constructor
  · intro hhonours hreached
    obtain ⟨e, he, request, hop, hsilent⟩ := h.asks tr r hrun hreached
    obtain ⟨b', huses, -⟩ := hhonours.used e he (by rw [hop]; rfl)
    rw [hop] at huses
    exact hsilent b' huses
  · refine fun hnot => ⟨fun e he hcarries => absurd ⟨e, he, hcarries⟩ hnot, ?_⟩
    rintro v rfl
    exact absurd (h.ends tr v hrun) hnot

/-- Bounds that cannot be read are an invalid request, and nothing comes of it. -/
theorem honours_of_refused (h : Meets refused m) (hrun : Ran m tr r) :
    ¬ Reached tr ∧ (∃ e, r = .error e) ∧ Honours params tr r := by
  have hbare : ∀ e ∈ tr, carries e.1 = false := fun e he => h.confined.of_ran hrun e he
  have hnot : ¬ Reached tr := by
    rintro ⟨e, he, hcarries⟩
    rw [hbare e he] at hcarries
    cases hcarries
  cases r with
  | ok v => exact (h.ends tr v hrun).elim
  | error e =>
      exact ⟨hnot, ⟨e, rfl⟩, fun e he hcarries => absurd ⟨e, he, hcarries⟩ hnot,
        fun v hv => by cases hv⟩

end

/-- Bounds that cannot be read are refused as an invalid request before anything is shown; bounds
that are read are the caller's everywhere if and only if every amount fits in 64 bits, the prompt
shows them, and a deployment is sent and not only signed. -/
theorem bounds_honoured_iff (K : Crates) (S : Setup) (f : FeeRequest) (client : PairedClient)
    (params : Json) (tr : Trace) (r : Except WalletRpcError Json)
    (hgiven : presentParam params "resource_bounds" ≠ none)
    (hrun : Ran (f.handle K S client params) tr r) :
    (Honours params tr r ↔ Met f params tr r) ∧
    ∀ e, optFeeBounds params = .error e →
      (∃ message, e = .invalidRequest message) ∧ ¬ Reached tr ∧ ∃ e', r = .error e' := by
  have hsome : optFeeBounds params ≠ .ok none := by
    intro hnone
    unfold optFeeBounds at hnone
    split at hnone
    · exact hgiven ‹_›
    · obtain ⟨_, -, h⟩ := except_bind_eq_ok.1 hnone
      obtain ⟨_, -, h⟩ := except_bind_eq_ok.1 h
      obtain ⟨_, -, h⟩ := except_bind_eq_ok.1 h
      cases h
  cases hbounds : optFeeBounds params with
  | error e =>
      have hmeets : Meets refused (f.handle K S client params) := by
        cases f with
        | addInvoke => exact meets_addInvoke hsome (tail_refused hbounds _)
        | addDeclare => exact meets_addDeclare hsome (tail_refused hbounds _)
        | deployAccount => exact meets_deployAccount hsome (tail_refused hbounds _)
        | requestFunding => exact meets_requestFunding hsome (unshownTail_refused hbounds)
        | signAndProve => exact meets_signAndProve hsome (tail_refused hbounds _)
      obtain ⟨hnot, hfailed, hhonours⟩ := honours_of_refused hmeets hrun
      refine ⟨⟨fun _ hreached => absurd hreached hnot, fun _ => hhonours⟩, ?_⟩
      rintro e' he'
      cases he'
      exact ⟨onlyInvalid_optFeeBounds params e hbounds, hnot, hfailed⟩
  | ok bounds =>
      refine ⟨?_, fun e he => by cases he⟩
      cases bounds with
      | none => exact absurd hbounds hsome
      | some b =>
          cases f with
          | addInvoke =>
              rw [honours_iff_of_returns hbounds (meets_addInvoke hsome (tail_bearing hbounds _)) hrun]
              simp [Met]
          | addDeclare =>
              rw [honours_iff_of_returns hbounds (meets_addDeclare hsome (tail_bearing hbounds _)) hrun]
              simp [Met]
          | deployAccount =>
              rw [honours_iff_of_deployment hbounds
                (meets_deployAccount hsome (tail_bearing hbounds _)) hrun]
              simp [Met]
          | requestFunding =>
              rw [honours_iff_of_unshown
                (meets_requestFunding hsome (unshownTail_unshown hbounds)) hrun]
              simp [Met]
          | signAndProve =>
              rw [honours_iff_of_returns hbounds (meets_signAndProve hsome (tail_bearing hbounds _)) hrun]
              simp [Met]

/-! ### An amount above 64 bits -/

/-- One call, with a maximal amount of L1 gas. -/
def invokeParams (amount : String) : Json :=
  let none := Json.obj []
  .obj [("account_address", .str "0x1"),
    ("calls", .arr [.obj [("contract_address", .str "0x2"), ("entrypoint", .str "0x3")]]),
    ("nonce", .str "0x0"), ("resource_bounds", .obj [
      ("l1_gas", .obj [("max_amount", .str amount)]), ("l2_gas", none), ("l1_data_gas", none)])]

/-- A user who approves, and a session that signs. -/
def approvingInvoke : (op : Op) → Option (Ans op)
  | .session => some (mainSession (ownAccount 1))
  | .clock _ => some 0
  | .requestApproval _ => some .approve
  | .signInvoke a calls chain p =>
      some ((mainSession (ownAccount 1)).signInvokeFor plainCrates a calls chain p)
  | _ => none

/-- `2 ^ 64 + 5` is shown, signed and returned as 5. -/
theorem bounds_truncated : ∃ tr v,
    Ran (handleAddInvoke plainCrates app (invokeParams "0x10000000000000005")) tr (.ok v) ∧
    Supplied (invokeParams "0x10000000000000005") "l1_gas" "max_amount" (2 ^ 64 + 5) ∧
    ¬ Honours (invokeParams "0x10000000000000005") tr (.ok v) := by
  have hend : ∃ v, answered approvingInvoke
      (handleAddInvoke plainCrates app (invokeParams "0x10000000000000005")).run = some (.ok v) :=
    ⟨_, by rfl⟩
  obtain ⟨v, hend⟩ := hend
  have hdigits : stripPrefix "0x" (trim "0x10000000000000005") = some "10000000000000005" := by
    decide +kernel
  have hsupplied : Supplied (invokeParams "0x10000000000000005") "l1_gas" "max_amount"
      (2 ^ 64 + 5) := by
    refine ⟨_, _, .str "0x10000000000000005", rfl, rfl, rfl, ?_⟩
    rw [Denotes, hdigits]
    exact ⟨2 ^ 128, by decide +kernel⟩
  refine ⟨_, v, follows_replay hend, hsupplied, fun h => ?_⟩
  obtain ⟨b, huses, hexact⟩ := h.used ⟨.signInvoke (ownAccount 1) [⟨2, 3, []⟩] .mainnet
    { nonce := 0, l1Gas := ⟨5, 0⟩ }, _⟩ (List.mem_of_getElem? (i := 4) (by rfl)) rfl
  have hamount := (hexact ("l1_gas", FeeBounds.l1Gas) (by simp [resources]) _).1 hsupplied
  have hb : feeBoundsOf { nonce := 0, l1Gas := ⟨5, 0⟩ } = b := huses
  rw [← hb] at hamount
  exact absurd hamount (by decide)

/-- An amount of 5 is honoured. -/
theorem bounds_honoured_iff_five : ∃ tr r,
    Ran (handleAddInvoke plainCrates app (invokeParams "0x5")) tr r ∧
    (Honours (invokeParams "0x5") tr r ↔ Met .addInvoke (invokeParams "0x5") tr r) := by
  have hend : ∃ v, answered approvingInvoke
      (handleAddInvoke plainCrates app (invokeParams "0x5")).run = some (.ok v) := ⟨_, by rfl⟩
  obtain ⟨v, hend⟩ := hend
  have hrun := follows_replay hend
  exact ⟨_, _, hrun, (bounds_honoured_iff plainCrates plainSetup .addInvoke app (invokeParams "0x5") _ _
    (Option.some_ne_none _) hrun).1⟩

end Strkd.Rpc
