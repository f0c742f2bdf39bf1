import Strkd.Lib.Text
import Strkd.Rpc.Handlers

/-!
# What a prompt says

The texts of the signing prompts, and what can be read back from them.
-/

namespace Strkd.Rpc

open Wallet

/-! ## The texts -/

/-- The fee bounds of a transaction. -/
def feeBoundsOf (p : InvokeV3Params) : FeeBounds := ⟨p.l1Gas, p.l2Gas, p.l1DataGas⟩

def typedDataText (address : String) : String := "Sign typed data with account " ++ address

def invokeText (submit : Bool) (calls : List Call) (proofFacts : List Felt) (address : String)
    (chain : ChainId) (bounds : FeeBounds) : String :=
  (if submit then "Submit" else "Sign") ++ " " ++ toString calls.length ++ " call(s)" ++
    (if proofFacts = [] then "" else " (SNIP-36 proof-carrying)") ++ " from " ++ address ++
    " on " ++ chainName chain ++ ". " ++ summarizeCalls calls ++ ". Max fee: " ++
    boundsSummary bounds

def declareText (submit : Bool) (classHash : Felt) (address : String) (chain : ChainId)
    (bounds : FeeBounds) : String :=
  (if submit then "Declare" else "Sign declaration of") ++ " class " ++ feltHex classHash ++
    " from " ++ address ++ " on " ++ chainName chain ++ ". Max fee: " ++ boundsSummary bounds

def deployText (submit : Bool) (address : String) (chain : ChainId) (bounds : FeeBounds) : String :=
  (if submit then "Deploy" else "Sign deployment of") ++ " account " ++ address ++
    " on " ++ chainName chain ++ ". Max fee: " ++ boundsSummary bounds

def proveText (calls : List Call) (address : String) (chain : ChainId) (bounds : FeeBounds) :
    String :=
  "Sign + locally prove " ++ toString calls.length ++ " virtual call(s) from " ++ address ++
    " on " ++ chainName chain ++ " (SNIP-36; the signed tx is proven " ++
    "on-device, never broadcast). " ++ summarizeCalls calls ++ ". Max fee: " ++
    boundsSummary bounds

def fundingText (client : PairedClient) (amount : ℕ) (chain : ChainId) (managerIndex : U32)
    (manager recipient : String) : String :=
  "Agent " ++ client.label ++ " (" ++ client.id ++ ") requests a top-up of " ++
    strkText amount ++ " STRK (" ++ toString amount ++ " fri) on " ++ chainName chain ++
    " from manager #" ++ toString managerIndex.toNat ++ " " ++ manager ++ " → account " ++ recipient

/-! ## Pieces -/

section Pieces

variable {c : Char}

theorem notMem_0x (hc : c.isAlphanum = false) : c ∉ "0x".toList := by
  have hlist : "0x".toList = ['0', 'x'] := rfl
  rw [hlist]
  rintro h
  rcases List.mem_cons.1 h with rfl | h
  · cases hc
  · cases List.mem_singleton.1 h
    cases hc

theorem notMem_feltHex (hc : c.isAlphanum = false) (f : Felt) : c ∉ (feltHex f).toList := by
  rw [feltHex, String.toList_append, List.mem_append, not_or]
  exact ⟨notMem_0x hc, notMem_hexText hc⟩

theorem notMem_addressHex (hc : c.isAlphanum = false) (f : Felt) : c ∉ (addressHex f).toList := by
  rw [addressHex, String.toList_append, List.mem_append, not_or]
  exact ⟨notMem_0x hc, notMem_hexPadded hc⟩

theorem feltHex_injective : Function.Injective feltHex := fun _ _ h =>
  Fin.ext (hexText_injective (String.append_right_inj _ |>.1 h))

theorem chainName_injective : Function.Injective chainName := by
  intro a b h
  cases a <;> cases b <;> first | rfl | exact absurd h (by decide)

theorem notMem_chainName (hc : c ∉ "SN_MAIN".toList ∧ c ∉ "SN_SEPOLIA".toList) (chain : ChainId) :
    c ∉ (chainName chain).toList := by
  cases chain
  · exact hc.1
  · exact hc.2

theorem notMem_strkText (amount : ℕ) : ' ' ∉ (strkText amount).toList := by
  have hdigits : ∀ n : ℕ, ' ' ∉ (toString n).toList := fun n => notMem_toString (by decide)
  have hpad : ∀ n, ' ' ∉ List.replicate n '0' := fun n h => absurd (List.eq_of_mem_replicate h) (by decide)
  simp only [strkText, fixed4, String.toList_append, String.toList_ofList, List.mem_append, not_or]
  exact ⟨⟨⟨hdigits _, by decide⟩, hpad _⟩, hdigits _⟩

end Pieces

/-! ## Fee bounds and calls -/

theorem notMem_boundText {c : Char} (hc : c.isAlphanum = false) (hx : c ≠ '×') (b : ResourceBounds) :
    c ∉ (boundText b).toList := by
  have hlist : "×".toList = ['×'] := rfl
  simp only [boundText, String.toList_append, List.mem_append, hlist, List.mem_singleton, not_or]
  exact ⟨⟨notMem_toString hc, hx⟩, notMem_toString hc⟩

theorem boundText_injective : Function.Injective boundText := by
  intro a b h
  simp only [boundText, String.append_assoc] at h
  obtain ⟨h₁, h₂⟩ := split_at '×' rfl (notMem_toString rfl) (notMem_toString rfl) h
  have hamount := BitVec.eq_of_toNat_eq (toString_injective h₁)
  have hprice := BitVec.eq_of_toNat_eq (toString_injective h₂)
  cases a
  cases b
  simp_all

theorem boundsSummary_injective : Function.Injective boundsSummary := by
  intro a b h
  have hspace : ∀ b, ' ' ∉ (boundText b).toList := notMem_boundText rfl (by decide)
  simp only [boundsSummary, String.append_assoc, String.append_right_inj] at h
  obtain ⟨h₁, h⟩ := split_at ' ' rfl (hspace _) (hspace _) h
  obtain ⟨h₂, h₃⟩ := split_at ' ' rfl (hspace _) (hspace _) h
  have h₁ := boundText_injective h₁
  have h₂ := boundText_injective h₂
  have h₃ := boundText_injective h₃
  cases a
  cases b
  simp_all

/-- What a prompt shows of a call. -/
def shownCall (c : Call) : Felt × Felt := (c.toAddr, c.selector)

def callText (c : Call) : String := "→ " ++ feltHex c.toAddr ++ " :: selector " ++ feltHex c.selector

theorem notMem_callText {c : Char} (hc : c.isAlphanum = false) (h₁ : c ∉ "→ ".toList)
    (h₂ : c ∉ " :: selector ".toList) (call : Call) : c ∉ (callText call).toList := by
  simp only [callText, String.toList_append, List.mem_append, not_or]
  exact ⟨⟨⟨h₁, notMem_feltHex hc _⟩, h₂⟩, notMem_feltHex hc _⟩

theorem shownCall_eq {a b : Call} (h : callText a = callText b) : shownCall a = shownCall b := by
  simp only [callText, String.append_assoc, String.append_right_inj] at h
  obtain ⟨h₁, h₂⟩ := split_at ' ' rfl (notMem_feltHex rfl _) (notMem_feltHex rfl _) h
  exact Prod.ext (feltHex_injective h₁) (feltHex_injective h₂)

/-- The summary of a list of calls shows each call's contract and selector. -/
theorem map_shownCall_eq {calls calls' : List Call}
    (h : summarizeCalls calls = summarizeCalls calls') :
    calls.map shownCall = calls'.map shownCall := by
  have hne : ∀ c, callText c ≠ "" := by
    intro c heq
    simp only [callText, String.append_eq_empty_iff] at heq
    exact absurd heq.1.1.1 (by decide)
  have hmap : calls.map callText = calls'.map callText :=
    intercalate_inj ';' rfl (notMem_callText rfl (by decide) (by decide)) hne h
  clear h
  induction calls generalizing calls' with
  | nil =>
      cases calls' with
      | nil => rfl
      | cons c l => cases hmap
  | cons a l ih =>
      cases calls' with
      | nil => cases hmap
      | cons c l' =>
          obtain ⟨hac, hl⟩ := List.cons.inj hmap
          rw [List.map_cons, List.map_cons, shownCall_eq hac, ih hl]

theorem notMem_summarizeCalls (calls : List Call) : '.' ∉ (summarizeCalls calls).toList := by
  refine notMem_intercalate (by decide) fun s hs => ?_
  obtain ⟨c, -, rfl⟩ := List.mem_map.1 hs
  exact notMem_callText rfl (by decide) (by decide) c

/-! ## Whole texts -/

/-- The calls and the bounds at the end of a text. -/
theorem calls_bounds_eq {calls calls' : List Call} {bounds bounds' : FeeBounds}
    (h : summarizeCalls calls ++ (". Max fee: " ++ boundsSummary bounds) =
      summarizeCalls calls' ++ (". Max fee: " ++ boundsSummary bounds')) :
    calls.map shownCall = calls'.map shownCall ∧ bounds = bounds' := by
  obtain ⟨h₁, h₂⟩ := split_at '.' rfl (notMem_summarizeCalls _) (notMem_summarizeCalls _) h
  exact ⟨map_shownCall_eq h₁, boundsSummary_injective h₂⟩

theorem invokeText_inj {submit submit' : Bool} {calls calls' : List Call} {facts facts' : List Felt}
    {f f' : Felt} {chain chain' : ChainId} {bounds bounds' : FeeBounds}
    (h : invokeText submit calls facts (addressHex f) chain bounds =
      invokeText submit' calls' facts' (addressHex f') chain' bounds') :
    submit = submit' ∧ calls.map shownCall = calls'.map shownCall ∧ addressHex f = addressHex f' ∧
      chain = chain' ∧ bounds = bounds' := by
  have hword : ∀ b : Bool, ' ' ∉ (if b then "Submit" else "Sign").toList := by decide
  simp only [invokeText, String.append_assoc] at h
  obtain ⟨hsubmit, h⟩ := split_at ' ' rfl (hword _) (hword _) h
  obtain ⟨-, h⟩ := split_at ' ' rfl (notMem_toString rfl) (notMem_toString rfl) h
  have hfrom : ∀ {a b : String}, " from " ++ a ≠ " (SNIP-36 proof-carrying)" ++ b := by
    intro a b heq
    have := congrArg (fun s => s.toList[1]?) heq
    simp at this
  have h : " from " ++ (addressHex f ++ (" on " ++ (chainName chain ++ (". " ++ (summarizeCalls calls ++
      (". Max fee: " ++ boundsSummary bounds)))))) = " from " ++ (addressHex f' ++ (" on " ++
      (chainName chain' ++ (". " ++ (summarizeCalls calls' ++
      (". Max fee: " ++ boundsSummary bounds')))))) := by
    split_ifs at h
    · simpa using h
    · exact absurd (by simpa using h) hfrom
    · exact absurd (by simpa using h.symm) hfrom
    · simpa using h
  obtain ⟨haddr, h⟩ := split_at ' ' rfl (notMem_addressHex rfl _) (notMem_addressHex rfl _)
    (String.append_right_inj _ |>.1 h)
  have hdot := notMem_chainName (c := '.') (by decide)
  obtain ⟨hchain, h⟩ := split_at '.' rfl (hdot _) (hdot _) h
  obtain ⟨hcalls, hbounds⟩ := calls_bounds_eq h
  refine ⟨?_, hcalls, haddr, chainName_injective hchain, hbounds⟩
  revert hsubmit
  cases submit <;> cases submit' <;> decide

theorem declareText_inj {submit submit' : Bool} {classHash classHash' f f' : Felt}
    {chain chain' : ChainId} {bounds bounds' : FeeBounds}
    (h : declareText submit classHash (addressHex f) chain bounds =
      declareText submit' classHash' (addressHex f') chain' bounds') :
    submit = submit' ∧ classHash = classHash' ∧ addressHex f = addressHex f' ∧ chain = chain' ∧
      bounds = bounds' := by
  have hfirst : ∀ {a b : String}, "Declare" ++ a ≠ "Sign declaration of" ++ b := by
    intro a b heq
    have := congrArg (fun s => s.toList[0]?) heq
    simp at this
  simp only [declareText, String.append_assoc] at h
  have hsubmit : submit = submit' := by
    cases submit <;> cases submit'
    · rfl
    · exact absurd h.symm hfirst
    · exact absurd h hfirst
    · rfl
  subst hsubmit
  have h := String.append_right_inj _ |>.1 (String.append_right_inj _ |>.1 h)
  obtain ⟨hclass, h⟩ := split_at ' ' rfl (notMem_feltHex rfl _) (notMem_feltHex rfl _) h
  obtain ⟨haddr, h⟩ := split_at ' ' rfl (notMem_addressHex rfl _) (notMem_addressHex rfl _) h
  have hdot := notMem_chainName (c := '.') (by decide)
  obtain ⟨hchain, hbounds⟩ := split_at '.' rfl (hdot _) (hdot _) h
  exact ⟨rfl, feltHex_injective hclass, haddr, chainName_injective hchain,
    boundsSummary_injective hbounds⟩

theorem notMem_boundsSummary (b : FeeBounds) : '.' ∉ (boundsSummary b).toList := by
  have hdot : ∀ b, '.' ∉ (boundText b).toList := notMem_boundText rfl (by decide)
  simp only [boundsSummary, String.toList_append, List.mem_append, not_or]
  exact ⟨⟨⟨⟨⟨by decide, hdot _⟩, by decide⟩, hdot _⟩, by decide⟩, hdot _⟩

/-- The address of a deployment prompt is read from the right: it may be any text. -/
theorem deployText_inj {submit submit' : Bool} {address address' : String} {chain chain' : ChainId}
    {bounds bounds' : FeeBounds}
    (h : deployText submit address chain bounds = deployText submit' address' chain' bounds') :
    submit = submit' ∧ address = address' ∧ chain = chain' ∧ bounds = bounds' := by
  have hfirst : ∀ {a b : String}, "Deploy" ++ a ≠ "Sign deployment of" ++ b := by
    intro a b heq
    have := congrArg (fun s => s.toList[0]?) heq
    simp at this
  simp only [deployText, String.append_assoc] at h
  have hsubmit : submit = submit' := by
    cases submit <;> cases submit'
    · rfl
    · exact absurd h.symm hfirst
    · exact absurd h hfirst
    · rfl
  subst hsubmit
  have h := String.append_right_inj _ |>.1 (String.append_right_inj _ |>.1 h)
  have hregroup : ∀ (address : String) (chain : ChainId) (rest : String),
      address ++ (" on " ++ (chainName chain ++ (". Max fee: " ++ rest))) =
        address ++ " on" ++ (" " ++ chainName chain) ++ (". Max fee: " ++ rest) := by
    intro address chain rest
    have hon : " on " = " on" ++ " " := by decide
    simp only [hon, String.append_assoc]
  rw [hregroup, hregroup] at h
  have hfee : (". Max fee: ").toList = '.' :: " Max fee: ".toList := by decide
  obtain ⟨h, hbounds⟩ := split_at_last '.' hfee (by decide) (notMem_boundsSummary _)
    (notMem_boundsSummary _) h
  have hone : (" ").toList = ' ' :: [] := by decide
  have hspace := notMem_chainName (c := ' ') (by decide)
  obtain ⟨haddr, hchain⟩ := split_at_last ' ' hone (by decide) (hspace _) (hspace _) h
  exact ⟨rfl, String.append_left_inj _ |>.1 haddr, chainName_injective hchain,
    boundsSummary_injective hbounds⟩

theorem proveText_inj {calls calls' : List Call} {f f' : Felt} {chain chain' : ChainId}
    {bounds bounds' : FeeBounds}
    (h : proveText calls (addressHex f) chain bounds =
      proveText calls' (addressHex f') chain' bounds') :
    calls.map shownCall = calls'.map shownCall ∧ addressHex f = addressHex f' ∧ chain = chain' ∧
      bounds = bounds' := by
  unfold proveText at h
  simp only [String.append_assoc, String.append_right_inj] at h
  obtain ⟨-, h⟩ := split_at ' ' rfl (notMem_toString rfl) (notMem_toString rfl) h
  obtain ⟨haddr, h⟩ := split_at ' ' rfl (notMem_addressHex rfl _) (notMem_addressHex rfl _) h
  have hspace := notMem_chainName (c := ' ') (by decide)
  have hsnip : (" (SNIP-36; the signed tx is proven ").toList.head? = some ' ' := by decide
  obtain ⟨hchain, h⟩ := split_at ' ' hsnip (hspace _) (hspace _) h
  obtain ⟨hcalls, hbounds⟩ := calls_bounds_eq (String.append_right_inj _ |>.1 h)
  exact ⟨hcalls, haddr, chainName_injective hchain, hbounds⟩

/-- A funding prompt repeats the label of the client it is shown with. -/
theorem fundingText_eq (client : PairedClient) (amount : ℕ) (chain : ChainId) (managerIndex : U32)
    (manager recipient : String) : fundingText client amount chain managerIndex manager recipient =
      "Agent " ++ (client.fullLabel ++ (" requests a top-up of " ++ (strkText amount ++ (" STRK (" ++
      (toString amount ++ (" fri) on " ++ (chainName chain ++ (" from manager #" ++
      (toString managerIndex.toNat ++ (" " ++ (manager ++ (" → account " ++ recipient)))))))))))) := by
  have hclose : ") requests a top-up of " = ")" ++ " requests a top-up of " := by decide
  unfold fundingText PairedClient.fullLabel
  rw [hclose]
  simp only [String.append_assoc]

theorem fundingText_inj {client client' : PairedClient} {amount amount' : ℕ}
    {chain chain' : ChainId} {i i' : U32} {f f' : Felt} {recipient recipient' : String}
    (hlabel : client.fullLabel = client'.fullLabel)
    (h : fundingText client amount chain i (addressHex f) recipient =
      fundingText client' amount' chain' i' (addressHex f') recipient') :
    amount = amount' ∧ chain = chain' ∧ addressHex f = addressHex f' ∧ recipient = recipient' := by
  rw [fundingText_eq, fundingText_eq, hlabel] at h
  have h := String.append_right_inj _ |>.1 (String.append_right_inj _ |>.1
    (String.append_right_inj _ |>.1 h))
  obtain ⟨-, h⟩ := split_at ' ' rfl (notMem_strkText _) (notMem_strkText _) h
  obtain ⟨hamount, h⟩ := split_at ' ' rfl (notMem_toString rfl) (notMem_toString rfl) h
  have hspace := notMem_chainName (c := ' ') (by decide)
  obtain ⟨hchain, h⟩ := split_at ' ' rfl (hspace _) (hspace _) h
  obtain ⟨-, h⟩ := split_at ' ' rfl (notMem_toString rfl) (notMem_toString rfl) h
  obtain ⟨hmanager, hrecipient⟩ := split_at ' ' rfl (notMem_addressHex rfl _)
    (notMem_addressHex rfl _) h
  exact ⟨toString_injective hamount, chainName_injective hchain, hmanager, hrecipient⟩

end Strkd.Rpc
