import Strkd.Rpc.Prompts
import Strkd.Rpc.Strk20

/-!
# The prompt of a STRK20 batch

The prompt joins the parts of an intent with semicolons and stands them in a sentence with the
chain, the account, the prover and the pool.  It is taken apart from the right, where every piece
comes from a fixed vocabulary: the account's address is any text.
-/

namespace Strkd.Rpc.Strk20

open Wallet Prover Strkd.Strk20

/-! ## What a batch is described by -/

/-- One part of the description of an intent. -/
inductive Item where
  | register
  | deposit (token : Felt) (amount : U128)
  | send (recipient token : Felt) (amount : U128)
  | withdraw (toAddr token : Felt) (amount : U128)

def Item.text : Item → String
  | register => "register your viewing key (public: links this address to the pool)"
  | deposit t a => "deposit " ++ wei a ++ " of " ++ feltHex t ++ " (public)"
  | send r t a => "send " ++ wei a ++ " of " ++ feltHex t ++ " privately to " ++ feltHex r
  | withdraw r t a => "withdraw " ++ wei a ++ " of " ++ feltHex t ++ " to " ++ feltHex r

def items (intent : Intent) : List Item :=
  (if intent.register then [.register] else [])
    ++ intent.deposits.map (fun (t, a) => .deposit t a)
    ++ intent.transfers.map (fun (r, t, a) => .send r t a)
    ++ intent.withdrawals.map (fun (r, t, a) => .withdraw r t a)

theorem describe_eq (intent : Intent) :
    describe intent = String.intercalate "; " ((items intent).map Item.text) := by
  unfold describe items
  simp only [List.map_append, List.map_map]
  cases intent.register <;> rfl

/-! ## Parts -/

theorem notMem_wei {c : Char} (hc : c.isAlphanum = false) (h : c ∉ " (base units)".toList)
    (a : U128) : c ∉ (wei a).toList := by
  exact notMem_append (notMem_toString hc) h

/-- An amount and a token, at the start of what follows. -/
theorem wei_token_inj {a b : U128} {t u : Felt} {sep rest rest' : String}
    (hsep : sep.toList.head? = some ' ')
    (h : wei a ++ (" of " ++ (feltHex t ++ (sep ++ rest))) =
      wei b ++ (" of " ++ (feltHex u ++ (sep ++ rest')))) : a = b ∧ t = u ∧ rest = rest' := by
  simp only [wei, String.append_assoc] at h
  obtain ⟨hamount, h⟩ := split_at ' ' rfl (notMem_toString rfl) (notMem_toString rfl) h
  have h := String.append_right_inj _ |>.1 h
  obtain ⟨htoken, h⟩ := split_at ' ' hsep (notMem_feltHex rfl _) (notMem_feltHex rfl _) h
  exact ⟨BitVec.eq_of_toNat_eq (toString_injective hamount), feltHex_injective htoken, h⟩

theorem Item.text_injective : Function.Injective Item.text := by
  intro x y h
  have hhead : x.text.toList.head? = y.text.toList.head? := by rw [h]
  cases x with
  | register =>
      cases y with
      | register => rfl
      | _ => simp [Item.text] at hhead
  | deposit t a =>
      cases y with
      | deposit u b =>
          simp only [Item.text, String.append_assoc, String.append_right_inj] at h
          have hsep : (" (public)").toList.head? = some ' ' := by decide
          rw [← String.append_empty (s := " (public)")] at h
          obtain ⟨rfl, rfl, -⟩ := wei_token_inj hsep h
          rfl
      | _ => simp [Item.text] at hhead
  | send r t a =>
      cases y with
      | send r' u b =>
          simp only [Item.text, String.append_assoc, String.append_right_inj] at h
          obtain ⟨rfl, rfl, hto⟩ := wei_token_inj (by decide) h
          rw [feltHex_injective hto]
      | _ => simp [Item.text] at hhead
  | withdraw r t a =>
      cases y with
      | withdraw r' u b =>
          simp only [Item.text, String.append_assoc, String.append_right_inj] at h
          obtain ⟨rfl, rfl, hto⟩ := wei_token_inj (by decide) h
          rw [feltHex_injective hto]
      | _ => simp [Item.text] at hhead

theorem Item.notMem_text {c : Char} (hc : c.isAlphanum = false) (x : Item)
    (h : ∀ s ∈ ["register your viewing key (public: links this address to the pool)", "deposit ",
      " (base units)", " of ", " (public)", "send ", " privately to ", "withdraw ", " to "],
      c ∉ s.toList) : c ∉ x.text.toList := by
  have hwei := notMem_wei hc (h " (base units)" (by simp))
  have hfelt := notMem_feltHex hc
  cases x with
  | register => exact h _ List.mem_cons_self
  | deposit t a =>
      simp only [Item.text, String.toList_append, List.mem_append, not_or]
      exact ⟨⟨⟨⟨h _ (by simp), hwei a⟩, h _ (by simp)⟩, hfelt t⟩, h _ (by simp)⟩
  | send r t a =>
      simp only [Item.text, String.toList_append, List.mem_append, not_or]
      exact ⟨⟨⟨⟨⟨h _ (by simp), hwei a⟩, h _ (by simp)⟩, hfelt t⟩, h _ (by simp)⟩, hfelt r⟩
  | withdraw r t a =>
      simp only [Item.text, String.toList_append, List.mem_append, not_or]
      exact ⟨⟨⟨⟨⟨h _ (by simp), hwei a⟩, h _ (by simp)⟩, hfelt t⟩, h _ (by simp)⟩, hfelt r⟩

/-! ## Intents -/

def Item.isRegister : Item → Bool
  | register => true
  | _ => false

def Item.deposit? : Item → Option (Felt × U128)
  | deposit t a => some (t, a)
  | _ => none

def Item.send? : Item → Option (Felt × Felt × U128)
  | send r t a => some (r, t, a)
  | _ => none

def Item.withdraw? : Item → Option (Felt × Felt × U128)
  | withdraw r t a => some (r, t, a)
  | _ => none

theorem items_injective : Function.Injective items := by
  intro i j h
  have hregister : ∀ i : Intent, (items i).any Item.isRegister = i.register := by
    intro i
    cases hr : i.register <;> simp [items, hr, Item.isRegister]
  have hdeposits : ∀ i : Intent, (items i).filterMap Item.deposit? = i.deposits := by
    intro i
    cases hr : i.register <;>
      simp [items, hr, List.filterMap_append, List.filterMap_cons, List.filterMap_map,
        Function.comp_def, Item.deposit?]
  have htransfers : ∀ i : Intent, (items i).filterMap Item.send? = i.transfers := by
    intro i
    cases hr : i.register <;>
      simp [items, hr, List.filterMap_append, List.filterMap_cons, List.filterMap_map,
        Function.comp_def, Item.send?]
  have hwithdrawals : ∀ i : Intent, (items i).filterMap Item.withdraw? = i.withdrawals := by
    intro i
    cases hr : i.register <;>
      simp [items, hr, List.filterMap_append, List.filterMap_cons, List.filterMap_map,
        Function.comp_def, Item.withdraw?]
  have h₁ := hregister i
  have h₂ := hdeposits i
  have h₃ := htransfers i
  have h₄ := hwithdrawals i
  rw [h] at h₁ h₂ h₃ h₄
  cases i
  cases j
  simp_all

/-- The description of an intent determines it. -/
theorem describe_injective : Function.Injective describe := by
  intro i j h
  rw [describe_eq, describe_eq] at h
  have hsemi : ∀ x : Item, ';' ∉ x.text.toList := fun x => x.notMem_text rfl (by decide)
  have hne : ∀ x : Item, x.text ≠ "" := by
    intro x heq
    have := congrArg (fun s => s.toList.head?) heq
    cases x <;> simp [Item.text] at this
  exact items_injective (Item.text_injective.list_map (intercalate_inj ';' rfl hsemi hne h))

theorem notMem_describe {c : Char} (hsep : c ∉ "; ".toList)
    {intent : Intent} (h : ∀ x ∈ items intent, c ∉ x.text.toList) :
    c ∉ (describe intent).toList := by
  rw [describe_eq]
  refine notMem_intercalate hsep fun s hs => ?_
  obtain ⟨x, hx, rfl⟩ := List.mem_map.1 hs
  exact h x hx

/-- Only a registration is described with a colon. -/
theorem colon_notMem_describe {intent : Intent} (h : intent.register = false) :
    ':' ∉ (describe intent).toList := by
  refine notMem_describe (by decide) fun x hx => ?_
  have hwei := notMem_wei (c := ':') rfl (by decide)
  have hfelt := notMem_feltHex (c := ':') rfl
  cases x with
  | register => simp [items, h] at hx
  | deposit t a =>
      simp only [Item.text, String.toList_append, List.mem_append, not_or]
      exact ⟨⟨⟨⟨by decide, hwei a⟩, by decide⟩, hfelt t⟩, by decide⟩
  | send r t a =>
      simp only [Item.text, String.toList_append, List.mem_append, not_or]
      exact ⟨⟨⟨⟨⟨by decide, hwei a⟩, by decide⟩, hfelt t⟩, by decide⟩, hfelt r⟩
  | withdraw r t a =>
      simp only [Item.text, String.toList_append, List.mem_append, not_or]
      exact ⟨⟨⟨⟨⟨by decide, hwei a⟩, by decide⟩, hfelt t⟩, by decide⟩, hfelt r⟩

/-! ## The sentence -/

/-- The provers a batch can be sent to. -/
def Proving.Known : Proving → Prop
  | .local => True
  | .remote p => DepositProver.describe p ∈
      ["your deposit prover", "the bramble gateway", "Starkscan's STRK20 prover"]

theorem known_of_resolve {cfg : Strk20Config} {chain : ChainId} {p : DepositProver}
    (h : DepositProver.resolve cfg chain = .ok p) : (Proving.remote p).Known := by
  unfold DepositProver.resolve at h
  split at h
  · cases h
    exact List.mem_cons_self
  · split at h
    · split at h <;> cases h <;> simp [Proving.Known, DepositProver.describe]
    · cases h

theorem known_of_provingFor {c : Ctx} {actions : List Action} {proving : Proving}
    (h : provingFor c actions = .ok proving) : proving.Known := by
  unfold provingFor at h
  split at h
  · obtain ⟨p, hp, h⟩ := except_bind_eq_ok.1 h
    cases h
    exact known_of_resolve hp
  · cases h
    trivial

theorem notMem_proving {S : Setup} {proving : Proving} (h : proving.Known) :
    '.' ∉ (proving.describe S).toList ∧ '(' ∉ (proving.describe S).toList := by
  cases proving with
  | «local» =>
      simp only [Proving.describe]
      split <;> decide
  | remote p =>
      simp only [Proving.Known, List.mem_cons, List.not_mem_nil, or_false] at h
      simp only [Proving.describe]
      rcases h with h | h | h <;> rw [h] <;> decide

/-- The end of a prompt: the prover, the length of the plan, the pool, the submission. -/
def batchEnd (S : Setup) (pool : Felt) (proving : Proving) (actions : ℕ) (submission : String) :
    String :=
  proving.describe S ++ " " ++ ("(" ++ (toString actions ++ (" action(s), pool " ++
    (feltHex pool ++ ("); " ++ submission)))))

theorem batchSummary_eq (S : Setup) (c : Ctx) (intent : Intent) (proving : Proving) (plan : Plan)
    (submission : String) : batchSummary S c intent proving plan submission =
      "STRK20 on " ++ (chainName c.chain ++ (" from " ++ c.account.address)) ++
        (": " ++ describe intent) ++
        (". " ++ batchEnd S c.pool proving plan.actions.length submission) ++ "." := by
  have hopen : (" (" : String) = " " ++ "(" := by decide
  unfold batchSummary batchEnd
  rw [hopen]
  simp only [String.append_assoc]

theorem dot_notMem_batchEnd {S : Setup} {pool : Felt} {proving : Proving} {actions : ℕ}
    {submission : String} (h : proving.Known) (hs : '.' ∉ submission.toList) :
    '.' ∉ (batchEnd S pool proving actions submission).toList := by
  have hproving := (notMem_proving (S := S) h).1
  have hactions : '.' ∉ (toString actions).toList := notMem_toString rfl
  have hpool := notMem_feltHex (c := '.') rfl pool
  have htext : '.' ∉ " action(s), pool ".toList := by decide
  have hclose : '.' ∉ "); ".toList := by decide
  simp only [batchEnd, String.toList_append, List.mem_append, not_or]
  exact ⟨⟨hproving, by decide⟩, by decide, hactions, htext, hpool, hclose, hs⟩

theorem batchEnd_inj {S S' : Setup} {pool pool' : Felt} {proving proving' : Proving}
    {actions actions' : ℕ} {submission submission' : String} (hp : proving.Known)
    (hp' : proving'.Known) (h : batchEnd S pool proving actions submission =
      batchEnd S' pool' proving' actions' submission') : pool = pool' := by
  have hnone : ∀ {S : Setup} {proving : Proving}, proving.Known →
      '(' ∉ (proving.describe S ++ " ").toList := by
    intro S proving hk
    rw [String.toList_append, List.mem_append, not_or]
    exact ⟨(notMem_proving hk).2, by decide⟩
  obtain ⟨-, h⟩ := split_at '(' rfl (hnone hp) (hnone hp') h
  have hactions : (" action(s), pool ").toList.head? = some ' ' := by decide
  obtain ⟨-, h⟩ := split_at ' ' hactions (notMem_toString rfl) (notMem_toString rfl) h
  have hclose : ("); ").toList.head? = some ')' := by decide
  obtain ⟨h, -⟩ := split_at ')' hclose (notMem_feltHex rfl _) (notMem_feltHex rfl _) h
  exact feltHex_injective h

/-- The prompts of two batches, both registrations or neither, agree only if the batches do. -/
theorem batchSummary_inj {S S' : Setup} {c c' : Ctx} {intent intent' : Intent}
    {proving proving' : Proving} {plan plan' : Plan} {submission submission' : String}
    (hp : proving.Known) (hp' : proving'.Known) (hs : '.' ∉ submission.toList)
    (hs' : '.' ∉ submission'.toList)
    (hi : intent = intent' ∨ intent.register = false ∧ intent'.register = false)
    (h : batchSummary S c intent proving plan submission =
      batchSummary S' c' intent' proving' plan' submission') :
    c.chain = c'.chain ∧ c.account.address = c'.account.address ∧ c.pool = c'.pool ∧
      intent = intent' := by
  rw [batchSummary_eq, batchSummary_eq, String.append_left_inj] at h
  have hdot : (". ").toList = '.' :: " ".toList := by decide
  obtain ⟨h, hend⟩ := split_at_last '.' hdot (by decide) (dot_notMem_batchEnd hp hs)
    (dot_notMem_batchEnd hp' hs') h
  have hstart : "STRK20 on " ++ (chainName c.chain ++ (" from " ++ c.account.address)) =
      "STRK20 on " ++ (chainName c'.chain ++ (" from " ++ c'.account.address)) ∧
        intent = intent' := by
    rcases hi with rfl | ⟨hr, hr'⟩
    · exact ⟨String.append_left_inj _ |>.1 h, rfl⟩
    · have hcolon : (": ").toList = ':' :: " ".toList := by decide
      obtain ⟨h, hd⟩ := split_at_last ':' hcolon (by decide) (colon_notMem_describe hr)
        (colon_notMem_describe hr') h
      exact ⟨h, describe_injective hd⟩
  have hspace := notMem_chainName (c := ' ') (by decide)
  have hfrom : (" from ").toList.head? = some ' ' := by decide
  obtain ⟨hchain, haddr⟩ := split_at ' ' hfrom (hspace _) (hspace _)
    (String.append_right_inj _ |>.1 hstart.1)
  exact ⟨chainName_injective hchain, haddr, batchEnd_inj hp hp' hend, hstart.2⟩

end Strkd.Rpc.Strk20
