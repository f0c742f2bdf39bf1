import Strkd.Lib.Runs
import Strkd.Lib.TreeMap
import Strkd.Rpc.Deployments
import Strkd.Strk20.Scans

/-!
# Totals of STRK20 batches

Deposits and notes of one token are added up in 128 bits, and a balance is read from the low word of
a `u256`.  Which totals the check of a deposit compares, a submission approves and
`wallet_strk20Balances` reports, and when they are the exact ones (`totals_exact_iff`).
-/

namespace Strkd.Rpc.Strk20

open Std (ExtTreeMap)
open Wallet Prover Strkd.Strk20

/-! ## Exact totals -/

/-- What the deposits of a token come to. -/
def deposited (deposits : List (Felt × U128)) (token : Felt) : ℕ :=
  ((deposits.filter fun d => d.1 = token).map fun d => d.2.toNat).sum

/-- What the pool pulls of a token: its deposits and, of STRK, the fee. -/
def owed (deposits : List (Felt × U128)) (fee : ℕ) (token : Felt) : ℕ :=
  deposited deposits token + if token = strk then fee else 0

/-- What the notes of a token come to. -/
def held (notes : List Note) (token : Felt) : ℕ :=
  ((notes.filter fun n => n.token = token).map fun n => n.amount.toNat).sum

theorem toNat_sum (amounts : List U128) :
    amounts.sum.toNat = (amounts.map BitVec.toNat).sum % 2 ^ 128 := by
  induction amounts with
  | nil => rfl
  | cons a amounts ih =>
      rw [List.sum_cons, BitVec.toNat_add, ih, List.map_cons, List.sum_cons, Nat.add_mod_mod]

theorem toNat_balanceOf (notes : List Note) (token : Felt) :
    (balanceOf notes token).toNat = held notes token % 2 ^ 128 := by
  rw [balanceOf, toNat_sum, List.map_map]
  rfl

/-! ## The maps of totals -/

/-- The total of a token in a map. -/
def totalOf (m : ExtTreeMap Felt U128) (token : Felt) : ℕ := ((m[token]?).getD 0).toNat

theorem totalOf_addAmount (m : ExtTreeMap Felt U128) (token t : Felt) (amount : U128) :
    totalOf (addAmount m token amount) t =
      (totalOf m t + if t = token then amount.toNat else 0) % 2 ^ 128 := by
  have hlt : totalOf m t % 2 ^ 128 = totalOf m t := Nat.mod_eq_of_lt (BitVec.isLt _)
  by_cases h : t = token
  · subst h
    rw [totalOf, addAmount, TreeMap.getElem?_alter, if_pos rfl, Option.getD_some, BitVec.toNat_add,
      if_pos rfl]
    rfl
  · rw [totalOf, addAmount, TreeMap.getElem?_alter, if_neg (Ne.symm h), if_neg h, Nat.add_zero, hlt]
    rfl

theorem isSome_addAmount (m : ExtTreeMap Felt U128) (token t : Felt) (amount : U128) :
    ((addAmount m token amount)[t]?).isSome ↔ (m[t]?).isSome ∨ t = token := by
  rw [addAmount, TreeMap.getElem?_alter]
  by_cases h : t = token
  · subst h
    simp
  · rw [if_neg (Ne.symm h)]
    simp [h]

theorem deposited_concat (deposits : List (Felt × U128)) (d : Felt × U128) (t : Felt) :
    deposited (deposits ++ [d]) t = deposited deposits t + if t = d.1 then d.2.toNat else 0 := by
  unfold deposited
  by_cases h : t = d.1
  · subst h
    simp
  · simp [h, Ne.symm h]

theorem totalOf_sumDeposits (deposits : List (Felt × U128)) (t : Felt) :
    totalOf (sumDeposits deposits) t = deposited deposits t % 2 ^ 128 := by
  induction deposits using List.reverseRecOn with
  | nil => simp [totalOf, sumDeposits, deposited]
  | append_singleton deposits d ih =>
      have hstep : sumDeposits (deposits ++ [d]) = addAmount (sumDeposits deposits) d.1 d.2 := by
        simp [sumDeposits]
      rw [hstep, totalOf_addAmount, ih, deposited_concat, Nat.mod_add_mod]

theorem isSome_sumDeposits (deposits : List (Felt × U128)) (t : Felt) :
    ((sumDeposits deposits)[t]?).isSome ↔ t ∈ deposits.map Prod.fst := by
  induction deposits using List.reverseRecOn with
  | nil => simp [sumDeposits]
  | append_singleton deposits d ih =>
      have hstep : sumDeposits (deposits ++ [d]) = addAmount (sumDeposits deposits) d.1 d.2 := by
        simp [sumDeposits]
      rw [hstep, isSome_addAmount, ih]
      simp

/-- The entries of a map are its keys with their totals. -/
theorem mem_totals {m : ExtTreeMap Felt U128} {t : Felt} {n : U128} :
    (t, n) ∈ m.toList ↔ (m[t]?).isSome ∧ n.toNat = totalOf m t := by
  rw [TreeMap.mem_toList, totalOf]
  cases m[t]? with
  | none => simp
  | some x =>
      constructor
      · intro h
        cases h
        exact ⟨rfl, rfl⟩
      · rintro ⟨-, h⟩
        exact congrArg some (BitVec.eq_of_toNat_eq h).symm

/-- The totals the check compares. -/
theorem forall_needed {deposits : List (Felt × U128)} {fee : U128} {P : Felt → ℕ → Prop}
    (hzero : ∀ t, P t 0) :
    (∀ e ∈ (addAmount (sumDeposits deposits) strk fee).toList, P e.1 e.2.toNat) ↔
      ∀ t, P t (owed deposits fee.toNat t % 2 ^ 128) := by
  have htotal : ∀ t, totalOf (addAmount (sumDeposits deposits) strk fee) t =
      owed deposits fee.toNat t % 2 ^ 128 := fun t => by
    rw [totalOf_addAmount, totalOf_sumDeposits, owed, Nat.mod_add_mod]
  constructor
  · intro h t
    cases hkey : (addAmount (sumDeposits deposits) strk fee)[t]? with
    | none =>
        have hnone := htotal t
        rw [totalOf, hkey] at hnone
        rw [← hnone]
        exact hzero t
    | some n =>
        have hentry := h (t, n) (TreeMap.mem_toList.2 hkey)
        have hsome := htotal t
        rw [totalOf, hkey] at hsome
        rw [← hsome]
        exact hentry
  · rintro h ⟨t, n⟩ he
    rw [(mem_totals.1 he).2, htotal t]
    exact h t

/-! ## The chain -/

/-- What each view of each contract answers. -/
abbrev Views := ChainId → Felt → Snapshot

/-- The latest state of the chain answers the calls that succeed. -/
def OnChain (K : Crates) (view : Views) : (op : Op) → Ans op → Prop
  | .nodeRpc chain method params, reply => ∀ contract selector calldata,
      method = "starknet_call" →
        params = callParams contract selector calldata (.str "latest") →
          ∀ j, rpcResult reply = .ok j → felts K j = .ok (view chain contract selector calldata)
  | _, _ => True

/-- The value of a `u256` given as its low and high words. -/
def u256 (words : List Felt) : ℕ := (out words 0).val + 2 ^ 128 * (out words 1).val

section

variable (K : Crates) (view : Views) (c : Ctx)

/-- The fee the pool asks for. -/
def chainFee : ℕ := ((view c.chain c.pool (getSelectorFromName K "get_fee_amount") []).headD 0).val

/-- The words of the account's balance of a token. -/
def chainBalance (token : Felt) : List Felt :=
  view c.chain token (getSelectorFromName K "balance_of") [c.user]

/-- Programs may do anything; the chain answers. -/
def chainRules : Rules Op Ans where
  allows _ _ := True
  legal _ op a := OnChain K view op a

variable {K} {view} {c}

theorem serves_call {tr : Trace} {R : Rules Op Ans} {chain : ChainId} {contract selector : Felt}
    {calldata : List Felt} (hallow : ∀ tr params, R.allows tr (.nodeRpc chain "starknet_call" params))
    (hlegal : ∀ tr op a, R.legal tr op a → OnChain K view op a) :
    Serves R tr
      (Node.call chain "starknet_call" (callParams contract selector calldata (.str "latest")))
      (fun _ j => felts K j = .ok (view chain contract selector calldata)) fun _ _ => True := by
  refine Serves.act (hallow _ _) fun reply hreply => ?_
  exact serves_lift (fun j hj => hlegal _ _ _ hreply _ _ _ rfl rfl j hj) fun _ _ => trivial

theorem serves_poolFee {tr : Trace} {R : Rules Op Ans}
    (hallow : ∀ tr params, R.allows tr (.nodeRpc c.chain "starknet_call" params))
    (hlegal : ∀ tr op a, R.legal tr op a → OnChain K view op a) :
    Serves R tr (poolFee K c) (fun _ fee => fee.toNat = chainFee K view c)
      fun _ e => ∃ m, e = .node m := by
  refine Serves.bind (Q := fun _ l => l = view c.chain c.pool
    (getSelectorFromName K "get_fee_amount") []) ?_ fun tr' l _ hl => ?_
  · refine Serves.mapErr ?_
    refine Serves.bind (Q := fun _ j => felts K j = .ok (view c.chain c.pool
      (getSelectorFromName K "get_fee_amount") [])) ?_ fun _ j _ hj => ?_
    · refine Serves.mapErr ?_
      exact (serves_call hallow hlegal).weaken (fun _ _ _ h => h) fun _ e _ _ => ⟨_, rfl⟩
    · rw [hj]
      exact serves_lift (fun _ h => (Except.ok.inj h).symm) fun _ h => nomatch h
  · subst hl
    refine Serves.refuse (fun _ => ⟨_, rfl⟩) fun hfits => serves_pure ?_
    rw [BitVec.toNat_ofNat]
    exact Nat.mod_eq_of_lt (Nat.lt_of_not_le hfits)

/-- The first felt of an array of felts. -/
theorem head_of_felts {j : Json} {l : List Felt} {low : Felt} (h : felts K j = .ok l)
    (hlow : ((j.asArray.bind List.head?).bind Json.asStr).bind K.feltFromHex = some low) :
    out l 0 = low := by
  unfold felts at h
  cases hj : j.asArray with
  | none =>
      rw [hj] at h
      cases h
  | some items =>
      rw [hj] at h hlow
      cases items with
      | nil => cases hlow
      | cons v items =>
          obtain ⟨f, rest, hf, -, rfl⟩ := mapM_cons_eq_ok.1 h
          have hv : v.asStr.bind K.feltFromHex = some low := hlow
          rw [hv] at hf
          exact (Except.ok.inj hf).symm

theorem serves_checkBalances {fee : U128} : ∀ {entries : List (Felt × U128)} {tr : Trace},
    Serves (chainRules K view) tr (checkBalances K c fee entries)
      (fun _ _ => ∀ e ∈ entries, e.2.toNat ≤ (out (chainBalance K view c e.1) 0).val)
      fun _ e => (∃ m, e = .node m) ∨
        ¬ ∀ e ∈ entries, e.2.toNat ≤ (out (chainBalance K view c e.1) 0).val
  | [], _ => serves_pure fun _ h => absurd h (List.not_mem_nil)
  | (token, need) :: rest, tr => by
      unfold checkBalances
      refine Serves.bind (Q := fun _ j => felts K j = .ok (chainBalance K view c token)) ?_
        fun tr' j _ hj => ?_
      · refine Serves.mapErr ?_
        refine (serves_call (fun _ _ => trivial) fun _ _ _ h => h).weaken (fun _ _ _ h => h)
          fun _ _ _ _ => ?_
        exact .inl ⟨_, rfl⟩
      · split
        · rename_i low hlow
          have hhead := head_of_felts hj hlow
          have hneed := need.isLt
          refine Serves.refuse (fun hshort => Or.inr fun hall => ?_) fun henough => ?_
          · have hle : need.toNat ≤ (out (chainBalance K view c token) 0).val :=
              hall (token, need) List.mem_cons_self
            rw [hhead] at hle
            omega
          · refine Serves.weaken serves_checkBalances (fun _ _ _ hrest => ?_) fun _ _ _ herr => ?_
            · rw [List.forall_mem_cons]
              refine ⟨?_, hrest⟩
              rw [hhead]
              show need.toNat ≤ low.val
              omega
            · refine herr.imp_right fun hrest hall => ?_
              exact hrest (List.forall_mem_cons.1 hall).2
        · exact serves_throw (.inl ⟨_, rfl⟩)

theorem serves_checkPublicFunds {deposits : List (Felt × U128)} {tr : Trace} :
    Serves (chainRules K view) tr (checkPublicFunds K c deposits)
      (fun _ _ => ∀ t, owed deposits (chainFee K view c) t % 2 ^ 128 ≤
        (out (chainBalance K view c t) 0).val)
      fun _ e => (∃ m, e = .node m) ∨ ¬ ∀ t, owed deposits (chainFee K view c) t % 2 ^ 128 ≤
        (out (chainBalance K view c t) 0).val := by
  refine Serves.bind (Q := fun _ fee => fee.toNat = chainFee K view c) ?_ fun tr' fee _ hfee => ?_
  · exact (serves_poolFee (fun _ _ => trivial) fun _ _ _ h => h).weaken (fun _ _ _ h => h)
      fun _ _ _ h => Or.inl h
  · rw [← hfee, ← forall_needed (P := fun t n => n ≤ (out (chainBalance K view c t) 0).val)
      fun _ => Nat.zero_le _]
    exact serves_checkBalances

end

/-! ## What a submission approves -/

/-- The tokens the pool pulls from the account. -/
def Pulled (deposits : List (Felt × U128)) (fee : ℕ) (token : Felt) : Prop :=
  token ∈ deposits.map Prod.fst ∨ (token = strk ∧ 0 < fee)

section

variable (K : Crates) (view : Views) (c : Ctx)

/-- `call` approves the pool for `amount` of a token. -/
structure Approves (call : Call) (token : Felt) (amount : ℕ) : Prop where
  target : call.toAddr = token
  selector : call.selector = getSelectorFromName K "approve"
  words : ∃ low high, call.calldata = [c.pool, low, high] ∧ u256 [low, high] = amount

/-- One approval for each token the pool pulls, of exactly what it pulls, and then the batch. -/
structure ExactCalls (deposits : List (Felt × U128)) (batch : Call) (calls : List Call) : Prop where
  batched : calls.getLast? = some batch
  once : (calls.dropLast.map Call.toAddr).Nodup
  pulled : ∀ t, t ∈ calls.dropLast.map Call.toAddr ↔ Pulled deposits (chainFee K view c) t
  exact : ∀ call ∈ calls.dropLast,
    Approves K c call call.toAddr (owed deposits (chainFee K view c) call.toAddr)

variable {K} {view} {c}

/-- The approvals of a submission. -/
def approvals (deposits : List (Felt × U128)) (fee : U128) : ExtTreeMap Felt U128 :=
  if 0 < fee then addAmount (sumDeposits deposits) strk fee else sumDeposits deposits

theorem fee_pos_iff {fee : U128} : 0 < fee ↔ 0 < fee.toNat := BitVec.lt_def

theorem isSome_approvals (deposits : List (Felt × U128)) (fee : U128) (t : Felt) :
    ((approvals deposits fee)[t]?).isSome ↔ Pulled deposits fee.toNat t := by
  unfold approvals Pulled
  by_cases hfee : 0 < fee
  · rw [if_pos hfee, isSome_addAmount, isSome_sumDeposits, and_iff_left (fee_pos_iff.1 hfee)]
  · have hno : ¬ (t = strk ∧ 0 < fee.toNat) := fun h => hfee (fee_pos_iff.2 h.2)
    rw [if_neg hfee, isSome_sumDeposits, or_iff_left hno]

theorem totalOf_approvals (deposits : List (Felt × U128)) (fee : U128) (t : Felt) :
    totalOf (approvals deposits fee) t = owed deposits fee.toNat t % 2 ^ 128 := by
  unfold approvals owed
  by_cases hfee : 0 < fee
  · rw [if_pos hfee, totalOf_addAmount, totalOf_sumDeposits, Nat.mod_add_mod]
  · have hzero : fee.toNat = 0 := Nat.eq_zero_of_not_pos fun h => hfee (fee_pos_iff.2 h)
    rw [if_neg hfee, totalOf_sumDeposits, hzero, ite_self, Nat.add_zero]

/-- What the pool does not pull is owed nothing. -/
theorem owed_of_not_pulled {deposits : List (Felt × U128)} {fee : ℕ} {t : Felt}
    (h : ¬ Pulled deposits fee t) : owed deposits fee t = 0 := by
  have hdeposits : deposits.filter (fun d => d.1 = t) = [] := by
    rw [List.filter_eq_nil_iff]
    intro d hd heq
    exact h (.inl (List.mem_map.2 ⟨d, hd, of_decide_eq_true heq⟩))
  have hfee : (if t = strk then fee else 0) = 0 := by
    split_ifs with ht
    · exact Nat.eq_zero_of_not_pos fun hpos => h (.inr ⟨ht, hpos⟩)
    · rfl
  rw [owed, deposited, hdeposits, hfee]
  rfl

theorem approves_iff (t : Felt) (a : U128) (amount : ℕ) :
    Approves K c (approveCall K t c.pool a) t amount ↔ a.toNat = amount := by
  have hval : u256 [Felt.ofNat a.toNat, 0] = a.toNat := by
    have hlt : a.toNat < feltPrime := a.isLt.trans (by decide)
    show (Felt.ofNat a.toNat).val + 2 ^ 128 * 0 = a.toNat
    rw [Felt.val_ofNat_of_lt hlt, Nat.mul_zero, Nat.add_zero]
  constructor
  · rintro ⟨-, -, low, high, hdata, hwords⟩
    obtain ⟨rfl, rfl⟩ : Felt.ofNat a.toNat = low ∧ 0 = high := by
      simpa [approveCall] using hdata
    exact hval.symm.trans hwords
  · intro h
    exact ⟨rfl, rfl, _, _, rfl, hval.trans h⟩

theorem submissionCalls_exact_iff {prepared : Prepared} {deposits : List (Felt × U128)} {fee : U128}
    (hfee : fee.toNat = chainFee K view c) :
    ExactCalls K view c deposits prepared.call (submissionCalls K c prepared deposits fee) ↔
      ∀ t, owed deposits (chainFee K view c) t < 2 ^ 128 := by
  have hcalls : submissionCalls K c prepared deposits fee = (approvals deposits fee).toList.map
      (fun e => approveCall K e.1 c.pool e.2) ++ [prepared.call] := rfl
  have hmap : ∀ l : List (Felt × U128), (l.map fun e => approveCall K e.1 c.pool e.2).map
      Call.toAddr = l.map Prod.fst := fun l => by
    rw [List.map_map]
    rfl
  constructor
  · intro h t
    by_cases ht : Pulled deposits fee.toNat t
    · obtain ⟨n, hn⟩ := Option.isSome_iff_exists.1 ((isSome_approvals deposits fee t).2 ht)
      have hmem : (t, n) ∈ (approvals deposits fee).toList := TreeMap.mem_toList.2 hn
      have hexact := h.exact (approveCall K t c.pool n) (by
        rw [hcalls, List.dropLast_concat]
        exact List.mem_map.2 ⟨(t, n), hmem, rfl⟩)
      have hn : n.toNat = owed deposits (chainFee K view c) t := (approves_iff t n _).1 hexact
      rw [← hn]
      exact n.isLt
    · rw [← hfee, owed_of_not_pulled ht]
      decide
  · intro h
    refine ⟨?_, ?_, fun t => ?_, fun call hcall => ?_⟩
    · rw [hcalls, List.getLast?_concat]
    · rw [hcalls, List.dropLast_concat, hmap]
      exact TreeMap.nodup_keys _
    · rw [hcalls, List.dropLast_concat, hmap, TreeMap.mem_keys_iff, isSome_approvals, hfee]
    · rw [hcalls, List.dropLast_concat] at hcall
      obtain ⟨⟨t, n⟩, he, rfl⟩ := List.mem_map.1 hcall
      refine (approves_iff t n _).2 ?_
      rw [(mem_totals.1 he).2, totalOf_approvals, hfee]
      exact Nat.mod_eq_of_lt (h t)

/-- Of the transactions signed, the calls are exact if and only if every total fits. -/
def submitRules (K : Crates) (view : Views) (c : Ctx) (batch : Call)
    (deposits : List (Felt × U128)) : Rules Op Ans where
  allows _ op := ∀ account calls chain p, op = .signInvoke account calls chain p →
    (ExactCalls K view c deposits batch calls ↔
      ∀ t, owed deposits (chainFee K view c) t < 2 ^ 128)
  legal _ op a := OnChain K view op a

theorem submitRules_quiet {batch : Call} {deposits : List (Felt × U128)} {tr : Trace} {op : Op}
    (h : quiet op = true) : (submitRules K view c batch deposits).allows tr op := by
  rintro account calls chain p rfl
  exact absurd h (by simp [quiet])

theorem serves_quiet {ε α : Type} {batch : Call} {deposits : List (Felt × U128)} {tr : Trace}
    {m : Handler ε Op Ans α} (h : Quiet m) :
    Serves (submitRules K view c batch deposits) tr m (fun _ _ => True) fun _ _ => True :=
  Confined.serves (I := fun _ => True) h (fun _ _ _ hop => submitRules_quiet hop)
    (fun _ _ _ _ _ => trivial) trivial

theorem serves_submitFromAccount {prepared : Prepared} {deposits : List (Felt × U128)}
    {tr : Trace} : Serves (submitRules K view c prepared.call deposits) tr
      (submitFromAccount K c prepared deposits) (fun _ _ => True) fun _ _ => True := by
  refine Serves.bind (serves_quiet (quiet_requireFreshAttestation _)) fun _ _ _ _ => ?_
  refine Serves.bind (Q := fun _ fee => fee.toNat = chainFee K view c) ?_ fun _ fee _ hfee => ?_
  · exact (serves_poolFee (fun _ _ => submitRules_quiet rfl) fun _ _ _ h => h).weaken
      (fun _ _ _ h => h) fun _ _ _ _ => trivial
  refine Serves.bind (serves_quiet (.mapErr (quiet_getNonce ..))) fun _ nonce _ _ => ?_
  refine Serves.bind (serves_quiet (.mapErr (.bind (quiet_call ..) fun _ => .bind (.lift _)
    fun _ => .lift _))) fun _ bounds _ _ => ?_
  refine Serves.act ?_ fun answer _ => ?_
  · rintro account calls chain p heq
    cases heq
    exact submissionCalls_exact_iff hfee
  · exact serves_quiet (.bind (quiet_propagate _) fun signed => .mapErr (quiet_addInvoke ..))

end

/-! ## What the balances report -/

section

variable (K : Crates) (view : Views)

/-- The computations whose operations the chain answers. -/
def onChain : Outcomes (Prog Op Ans) := .prog (OnChain K view)

/-- The response of exact balances. -/
def exactBalances (tokens : List Felt) (notes : List Note) : Json :=
  .arr (tokens.map fun t => .obj [("token", .str (feltHex t)),
    ("balance", .str ("0x" ++ hexText (held notes t)))])

variable {K} {view}

/-- What a program can end with satisfies its postcondition. -/
theorem exists_of_ends {α : Type} {p : Prog Op Ans α} {tr : Trace} {Q : Trace → α → Prop}
    (h : Safe (chainRules K view) tr p Q) {b : α} (hb : (onChain K view).ends p b) :
    ∃ tr', Q tr' b := by
  induction p generalizing tr with
  | pure a =>
      have hb : b = a := hb
      exact ⟨tr, hb ▸ h⟩
  | step op next ih =>
      obtain ⟨a, ha, hb⟩ := hb
      exact ih a (h.2 a ha) hb

theorem answers_latest (c : Ctx) :
    Answers (onChain K view) (c.latest K) (view c.chain c.pool) := by
  rintro selector calldata l h
  have hserves : Serves (chainRules K view) [] ((c.latest K).call selector calldata)
      (fun _ l => l = view c.chain c.pool selector calldata) fun _ _ => True := by
    refine Serves.bind (Q := fun _ j => felts K j = .ok (view c.chain c.pool selector calldata)) ?_
      fun _ j _ hj => ?_
    · exact (serves_call (fun _ _ => trivial) fun _ _ _ h => h).mapErr
    · rw [hj]
      exact serves_lift (fun _ h => (Except.ok.inj h).symm) fun _ _ => trivial
  obtain ⟨_, hl⟩ := exists_of_ends hserves h
  exact hl

theorem gives_mapErr {ε ε' α : Type} {f : ε → ε'} {m : Handler ε Op Ans α} {a : α}
    (h : (onChain K view).Gives (mapErr f m) a) : (onChain K view).Gives m a := by
  obtain ⟨r, hr, h⟩ := Outcomes.progEnds_bind h
  have hmap : .ok a = r.mapError f := h
  cases r with
  | ok b =>
      cases hmap
      exact hr
  | error e => cases hmap

/-- The balances add up the unspent notes of the tokens, in 128 bits. -/
theorem gives_balances {S : Setup} {caller : Caller} {params v : Json}
    (h : (onChain K view).Gives (balances K S caller params) v) :
    ∃ tokens c userSk notes, parseTokens K params = .ok tokens ∧
      (onChain K view).Gives (ctx K S caller params) c ∧
      (onChain K view).Gives c.viewingKey userSk ∧
      Lists Slot.before (Unspent K (view c.chain c.pool) c.user userSk tokens)
        (slotNote K (view c.chain c.pool) c.user userSk) notes ∧
      v = .arr (tokens.map fun t => .obj [("token", .str (feltHex t)),
        ("balance", .str ("0x" ++ hexText (balanceOf notes t).toNat))]) := by
  obtain ⟨tokens, htokens, h⟩ := h.bind
  obtain ⟨c, hc, h⟩ := h.bind
  obtain ⟨-, -, h⟩ := h.bind
  obtain ⟨userSk, hkey, h⟩ := h.bind
  obtain ⟨key, -, h⟩ := h.bind
  obtain ⟨-, h⟩ := h.refuse
  obtain ⟨notes, hnotes, h⟩ := h.bind
  exact ⟨tokens, c, userSk, notes, htokens.lift, hc, hkey,
    (discoverNotes_lists (answers_latest c) (gives_mapErr hnotes)).2, h.pure⟩

theorem exactBalances_iff {tokens : List Felt} {notes : List Note} :
    (.arr (tokens.map fun t => .obj [("token", .str (feltHex t)),
      ("balance", .str ("0x" ++ hexText (balanceOf notes t).toNat))]) : Json) =
        exactBalances tokens notes ↔ ∀ t ∈ tokens, held notes t < 2 ^ 128 := by
  unfold exactBalances
  rw [Json.arr.injEq, List.map_inj_left]
  refine forall₂_congr fun t _ => ?_
  have hiff : ("0x" ++ hexText (balanceOf notes t).toNat = "0x" ++ hexText (held notes t)) ↔
      (balanceOf notes t).toNat = held notes t :=
    ⟨fun h => hexText_injective (String.append_right_inj _ |>.1 h), fun h => by rw [h]⟩
  have hmod := toNat_balanceOf notes t
  simp only [Json.obj.injEq, List.cons.injEq, Prod.mk.injEq, Json.str.injEq, true_and, and_true,
    hiff]
  omega

end

/-! ## When the totals are exact -/

section

variable (K : Crates) (view : Views) (c : Ctx)

def lowWord (token : Felt) : ℕ := (out (chainBalance K view c token) 0).val

def highWord (token : Felt) : ℕ := (out (chainBalance K view c token) 1).val

/-- Either the low words cover all sums modulo `2 ^ 128`, and no sum wraps more often than its high
word says, or some low word does not, and some balance is short in full. -/
structure WordsAgree (deposits : List (Felt × U128)) : Prop where
  covered : (∀ t, owed deposits (chainFee K view c) t % 2 ^ 128 ≤ lowWord K view c t) →
    ∀ t, owed deposits (chainFee K view c) t / 2 ^ 128 ≤ highWord K view c t
  short : (∃ t, lowWord K view c t < owed deposits (chainFee K view c) t % 2 ^ 128) →
    ∃ t, highWord K view c t < owed deposits (chainFee K view c) t / 2 ^ 128 ∨
      (highWord K view c t = owed deposits (chainFee K view c) t / 2 ^ 128 ∧
        lowWord K view c t < owed deposits (chainFee K view c) t % 2 ^ 128)

/-- The account's full balance of every token covers what the pool will pull. -/
def Covered (deposits : List (Felt × U128)) : Prop :=
  ∀ t, owed deposits (chainFee K view c) t ≤ u256 (chainBalance K view c t)

variable {K} {view} {c}

theorem le_words_iff {n low high : ℕ} (hlow : low < 2 ^ 128) :
    n ≤ low + 2 ^ 128 * high ↔
      n / 2 ^ 128 < high ∨ (n / 2 ^ 128 = high ∧ n % 2 ^ 128 ≤ low) := by
  omega

theorem wordsAgree_iff {deposits : List (Felt × U128)}
    (hwords : ∀ t, lowWord K view c t < 2 ^ 128) :
    WordsAgree K view c deposits ↔
      ((∀ t, owed deposits (chainFee K view c) t % 2 ^ 128 ≤ lowWord K view c t) ↔
        Covered K view c deposits) := by
  have hcover : ∀ t, owed deposits (chainFee K view c) t ≤ u256 (chainBalance K view c t) ↔
      owed deposits (chainFee K view c) t / 2 ^ 128 < highWord K view c t ∨
        (owed deposits (chainFee K view c) t / 2 ^ 128 = highWord K view c t ∧
          owed deposits (chainFee K view c) t % 2 ^ 128 ≤ lowWord K view c t) :=
    fun t => le_words_iff (hwords t)
  unfold Covered
  simp only [hcover]
  constructor
  · intro h
    constructor
    · intro hlow t
      exact (h.covered hlow t).lt_or_eq.imp_right fun heq => ⟨heq, hlow t⟩
    · intro hfull
      by_contra hnot
      obtain ⟨t, ht⟩ := not_forall.1 hnot
      obtain ⟨t', ht'⟩ := h.short ⟨t, Nat.lt_of_not_le ht⟩
      have := hfull t'
      omega
  · intro h
    refine ⟨fun hlow t => ?_, fun ⟨t, ht⟩ => ?_⟩
    · rcases h.1 hlow t with hlt | heq
      · exact hlt.le
      · exact heq.1.le
    · have hnot : ¬ ∀ t, owed deposits (chainFee K view c) t / 2 ^ 128 < highWord K view c t ∨
          (owed deposits (chainFee K view c) t / 2 ^ 128 = highWord K view c t ∧
            owed deposits (chainFee K view c) t % 2 ^ 128 ≤ lowWord K view c t) := fun hfull =>
        absurd (h.2 hfull t) (Nat.not_le_of_lt ht)
      obtain ⟨t', ht'⟩ := not_forall.1 hnot
      refine ⟨t', ?_⟩
      omega

/-- Unless the node fails, the check passes if and only if the low words cover the sums as they are
computed. -/
theorem ends_checkPublicFunds {deposits : List (Felt × U128)} {r : Except WalletRpcError Unit}
    (h : (onChain K view).ends (checkPublicFunds K c deposits).run r)
    (hnode : ∀ m, r ≠ .error (.node m)) :
    r = .ok () ↔ ∀ t, owed deposits (chainFee K view c) t % 2 ^ 128 ≤ lowWord K view c t := by
  have hserves : Serves (chainRules K view) [] (checkPublicFunds K c deposits) _ _ :=
    serves_checkPublicFunds
  obtain ⟨_, hends⟩ := exists_of_ends hserves h
  cases r with
  | ok u => exact ⟨fun _ => hends, fun _ => rfl⟩
  | error e =>
      rcases hends with ⟨m, rfl⟩ | hshort
      · exact absurd rfl (hnode m)
      · exact ⟨fun h => (nomatch h), fun hall => absurd hall hshort⟩

end

/-- The check passes exactly for the accounts that can pay, a submission approves exactly what the
pool pulls, and the balances report the exact sums of the unspent notes, each if and only if its
sums fit the words they are compared and kept in. -/
theorem totals_exact_iff (K : Crates) (view : Views) :
    (∀ c deposits r, (∀ t, lowWord K view c t < 2 ^ 128) →
      (onChain K view).ends (checkPublicFunds K c deposits).run r →
        (∀ m, r ≠ .error (.node m)) →
          ((r = .ok () ↔ Covered K view c deposits) ↔ WordsAgree K view c deposits)) ∧
    (∀ c prepared deposits, Safe (submitRules K view c prepared.call deposits) []
      (submitFromAccount K c prepared deposits).run fun _ _ => True) ∧
    ∀ S caller params v, (onChain K view).Gives (balances K S caller params) v →
      ∃ tokens c userSk notes, parseTokens K params = .ok tokens ∧
        (onChain K view).Gives (ctx K S caller params) c ∧
        (onChain K view).Gives c.viewingKey userSk ∧
        Lists Slot.before (Unspent K (view c.chain c.pool) c.user userSk tokens)
          (slotNote K (view c.chain c.pool) c.user userSk) notes ∧
        (v = exactBalances tokens notes ↔ ∀ t ∈ tokens, held notes t < 2 ^ 128) := by
  refine ⟨fun c deposits r hwords hends hnode => ?_, fun c prepared deposits => ?_,
    fun S caller params v h => ?_⟩
  · rw [ends_checkPublicFunds hends hnode, wordsAgree_iff hwords]
  · refine Safe.mono serves_submitFromAccount fun _ _ _ _ => trivial
  · obtain ⟨tokens, c, userSk, notes, htokens, hc, hkey, hnotes, rfl⟩ := gives_balances h
    exact ⟨tokens, c, userSk, notes, htokens, hc, hkey, hnotes, exactBalances_iff⟩

/-! ## A node with a given state -/

/-- The contract and the calldata of a `starknet_call`. -/
def calledView (params : Json) : Option (Felt × List Felt) :=
  (params.get? "request").bind fun request =>
    (((request.get? "contract_address").bind Json.asStr).bind plainCrates.feltFromHex).bind
      fun contract => ((request.get? "calldata").bind fun v =>
        (felts plainCrates v).toOption).map fun calldata => (contract, calldata)

theorem felts_feltArr (l : List Felt) : felts plainCrates (feltArr l) = .ok l := by
  show (l.map fun f => Json.str (feltHex f)).mapM _ = Except.ok l
  induction l with
  | nil => rfl
  | cons f l ih =>
      refine mapM_cons_eq_ok.2 ⟨f, l, ?_, ih, rfl⟩
      dsimp only [Json.asStr, Option.bind_some]
      rw [plainCrates_feltFromHex]

theorem calledView_callParams (contract selector : Felt) (calldata : List Felt) (block : Json) :
    calledView (callParams contract selector calldata block) = some (contract, calldata) := by
  have hcalldata := felts_feltArr calldata
  simp [calledView, callParams, Json.get?, Json.asStr, List.lookup_cons, plainCrates_feltFromHex,
    hcalldata, Except.toOption]

/-- What the contracts answer on a calldata, whatever the view. -/
abbrev Storage := Felt → List Felt → List Felt

def Storage.views (st : Storage) : Views := fun _ contract _ calldata => st contract calldata

/-- A node on a state of the chain. -/
def Storage.reply (st : Storage) (method : String) (params : Json) : Json :=
  if method = "starknet_call" then
    match calledView params with
    | some (contract, calldata) => .obj [("result", feltArr (st contract calldata))]
    | none => .obj [("error", .str "Invalid params")]
  else nodeReply method

/-- A session with one account and the given pool, whose user approves, beside a node. -/
def holder (st : Storage) (pool : String) : (op : Op) → Option (Ans op)
  | .nodeRpc _ method params => some (.body (st.reply method params))
  | .nodeFor _ => some true
  | .strk20Config _ => some { pool }
  | .viewingKey _ _ _ => some (.ok 2)
  | .signInvoke a calls chain p =>
      some ((mainSession (ownAccount 1)).signInvokeFor plainCrates a calls chain p)
  | op => approvingAll plainCrates (ownAccount 1) op

theorem onChain_holder (st : Storage) (pool : String) (op : Op) (a : Ans op)
    (h : holder st pool op = some a) : OnChain plainCrates st.views op a := by
  cases op with
  | nodeRpc chain method params =>
      cases h
      rintro contract selector calldata rfl rfl j hj
      rw [Storage.reply, if_pos rfl, calledView_callParams] at hj
      cases hj
      exact felts_feltArr _
  | _ => trivial

theorem ends_of_answered {K : Crates} {view : Views} {oracle : (op : Op) → Option (Ans op)}
    (h : ∀ op a, oracle op = some a → OnChain K view op a) {α : Type} {p : Prog Op Ans α} {b : α}
    (hb : answered oracle p = some b) : (onChain K view).ends p b := by
  induction p with
  | pure a => exact (Option.some.inj hb).symm
  | step op next ih =>
      obtain ⟨a, ha, hb⟩ := Option.bind_eq_some_iff.1 hb
      exact ⟨a, h op a ha, ih a hb⟩

/-! ### An account that can pay -/

/-- A pool with a fee of 3, in which user 1 has one incoming channel, with key 5, whose subchannel of
token 3 holds two open notes. -/
def savingsPool (calldata : List Felt) : List Felt :=
  let C := plainCurve
  if calldata = [] then [3]
  else if calldata = [1] then [1]
  else if calldata = [1, 0] then [4, 5 + encChannelKeyHash C 8, 9 + encSenderAddrHash C 8]
  else if calldata = [subchannelId C 5 0] then [6, 3 + encTokenHash C 5 0 6]
  else if calldata = [noteId C 5 3 0] then [.ofNat (2 ^ 128 + 10)]
  else if calldata = [noteId C 5 3 1] then [.ofNat (2 ^ 128 + 20)]
  else [0, 0, 0]

/-- The account holds 12 of token 7 and 10 STRK, and notes in the pool. -/
def savings : Storage := fun contract calldata =>
  if contract = 7 then [12, 0]
  else if contract = strk then [10, 0]
  else savingsPool calldata

def savingsCtx : Ctx where
  account := ownAccount 1
  user := 1
  chain := .mainnet
  pool := 100
  cfg := { pool := "0x64" }

/-- Two deposits of one token, and one of STRK. -/
def savingsDeposits : List (Felt × U128) := [(7, 5), (7, 6), (strk, 4)]

def savingsBatch : Prepared := ⟨⟨100, 1, []⟩, ⟨"proof", [], [], none⟩⟩

def savingsSetup : Setup := { plainSetup with hasProver := true }

def tokenThree : Json := .obj [("tokens", .arr [.str "0x3"])]

theorem owed_savings (t : Felt) :
    owed savingsDeposits (chainFee plainCrates savings.views savingsCtx) t =
      if t = 7 then 11 else if t = strk then 7 else 0 := by
  have hfee : chainFee plainCrates savings.views savingsCtx = 3 := rfl
  rw [hfee]
  split_ifs with h₇ hs
  · subst h₇
    decide +kernel
  · subst hs
    decide +kernel
  · refine owed_of_not_pulled ?_
    rintro (h | ⟨h, -⟩)
    · have hmem : t = 7 ∨ t = strk := by simpa [savingsDeposits] using h
      exact hmem.elim h₇ hs
    · exact hs h

theorem owed_savings_lt (t : Felt) :
    owed savingsDeposits (chainFee plainCrates savings.views savingsCtx) t < 2 ^ 128 := by
  rw [owed_savings]
  split_ifs <;> decide

theorem savings_balance (t : Felt) : lowWord plainCrates savings.views savingsCtx t =
    if t = 7 then 12 else if t = strk then 10 else 1 := by
  have hlow : lowWord plainCrates savings.views savingsCtx t = (out (savings t [1]) 0).val := rfl
  rw [hlow, savings]
  split_ifs <;> rfl

theorem wordsAgree_savings : WordsAgree plainCrates savings.views savingsCtx savingsDeposits where
  covered _ t := by
    rw [Nat.div_eq_of_lt (owed_savings_lt t)]
    exact Nat.zero_le _
  short := by
    rintro ⟨t, ht⟩
    rw [Nat.mod_eq_of_lt (owed_savings_lt t), savings_balance, owed_savings] at ht
    split_ifs at ht <;> omega

/-- The calls of the transactions a run has signed. -/
def signedCalls (tr : Trace) : List (List Call) := tr.filterMap fun e =>
  match e.1 with
  | .signInvoke _ calls _ _ => some calls
  | _ => none

theorem mem_of_signedCalls {tr : Trace} {calls : List Call} (h : calls ∈ signedCalls tr) :
    ∃ before after e account chain p,
      tr = before ++ e :: after ∧ e.1 = .signInvoke account calls chain p := by
  obtain ⟨e, he, hcalls⟩ := List.mem_filterMap.1 h
  obtain ⟨before, after, rfl⟩ := List.append_of_mem he
  split at hcalls
  · rename_i account calls' chain p hop
    cases hcalls
    exact ⟨before, after, e, account, chain, p, rfl, hop⟩
  · cases hcalls

/-- An account that can pay passes the check, approves 11 of token 7 and 7 STRK, and is told that its
two notes of token 3 come to 30. -/
theorem totals_exact_iff_savings :
    (answered (holder savings "0x64") (checkPublicFunds plainCrates savingsCtx savingsDeposits).run =
      some (.ok ()) ∧ Covered plainCrates savings.views savingsCtx savingsDeposits) ∧
    (∃ calls, calls.map Call.toAddr = [7, strk, 100] ∧
      calls ∈ signedCalls (replay (holder savings "0x64")
        (submitFromAccount plainCrates savingsCtx savingsBatch savingsDeposits).run) ∧
      ExactCalls plainCrates savings.views savingsCtx savingsDeposits savingsBatch.call calls) ∧
    ∃ v, answered (holder savings "0x64")
        (balances plainCrates savingsSetup .desktop tokenThree).run = some (.ok v) ∧
      v.render = "[\x7b\"token\":\"0x3\",\"balance\":\"0x1e\"\x7d]" ∧
      ∃ tokens notes, parseTokens plainCrates tokenThree = .ok tokens ∧
        (v = exactBalances tokens notes ↔ ∀ t ∈ tokens, held notes t < 2 ^ 128) := by
  obtain ⟨hcheck, hsubmit, hbalances⟩ := totals_exact_iff plainCrates savings.views
  refine ⟨?_, ?_, ?_⟩
  · have hpass : answered (holder savings "0x64")
        (checkPublicFunds plainCrates savingsCtx savingsDeposits).run = some (.ok ()) := by
      decide +kernel
    have hends := ends_of_answered (onChain_holder savings "0x64") hpass
    have hwords : ∀ t, lowWord plainCrates savings.views savingsCtx t < 2 ^ 128 := fun t => by
      rw [savings_balance]
      split_ifs <;> decide
    exact ⟨hpass,
      ((hcheck savingsCtx savingsDeposits _ hwords hends nofun).2 wordsAgree_savings).1 rfl⟩
  · have hcalls : ((signedCalls (replay (holder savings "0x64") (submitFromAccount plainCrates
        savingsCtx savingsBatch savingsDeposits).run)).map fun calls => calls.map Call.toAddr) =
          [[7, strk, 100]] := by decide +kernel
    obtain ⟨calls, hmem, haddr⟩ := List.mem_map.1 (hcalls ▸ List.mem_singleton_self _)
    obtain ⟨before, after, e, account, chain, p, htr, hop⟩ := mem_of_signedCalls hmem
    have hlegal := forall_mem_replay (onChain_holder savings "0x64") (submitFromAccount plainCrates
      savingsCtx savingsBatch savingsDeposits).run
    have hallowed := (hsubmit savingsCtx savingsBatch savingsDeposits).allows_of_performs
      (fun e he _ => hlegal e he) (performs_replay _ _) htr
    exact ⟨calls, haddr, hmem, (hallowed account calls chain p hop).2 owed_savings_lt⟩
  · have hrender : ((answered (holder savings "0x64") (balances plainCrates savingsSetup .desktop
        tokenThree).run).bind fun r => r.toOption.map Json.render) =
          some "[\x7b\"token\":\"0x3\",\"balance\":\"0x1e\"\x7d]" := by decide +kernel
    obtain ⟨r, hr, hv⟩ := Option.bind_eq_some_iff.1 hrender
    obtain ⟨v, hok, hrender⟩ := Option.map_eq_some_iff.1 hv
    cases r with
    | error e => cases hok
    | ok v' =>
        cases hok
        have hgives := ends_of_answered (onChain_holder savings "0x64") hr
        obtain ⟨tokens, c, userSk, notes, htokens, -, -, -, hiff⟩ :=
          hbalances savingsSetup .desktop tokenThree v hgives
        exact ⟨v, hr, hrender, tokens, notes, htokens, hiff⟩

/-! ### Amounts that wrap -/

/-- Every view answers two zeros: no fee and no balances. -/
def emptyViews : Views := fun _ _ _ _ => [0, 0]

def emptyNode : (op : Op) → Option (Ans op)
  | .nodeRpc _ _ _ => some (.body (.obj [("result", .arr [.str "0x0", .str "0x0"])]))
  | _ => none

theorem onChain_emptyNode (op : Op) (a : Ans op) (h : emptyNode op = some a) :
    OnChain plainCrates emptyViews op a := by
  cases op with
  | nodeRpc chain method params =>
      cases h
      rintro contract selector calldata - - j hj
      cases hj
      rfl
  | _ => trivial

def emptyCtx : Ctx where
  account := ⟨.user, 0, "0x5", "", .openZeppelin, none⟩
  user := 5
  chain := .mainnet
  pool := mainnetPool
  cfg := {}

/-- Two deposits of `2 ^ 127` each. -/
def halves : Json :=
  let half := Json.obj [("type", .str "deposit"), ("token", .str "0x7"),
    ("amount", .str "0x80000000000000000000000000000000")]
  .obj [("actions", .arr [half, half])]

/-- The deposits come to `2 ^ 128` and pass the check of an account that holds nothing. -/
theorem totals_overlooked :
    (parseActions plainCrates halves).toOption.map (fun actions => (intentOf actions).deposits) =
      some [(7, BitVec.ofNat 128 (2 ^ 127)), (7, BitVec.ofNat 128 (2 ^ 127))] ∧
    (onChain plainCrates emptyViews).ends (checkPublicFunds plainCrates emptyCtx
      [(7, BitVec.ofNat 128 (2 ^ 127)), (7, BitVec.ofNat 128 (2 ^ 127))]).run (.ok ()) ∧
    ¬ Covered plainCrates emptyViews emptyCtx
      [(7, BitVec.ofNat 128 (2 ^ 127)), (7, BitVec.ofNat 128 (2 ^ 127))] := by
  refine ⟨by decide +kernel, ?_, fun h => absurd (h 7) (by decide +kernel)⟩
  exact ends_of_answered onChain_emptyNode (by rfl)

end Strkd.Rpc.Strk20
