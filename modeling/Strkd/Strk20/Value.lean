import Strkd.Strk20.Phases

/-!
# Plans conserve value

The balance of a token is kept in a wrapping 128-bit accumulator.  A returned plan moves exactly
the amounts of its intent, and conserves every token as long as the token's net amount (deposits
minus transfers minus withdrawals, in the integers) fits the accumulator; intermediate wraps do no
harm, and covering a deficit never wraps.
-/

namespace Strkd.Strk20

open Std (ExtTreeMap)

/-! ## What the actions of a plan move -/

/-- The sum of the amounts of `token`, in unbounded integers. -/
def total (token : Felt) (amounts : List (Felt × U128)) : ℤ :=
  ((amounts.filter fun x => x.1 = token).map fun x => (x.2.toNat : ℤ)).sum

/-- The token and amount of a note. -/
def Note.value (n : Note) : Felt × U128 := (n.token, n.amount)

/-- The change returned in `token`, 0 if there is none. -/
def changeOf (change : ExtTreeMap Felt U128) (token : Felt) : U128 := (change[token]?).getD 0

/-- What the intent adds to the balance of `token`: deposits minus transfers minus withdrawals. -/
def Intent.net (intent : Intent) (token : Felt) : ℤ :=
  total token intent.deposits
    - total token ((intent.transfers ++ intent.withdrawals).map Prod.snd)

/-- `x` is the value of some `i128`. -/
def FitsI128 (x : ℤ) : Prop := -2 ^ 127 ≤ x ∧ x < 2 ^ 127

instance (x : ℤ) : Decidable (FitsI128 x) := inferInstanceAs (Decidable (_ ∧ _))

/-- The plan `p` spends the notes `spends` and moves exactly the amounts of the intent. -/
structure Moves (intent : Intent) (st : State) (p : Plan) (spends : List Note) : Prop where
  held : spends.Subperm st.notes
  spent : p.spent = spends.map Note.id
  used : used p.actions = spends.map fun n => (n.channelKey, n.token, n.index)
  deposited : deposited p.actions = intent.deposits
  withdrawn : withdrawn p.actions = intent.withdrawals
  created : created p.actions =
    intent.transfers ++ p.change.toList.map fun (token, amount) => (st.user, token, amount)

/-- Value in equals value out, for every token. -/
def Conserves (intent : Intent) (p : Plan) (spends : List Note) : Prop :=
  ∀ token, total token (deposited p.actions) + total token (spends.map Note.value) =
    total token (intent.transfers.map Prod.snd) + total token ((withdrawn p.actions).map Prod.snd)
      + (changeOf p.change token).toNat

/-! ## Sums -/

@[simp] theorem total_nil (token : Felt) : total token [] = 0 := rfl

theorem total_cons (token : Felt) (x : Felt × U128) (xs : List (Felt × U128)) :
    total token (x :: xs) = (if x.1 = token then (x.2.toNat : ℤ) else 0) + total token xs := by
  unfold total
  by_cases h : x.1 = token <;> simp [h]

theorem total_append (token : Felt) (xs ys : List (Felt × U128)) :
    total token (xs ++ ys) = total token xs + total token ys := by
  simp [total]

theorem total_nonneg (token : Felt) (xs : List (Felt × U128)) : 0 ≤ total token xs := by
  induction xs with
  | nil => rfl
  | cons x xs ih =>
    rw [total_cons]
    split_ifs <;> omega

theorem total_eq_zero {token : Felt} {xs : List (Felt × U128)} (h : ∀ x ∈ xs, x.1 ≠ token) :
    total token xs = 0 := by
  unfold total
  rw [List.filter_eq_nil_iff.2 fun x hx he => h x hx (of_decide_eq_true he)]
  rfl

theorem total_value_eq_zero {token : Felt} {notes : List Note}
    (h : ∀ n ∈ notes, n.token ≠ token) : total token (notes.map Note.value) = 0 := by
  refine total_eq_zero fun x hx => ?_
  obtain ⟨n, hn, rfl⟩ := List.mem_map.1 hx
  exact h n hn

/-! ## The accumulator -/

theorem signed_eq_ok {a : U128} {x : I128} (h : signed a = .ok x) :
    x = a ∧ x.toInt = a.toNat := by
  unfold signed at h
  split_ifs at h with hm
  cases h
  exact ⟨rfl, BitVec.toInt_eq_toNat_of_msb (by simpa using hm)⟩

/-- The balance of `token`. -/
def balanceOf (balance : ExtTreeMap Felt I128) (token : Felt) : I128 := (balance[token]?).getD 0

theorem balanceOf_addBalance (balance : ExtTreeMap Felt I128) (k token : Felt) (x : I128) :
    balanceOf (addBalance balance k x) token =
      balanceOf balance token + if k = token then x else 0 := by
  unfold balanceOf addBalance
  rw [TreeMap.getElem?_alter]
  split_ifs with h
  · subst h
    rfl
  · exact (BitVec.add_zero _).symm

theorem balanceOf_addDeposits {deposits : List (Felt × U128)} {balance balance' : ExtTreeMap Felt I128}
    (h : addDeposits balance deposits = .ok balance') (token : Felt) :
    balanceOf balance' token = balanceOf balance token + BitVec.ofInt 128 (total token deposits) := by
  induction deposits generalizing balance with
  | nil =>
    cases h
    simp
  | cons d rest ih =>
    obtain ⟨k, amount⟩ := d
    unfold addDeposits at h
    cases ha : signed amount with
    | error e =>
      rw [ha] at h
      cases h
    | ok a =>
      rw [ha] at h
      obtain ⟨rfl, -⟩ := signed_eq_ok ha
      rw [ih h, balanceOf_addBalance, total_cons, BitVec.ofInt_add, BitVec.add_assoc]
      split_ifs <;> simp

theorem balanceOf_subtractPayments {payments : List (Felt × Felt × U128)}
    {balance balance' : ExtTreeMap Felt I128}
    (h : subtractPayments balance payments = .ok balance') (token : Felt) :
    balanceOf balance' token =
      balanceOf balance token + BitVec.ofInt 128 (-total token (payments.map Prod.snd)) := by
  induction payments generalizing balance with
  | nil =>
    cases h
    simp
  | cons d rest ih =>
    obtain ⟨_, k, amount⟩ := d
    unfold subtractPayments at h
    cases ha : signed amount with
    | error e =>
      rw [ha] at h
      cases h
    | ok a =>
      rw [ha] at h
      obtain ⟨rfl, -⟩ := signed_eq_ok ha
      rw [ih h, balanceOf_addBalance, List.map_cons, total_cons, neg_add, BitVec.ofInt_add,
        BitVec.add_assoc]
      split_ifs <;> simp [BitVec.ofInt_neg]

/-- The balance of a token is its net amount, wrapped. -/
theorem balanceOf_balances {intent : Intent} {balance : ExtTreeMap Felt I128}
    (h : balances intent = .ok balance) (token : Felt) :
    balanceOf balance token = BitVec.ofInt 128 (intent.net token) := by
  unfold balances at h
  cases hd : addDeposits ∅ intent.deposits with
  | error e =>
    rw [hd] at h
    cases h
  | ok b =>
    rw [hd] at h
    have hempty : balanceOf ∅ token = 0#128 := by simp [balanceOf]
    rw [balanceOf_subtractPayments h, balanceOf_addDeposits hd, hempty, BitVec.zero_add,
      ← BitVec.ofInt_add, Intent.net, sub_eq_add_neg]

/-- The wrapped value of `x` is `x` exactly when `x` fits. -/
theorem toInt_ofInt_eq_iff (x : ℤ) : (BitVec.ofInt 128 x).toInt = x ↔ FitsI128 x := by
  rw [BitVec.toInt_ofInt, FitsI128, Int.bmod_def]
  norm_num
  split_ifs <;> omega

/-! ## Covering a deficit -/

/-- Adding a note to a negative balance does not wrap. -/
theorem toInt_add_of_neg {b a : I128} (hb : b.toInt < 0) (ha : 0 ≤ a.toInt) :
    (b + a).toInt = b.toInt + a.toInt := by
  have h₁ := b.le_toInt
  have h₂ := a.toInt_lt
  rw [BitVec.toInt_add, ← BitVec.toInt_ofInt, toInt_ofInt_eq_iff, FitsI128]
  norm_num at h₁ h₂ ⊢
  omega

theorem toNat_of_toInt_nonneg {x : I128} (h : 0 ≤ x.toInt) : (x.toNat : ℤ) = x.toInt := by
  rw [BitVec.toInt_eq_toNat_cond] at h ⊢
  split_ifs at h ⊢ <;> omega

theorem spendUntil_eq_ok {notes spends : List Note} {bal bal' : I128} {token : Felt}
    (hnotes : ∀ n ∈ notes, n.token = token) (h : spendUntil bal notes = .ok (bal', spends)) :
    bal'.toInt = bal.toInt + total token (spends.map Note.value) ∧
      ∃ k, spends = notes.take k ∧
        ∀ j < k, bal.toInt + total token ((notes.take j).map Note.value) < 0 := by
  induction notes generalizing bal spends with
  | nil =>
    cases h
    exact ⟨by simp, 0, by simp, by simp⟩
  | cons n rest ih =>
    unfold spendUntil at h
    split_ifs at h with hneg
    · cases h
      exact ⟨by simp, 0, by simp, by simp⟩
    · cases ha : signed n.amount with
      | error e =>
        rw [ha] at h
        cases h
      | ok a =>
        rw [ha] at h
        cases hr : spendUntil (bal + a) rest with
        | error e =>
          simp only [bind, Except.bind, hr] at h
          cases h
        | ok r =>
          obtain ⟨b, spends'⟩ := r
          simp only [bind, Except.bind, hr] at h
          cases h
          obtain ⟨hsum, k, hk, hmin⟩ := ih (fun m hm => hnotes m (.tail _ hm)) hr
          obtain ⟨-, hval⟩ := signed_eq_ok ha
          have hadd := toInt_add_of_neg (by omega : bal.toInt < 0) (by omega : 0 ≤ a.toInt)
          have hhead : n.value.1 = token := hnotes n (.head _)
          have hcons : ∀ xs : List Note, total token ((n :: xs).map Note.value) =
              a.toInt + total token (xs.map Note.value) := fun xs => by
            rw [List.map_cons, total_cons, if_pos hhead, hval]
            rfl
          refine ⟨by rw [hsum, hadd, hcons, add_assoc], k + 1, by rw [hk, List.take_succ_cons], ?_⟩
          intro j hj
          cases j with
          | zero => simpa using hneg
          | succ j =>
            rw [List.take_succ_cons, hcons, ← add_assoc, ← hadd]
            exact hmin j (by omega)

theorem mem_candidates {notes : List Note} {token : Felt} {n : Note} :
    n ∈ candidates notes token ↔ n ∈ notes ∧ n.token = token ∧ n.isOpen = false ∧ 0 < n.amount := by
  unfold candidates
  rw [List.mem_insertionSort, List.mem_filter]
  simp

theorem count_candidates_le (notes : List Note) (token : Felt) (n : Note) :
    (candidates notes token).count n ≤ notes.count n := by
  unfold candidates
  rw [(List.perm_insertionSort _ _).count_eq]
  exact List.filter_sublist.count_le n

/-- `spent` is what covering the balance `bal` of `token` takes: nothing if there is no deficit, else
the shortest prefix of the candidates that covers it. -/
def Greedy (notes : List Note) (token : Felt) (bal : I128) (spent : ℤ) : Prop :=
  0 ≤ bal.toInt ∧ spent = 0 ∨ bal.toInt < 0 ∧ 0 ≤ bal.toInt + spent ∧
    ∃ k, spent = total token (((candidates notes token).take k).map Note.value) ∧
      ∀ j < k, bal.toInt + total token (((candidates notes token).take j).map Note.value) < 0

theorem Greedy.nonneg {notes : List Note} {token : Felt} {bal : I128} {spent : ℤ}
    (h : Greedy notes token bal spent) : 0 ≤ bal.toInt + spent := by
  rcases h with ⟨h, rfl⟩ | ⟨-, h, -⟩
  · omega
  · exact h

/-- A covered balance differs from the deficit by the notes spent. -/
theorem coverToken_eq_ok {notes spends : List Note} {token : Felt} {bal bal' : I128}
    (h : coverToken notes token bal = .ok (bal', spends)) :
    spends.Sublist (candidates notes token) ∧
      bal'.toInt = bal.toInt + total token (spends.map Note.value) ∧
      Greedy notes token bal (total token (spends.map Note.value)) := by
  unfold coverToken at h
  split_ifs at h with hneg
  · cases hs : spendUntil bal (candidates notes token) with
    | error e =>
      rw [hs] at h
      cases h
    | ok r =>
      obtain ⟨b, spends'⟩ := r
      simp only [bind, Except.bind, hs] at h
      split_ifs at h with hb
      cases h
      obtain ⟨hsum, k, hk, hmin⟩ := spendUntil_eq_ok (fun n hn => (mem_candidates.1 hn).2.1) hs
      refine ⟨hk ▸ List.take_sublist _ _, hsum, .inr ⟨hneg, by omega, k, by rw [hk], hmin⟩⟩
  · cases h
    exact ⟨List.nil_sublist _, by simp, .inl ⟨by omega, rfl⟩⟩

theorem changeOf_insert (change : ExtTreeMap Felt U128) (k token : Felt) (v : U128) :
    changeOf (change.insert k v) token = if k = token then v else changeOf change token := by
  unfold changeOf
  rw [TreeMap.getElem?_insert]
  split_ifs <;> rfl

theorem changeOf_eq_zero {change : ExtTreeMap Felt U128} {token : Felt}
    (h : change[token]? = none) : changeOf change token = 0 := by
  unfold changeOf
  rw [h]
  rfl

/-- What covering the balances `bals` spends and returns. -/
structure Covers (notes : List Note) (bals : List (Felt × I128)) (spends : List Note)
    (change : ExtTreeMap Felt U128) : Prop where
  token_mem : ∀ n ∈ spends, n.token ∈ bals.map Prod.fst
  count_le : ∀ n, spends.count n ≤ notes.count n
  change_eq : ∀ token bal, (token, bal) ∈ bals →
    ((changeOf change token).toNat : ℤ) = bal.toInt + total token (spends.map Note.value)
  greedy : ∀ token bal, (token, bal) ∈ bals →
    Greedy notes token bal (total token (spends.map Note.value))
  change_eq_none : ∀ token ∉ bals.map Prod.fst, change[token]? = none
  change_ne_zero : ∀ token : Felt, change[token]? ≠ some (0 : U128)

theorem covers_of_coverDeficits {notes spends : List Note} {bals : List (Felt × I128)}
    {change : ExtTreeMap Felt U128} (hnd : (bals.map Prod.fst).Nodup)
    (h : coverDeficits notes bals = .ok (spends, change)) : Covers notes bals spends change := by
  induction bals generalizing spends change with
  | nil =>
    cases h
    exact ⟨by simp, by simp, by simp, by simp, by simp, by simp⟩
  | cons x rest ih =>
    obtain ⟨token, bal⟩ := x
    rw [List.map_cons, List.nodup_cons] at hnd
    obtain ⟨hnew, hnd⟩ := hnd
    unfold coverDeficits at h
    cases hc : coverToken notes token bal with
    | error e =>
      rw [hc] at h
      cases h
    | ok r =>
    cases hr : coverDeficits notes rest with
    | error e =>
      simp only [bind, Except.bind, hc, hr] at h
      cases h
    | ok r' =>
      obtain ⟨bal', spends₁⟩ := r
      obtain ⟨spends₂, change'⟩ := r'
      simp only [bind, Except.bind, hc, hr] at h
      cases h
      have hrest := ih hnd hr
      obtain ⟨hsub, hsum, hgreedy⟩ := coverToken_eq_ok hc
      have hnonneg := hgreedy.nonneg
      rw [← hsum] at hnonneg
      have htoken : ∀ n ∈ spends₁, n.token = token := fun n hn =>
        (mem_candidates.1 (hsub.subset hn)).2.1
      have hother : ∀ n ∈ spends₂, n.token ≠ token := fun n hn he =>
        hnew (he ▸ hrest.token_mem n hn)
      have hnone : change'[token]? = none := hrest.change_eq_none token hnew
      have hkey : ∀ k b, (k, b) ∈ rest → k ≠ token := fun k b hk he =>
        hnew (List.mem_map.2 ⟨(k, b), hk, he⟩)
      have hspent : ∀ k, total k ((spends₁ ++ spends₂).map Note.value) =
          if k = token then total token (spends₁.map Note.value)
          else total k (spends₂.map Note.value) := fun k => by
        rw [List.map_append, total_append]
        split_ifs with hk
        · subst hk
          rw [total_value_eq_zero hother, add_zero]
        · rw [total_value_eq_zero fun n hn he => hk (he.symm.trans (htoken n hn)), zero_add]
      refine ⟨?_, ?_, ?_, ?_, ?_, ?_⟩
      · intro n hn
        rw [List.map_cons, List.mem_cons]
        rcases List.mem_append.1 hn with hn | hn
        · exact .inl (htoken n hn)
        · exact .inr (hrest.token_mem n hn)
      · intro n
        rw [List.count_append]
        by_cases hn : n.token = token
        · rw [List.count_eq_zero.2 fun hm => hother n hm hn, Nat.add_zero]
          exact (hsub.count_le n).trans (count_candidates_le notes token n)
        · rw [List.count_eq_zero.2 fun hm => hn (htoken n hm), Nat.zero_add]
          exact hrest.count_le n
      · intro k b hk
        rw [hspent]
        rcases List.mem_cons.1 hk with hk | hk
        · cases hk
          rw [if_pos rfl, ← hsum]
          split_ifs with hpos
          · rw [changeOf_insert, if_pos rfl]
            exact toNat_of_toInt_nonneg hnonneg
          · rw [changeOf_eq_zero hnone]
            show (0 : ℤ) = bal'.toInt
            omega
        · have hne := hkey k b hk
          rw [if_neg hne, ← hrest.change_eq k b hk]
          split_ifs
          · rw [changeOf_insert, if_neg hne.symm]
          · rfl
      · intro k b hk
        rw [hspent]
        rcases List.mem_cons.1 hk with hk | hk
        · cases hk
          rwa [if_pos rfl]
        · rw [if_neg (hkey k b hk)]
          exact hrest.greedy k b hk
      · intro k hk
        rw [List.map_cons, List.mem_cons, not_or] at hk
        split_ifs
        · rw [TreeMap.getElem?_insert, if_neg (Ne.symm hk.1)]
          exact hrest.change_eq_none k hk.2
        · exact hrest.change_eq_none k hk.2
      · intro k
        split_ifs with hpos
        · rw [TreeMap.getElem?_insert]
          split_ifs
          · rintro ⟨⟩
            exact absurd hpos (by decide)
          · exact hrest.change_ne_zero k
        · exact hrest.change_ne_zero k

/-- What a selection of notes for the intent spends and returns. -/
structure Selects (intent : Intent) (st : State) (spends : List Note)
    (change : ExtTreeMap Felt U128) : Prop where
  held : spends.Subperm st.notes
  change_eq : ∀ token, ((changeOf change token).toNat : ℤ) =
    (BitVec.ofInt 128 (intent.net token)).toInt + total token (spends.map Note.value)
  greedy : ∀ token, Greedy st.notes token (BitVec.ofInt 128 (intent.net token))
    (total token (spends.map Note.value))
  change_ne_zero : ∀ token : Felt, change[token]? ≠ some (0 : U128)

theorem selects_of_selectNotes {intent : Intent} {st : State} {spends : List Note}
    {change : ExtTreeMap Felt U128} (h : selectNotes intent st = .ok (spends, change)) :
    Selects intent st spends change := by
  unfold selectNotes at h
  cases hb : balances intent with
  | error e =>
    rw [hb] at h
    cases h
  | ok balance =>
    rw [hb] at h
    have hcov := covers_of_coverDeficits (TreeMap.nodup_keys balance) h
    have hbal : ∀ token, (∃ bal, (token, bal) ∈ balance.toList ∧
        BitVec.ofInt 128 (intent.net token) = bal) ∨ (token ∉ balance.toList.map Prod.fst ∧
        BitVec.ofInt 128 (intent.net token) = 0 ∧ total token (spends.map Note.value) = 0) := by
      intro token
      rw [← balanceOf_balances hb, balanceOf]
      cases hk : balance[token]? with
      | some bal => exact .inl ⟨bal, TreeMap.mem_toList.2 hk, rfl⟩
      | none =>
        have hnot : token ∉ balance.toList.map Prod.fst := by
          rw [TreeMap.mem_keys_iff, hk]
          simp
        exact .inr ⟨hnot, rfl, total_value_eq_zero fun n hn he => hnot (he ▸ hcov.token_mem n hn)⟩
    refine ⟨List.subperm_ext_iff.2 fun n _ => hcov.count_le n, fun token => ?_, fun token => ?_,
      hcov.change_ne_zero⟩
    · rcases hbal token with ⟨bal, hmem, hnet⟩ | ⟨hnot, hnet, hzero⟩
      · rw [hcov.change_eq token bal hmem, hnet]
      · rw [changeOf_eq_zero (hcov.change_eq_none token hnot), hzero, hnet]
        rfl
    · rcases hbal token with ⟨bal, hmem, hnet⟩ | ⟨-, hnet, hzero⟩
      · rw [hnet]
        exact hcov.greedy token bal hmem
      · rw [hnet, hzero]
        exact .inl ⟨by decide, rfl⟩

/-- Covering the net amount of `token` leaves a surplus: the net amount is positive, or no number of
the largest notes covers it exactly. -/
def ReturnsChange (intent : Intent) (st : State) (token : Felt) : Prop :=
  let bal := (BitVec.ofInt 128 (intent.net token)).toInt
  let notes := candidates st.notes token
  0 < bal ∨ bal < 0 ∧
    ∀ k ≤ notes.length, bal + total token ((notes.take k).map Note.value) ≠ 0

instance (intent : Intent) (st : State) : DecidablePred (ReturnsChange intent st) :=
  fun _ => inferInstanceAs (Decidable (_ ∨ _ ∧ _))

theorem total_take_mono (token : Felt) (notes : List Note) {j k : ℕ} (h : j ≤ k) :
    total token ((notes.take j).map Note.value) ≤ total token ((notes.take k).map Note.value) := by
  obtain ⟨d, rfl⟩ := Nat.exists_eq_add_of_le h
  rw [List.take_add, List.map_append, total_append]
  have := total_nonneg token (((notes.drop j).take d).map Note.value)
  omega

/-- Greedy covering ends exactly at zero just when some prefix of the candidates sums to the
deficit. -/
theorem Greedy.pos_iff {intent : Intent} {st : State} {token : Felt} {spent : ℤ}
    (h : Greedy st.notes token (BitVec.ofInt 128 (intent.net token)) spent) :
    0 < (BitVec.ofInt 128 (intent.net token)).toInt + spent ↔ ReturnsChange intent st token := by
  unfold ReturnsChange
  rcases h with ⟨hnn, rfl⟩ | ⟨hneg, hnn, k, rfl, hmin⟩
  · constructor
    · intro hpos
      exact .inl (by omega)
    · rintro (hpos | ⟨hneg, -⟩)
      · omega
      · omega
  · constructor
    · refine fun hpos => .inr ⟨hneg, fun j hj hzero => ?_⟩
      have hjk : ¬ j < k := fun hlt => by
        have := hmin j hlt
        omega
      have := total_take_mono token (candidates st.notes token) (not_lt.1 hjk)
      omega
    · rintro (hpos | ⟨-, hne⟩)
      · omega
      · rcases le_total k (candidates st.notes token).length with hk | hk
        · have := hne k hk
          omega
        · have := hne _ le_rfl
          rw [List.take_length] at this
          rw [List.take_of_length_le hk] at hnn ⊢
          omega

/-- A token has change just when covering it leaves a surplus. -/
theorem Selects.change_isSome_iff {intent : Intent} {st : State} {spends : List Note}
    {change : ExtTreeMap Felt U128} (h : Selects intent st spends change) (token : Felt) :
    (change[token]?).isSome ↔ ReturnsChange intent st token := by
  rw [← (h.greedy token).pos_iff, ← h.change_eq token]
  have hne := h.change_ne_zero token
  unfold changeOf
  cases hc : change[token]? with
  | none => simp
  | some v =>
    have hv : v ≠ 0 := fun he => hne (he ▸ hc)
    have : v.toNat ≠ 0 := fun he => hv (BitVec.eq_of_toNat_eq he)
    simp only [Option.isSome_some, Option.getD_some, true_iff]
    omega

/-! ## Plans -/

section

variable {ρ : Type} {rng : Randomness ρ} {C : Curve} {fuel : ℕ} {intent : Intent} {st : State}
  {p : Plan}

/-- A returned plan moves what its intent says, with notes of the state. -/
theorem moves_of_assembled (h : Assembled rng C fuel intent st p) : Moves intent st p h.spends := by
  obtain ⟨hacc, -, -⟩ := h.start_phased
  obtain ⟨⟨hch, hsub, hnotes⟩, hcreated⟩ := h.phased
  have hdep := inPhase_deposits intent.deposits
  have huse := inPhase_useNotes h.spends
  have hw := inPhase_withdraws h.withdrawn
  exact {
    held := (selects_of_selectNotes h.selected).held
    spent := h.spent
    used := by
      rw [h.actions]
      simp only [used_append, used_of_inPhase hacc (by decide), used_of_inPhase hch (by decide),
        used_of_inPhase hsub (by decide), used_of_inPhase hdep (by decide),
        used_of_inPhase hnotes (by decide), used_of_inPhase hw (by decide), used_useNotes,
        List.nil_append, List.append_nil]
    deposited := by
      rw [h.actions]
      simp only [deposited_append, deposited_of_inPhase hacc (by decide),
        deposited_of_inPhase hch (by decide), deposited_of_inPhase hsub (by decide),
        deposited_of_inPhase huse (by decide), deposited_of_inPhase hnotes (by decide),
        deposited_of_inPhase hw (by decide), deposited_deposits, List.nil_append, List.append_nil]
    withdrawn := by
      rw [h.actions]
      simp only [withdrawn_append, withdrawn_of_inPhase hacc (by decide),
        withdrawn_of_inPhase hch (by decide), withdrawn_of_inPhase hsub (by decide),
        withdrawn_of_inPhase hdep (by decide), withdrawn_of_inPhase huse (by decide),
        withdrawn_of_inPhase hnotes (by decide), withdrawn_withdraws h.withdrawn, List.nil_append]
    created := by
      rw [h.actions]
      simp only [created_append, created_of_inPhase hacc (by decide),
        created_of_inPhase hch (by decide), created_of_inPhase hsub (by decide),
        created_of_inPhase hdep (by decide), created_of_inPhase huse (by decide),
        created_of_inPhase hw (by decide), hcreated, List.nil_append, List.append_nil]
      rfl }

/-- The plan conserves value exactly when every net amount fits the accumulator. -/
theorem conserves_iff (h : Assembled rng C fuel intent st p) :
    Conserves intent p h.spends ↔ ∀ token, FitsI128 (intent.net token) := by
  have hm := moves_of_assembled h
  refine forall_congr' fun token => ?_
  rw [hm.deposited, hm.withdrawn, (selects_of_selectNotes h.selected).change_eq token,
    ← toInt_ofInt_eq_iff]
  have hnet : intent.net token = total token intent.deposits
      - (total token (intent.transfers.map Prod.snd)
        + total token (intent.withdrawals.map Prod.snd)) := by
    rw [← total_append, ← List.map_append]
    rfl
  omega

/-- A returned plan spends notes of the state and moves exactly the amounts of its intent, whatever
they are; it conserves the value of every token if and only if every net amount is an `i128`. -/
theorem plan_value {s s' : ρ} (h : Returns (plan rng C fuel intent st) s p s') :
    ∃ spends change, selectNotes intent st = .ok (spends, change) ∧ Moves intent st p spends ∧
      (Conserves intent p spends ↔ ∀ token, FitsI128 (intent.net token)) := by
  obtain ⟨ha⟩ := returns_plan h
  exact ⟨ha.spends, p.change, ha.selected, moves_of_assembled ha, conserves_iff ha⟩

end

/-! ## An overflowing plan -/

/-- A registered user with an open channel to itself and no notes. -/
def soleUser : State where
  user := 1
  userSk := 5
  registered := true
  outgoingChannels := 1
  channels := (∅ : Channels).insert 1
    { recipient := 1, recipientPublicKey := 6, key := 8, isOpen := true, subchannels := ∅ }
  notes := []

/-- Three deposits of one token that sum to `2 ^ 128`. -/
def wrappingDeposits : Intent where
  deposits := [(7, 2 ^ 127 - 1), (7, 2 ^ 127 - 1), (7, 2)]

/-- A curve on which every hash and every point is 0. -/
def zeroCurve : Curve where
  poseidon := fun _ => 0
  generatorMul := fun _ => 0
  pointMul := fun _ _ => none

theorem wrappingDeposits_isSome :
    (result (plan constantRandomness zeroCurve 1 wrappingDeposits soleUser) ()).isSome := by
  decide +kernel

/-- The deposits are taken and nothing comes back: no change note, no transfer, no withdrawal. -/
theorem plan_wraps : ∃ p s', Returns (plan constantRandomness zeroCurve 1 wrappingDeposits soleUser)
    () p s' ∧ ∀ spends, Moves wrappingDeposits soleUser p spends →
      ¬ Conserves wrappingDeposits p spends := by
  obtain ⟨p, hp⟩ := Option.isSome_iff_exists.1 wrappingDeposits_isSome
  obtain ⟨s', h⟩ := returns_of_result hp
  refine ⟨p, s', h, fun spends hm hc => ?_⟩
  obtain ⟨ha⟩ := returns_plan h
  have hnil : spends = ha.spends := by
    rw [List.subperm_nil.1 hm.held, List.subperm_nil.1 (moves_of_assembled ha).held]
  rw [hnil] at hc
  exact absurd ((conserves_iff ha).1 hc 7) (by decide +kernel)

/-- One note, larger than what is withdrawn: the plan returns change. -/
def oneNote : State := { soleUser with
  notes := [⟨11, 7, 100, 8, 0, 1, false⟩] }

theorem plan_value_oneNote :
    ∃ p spends change, selectNotes { withdrawals := [(3, 7, 30)] } oneNote = .ok (spends, change) ∧
      Moves { withdrawals := [(3, 7, 30)] } oneNote p spends ∧
      (Conserves { withdrawals := [(3, 7, 30)] } p spends ↔
        ∀ token, FitsI128 (Intent.net { withdrawals := [(3, 7, 30)] } token)) := by
  have hsome : (result (plan constantRandomness zeroCurve 1 { withdrawals := [(3, 7, 30)] }
      oneNote) ()).isSome := by decide +kernel
  obtain ⟨p, hp⟩ := Option.isSome_iff_exists.1 hsome
  obtain ⟨s', h⟩ := returns_of_result hp
  exact ⟨p, plan_value h⟩

end Strkd.Strk20
