import Strkd.Strk20.Filters
import Strkd.Strk20.Shortfalls

/-!
# What a filter can lose

A plan looks for notes of the tokens it pays with.  The one token it may miss notes of is a token that
is deposited only, when its deposits overflow their balance to a deficit.
-/

namespace Strkd.Strk20

open Std (ExtTreeMap)
open Wallet (Crates)
open Rpc (Ans Op Serve WalletRpcError)
open Rpc.Strk20 (Ctx discoverChannels discoverState)
open Snapshot

/-! ## Covering tokens without their notes -/

/-- No note of the token can be spent, and its notes are reported as nothing. -/
def Worthless (notes : List Note) (token : Felt) : Prop :=
  (∀ n ∈ notes, ¬ Spendable token n) ∧
    ((notes.filter fun n => n.token = token).map Note.amount).sum = 0

/-- A balance that the notes of its token do not cover. -/
def Refused (notes : List Note) (token : Felt) (bal : ℤ) : Prop :=
  bal < 0 ∧ ((∃ n ∈ notes, Spendable token n ∧ 2 ^ 127 ≤ n.amount.toNat) ∨
    bal + spendable notes token < 0)

section

variable {notes notes' : List Note} {token : Felt} {bal : I128}

theorem coverToken_congr (h : (notes.filter fun n => n.token = token) =
    notes'.filter fun n => n.token = token) :
    coverToken notes token bal = coverToken notes' token bal := by
  have hcandidates : candidates notes token = candidates notes' token := by
    have hfilter : ∀ notes : List Note,
        (notes.filter fun n => n.token = token ∧ n.isOpen = false ∧ 0 < n.amount) =
          (notes.filter fun n => n.token = token).filter
            fun n => decide (n.isOpen = false ∧ 0 < n.amount) := by
      intro notes
      rw [List.filter_filter]
      refine List.filter_congr fun n _ => ?_
      by_cases htoken : n.token = token <;> simp [htoken]
    unfold candidates
    rw [hfilter, hfilter, h]
  unfold coverToken
  rw [hcandidates, h]

theorem coverToken_of_nonneg (h : 0 ≤ bal.toInt) : coverToken notes token bal = .ok (bal, []) := by
  unfold coverToken
  rw [if_neg (by omega)]
  rfl

theorem coverToken_nil (h : bal.toInt < 0) :
    coverToken [] token bal = .error (.insufficientBalance token (-bal) 0) := by
  unfold coverToken
  rw [if_pos h]
  simp only [candidates, List.filter_nil, List.insertionSort_nil, spendUntil, bind, Except.bind,
    if_pos h]
  rfl

theorem candidates_eq_nil : candidates notes token = [] ↔ ∀ n ∈ notes, ¬ Spendable token n := by
  rw [List.eq_nil_iff_forall_not_mem]
  constructor
  · exact fun h n hn hspend => h n (mem_candidates_iff.2 ⟨hn, hspend⟩)
  · exact fun h n hn => h n (mem_candidates_iff.1 hn).1 (mem_candidates_iff.1 hn).2

/-- Spending notes fails only at one that does not fit. -/
theorem spendUntil_eq_error {e : Error} (h : spendUntil bal notes = .error e) :
    ∃ m, e = .read m := by
  induction notes generalizing bal with
  | nil => cases h
  | cons n rest ih =>
      unfold spendUntil at h
      split_ifs at h with hneg
      unfold signed at h
      split_ifs at h with hm
      · exact ⟨_, (Except.error.inj h).symm⟩
      · cases hr : spendUntil (bal + n.amount) rest with
        | ok r =>
            simp only [bind, Except.bind, hr] at h
            cases h
        | error e' =>
            simp only [bind, Except.bind, hr] at h
            cases h
            exact ih hr

/-- Worthless notes, and no others, might as well not be there. -/
theorem coverToken_eq_nil_iff (h : bal.toInt < 0) :
    coverToken notes token bal = coverToken [] token bal ↔ Worthless notes token := by
  rw [coverToken_nil h]
  unfold coverToken Worthless
  rw [if_pos h, ← candidates_eq_nil]
  constructor
  · intro heq
    cases hs : spendUntil bal (candidates notes token) with
    | error e =>
        -- a note that does not fit is another failure
        obtain ⟨m, rfl⟩ := spendUntil_eq_error hs
        rw [hs] at heq
        cases heq
    | ok r =>
        obtain ⟨bal', spends⟩ := r
        rw [hs] at heq
        simp only [bind, Except.bind] at heq
        by_cases hneg : bal'.toInt < 0
        · rw [if_pos hneg] at heq
          obtain ⟨-, hshort, hsum⟩ := Error.insufficientBalance.inj (Except.error.inj heq)
          refine ⟨?_, hsum⟩
          have hbal : bal' = bal := BitVec.neg_inj.1 hshort
          obtain ⟨htotal, -⟩ := spendUntil_eq_ok (fun n hn => (mem_candidates.1 hn).2.1) hs
          rw [hbal] at htotal
          cases hc : candidates notes token with
          | nil => rfl
          | cons n rest =>
              exfalso
              have hn : n ∈ candidates notes token := by
                rw [hc]
                exact List.mem_cons_self
              have hspend := (mem_candidates_iff.1 hn).2
              rw [hc] at hs
              unfold spendUntil at hs
              rw [if_neg (by omega)] at hs
              obtain ⟨a, -, hs⟩ := except_bind_eq_ok.1 hs
              obtain ⟨⟨b, spends'⟩, -, hs⟩ := except_bind_eq_ok.1 hs
              cases hs
              have hvalue : n.value.1 = token := hspend.1
              have hrest := total_nonneg token (spends'.map Note.value)
              have hpos : 0 < n.value.2.toNat := hspend.2.2
              rw [List.map_cons, total_cons, if_pos hvalue] at htotal
              omega
        · rw [if_neg hneg] at heq
          cases heq
  · rintro ⟨hnil, hsum⟩
    rw [hnil]
    simp only [spendUntil, bind, Except.bind, if_pos h, hsum]
    rfl

theorem refused_iff : (∃ e, coverToken notes token bal = .error e) ↔
    Refused notes token bal.toInt := by
  unfold Refused
  by_cases hneg : bal.toInt < 0
  · by_cases hbig : ∃ n ∈ notes, Spendable token n ∧ 2 ^ 127 ≤ n.amount.toNat
    · -- the largest note does not fit
      refine ⟨fun _ => ⟨hneg, .inl hbig⟩, fun _ => ?_⟩
      obtain ⟨n, hn, hspend, hlarge⟩ := hbig
      have hmem := mem_candidates_iff.2 ⟨hn, hspend⟩
      unfold coverToken
      rw [if_pos hneg]
      have hsorted := candidates_pairwise notes token
      cases hc : candidates notes token with
      | nil =>
          rw [hc] at hmem
          cases hmem
      | cons m rest =>
          rw [hc] at hmem hsorted
          have hm : 2 ^ 127 ≤ m.amount.toNat := by
            rcases List.mem_cons.1 hmem with rfl | hmem
            · exact hlarge
            · rw [List.map_cons, List.pairwise_cons] at hsorted
              exact hlarge.trans (hsorted.1 _ (List.mem_map_of_mem hmem))
          have hsigned : signed m.amount = .error (.read "amount exceeds i128") := by
            unfold signed
            rw [if_pos]
            rw [BitVec.msb_eq_decide, decide_eq_true_eq]
            norm_num
            omega
          unfold spendUntil
          rw [if_neg (by omega), hsigned]
          exact ⟨_, rfl⟩
    · push Not at hbig
      have hfits : ∀ n ∈ candidates notes token, (n.amount.toNat : ℤ) < 2 ^ 127 := by
        intro n hn
        have hlt := hbig n (mem_candidates_iff.1 hn).1 (mem_candidates_iff.1 hn).2
        exact_mod_cast hlt
      obtain ⟨bal', spends, hspends, hdone⟩ := spendUntil_ok hfits bal
      obtain ⟨hsum, k, hk, -⟩ := spendUntil_eq_ok (fun n hn => (mem_candidates.1 hn).2.1) hspends
      unfold coverToken
      rw [if_pos hneg]
      simp only [bind, Except.bind, hspends]
      have hle := total_take_mono token (candidates notes token) (j := k)
        (k := max k (candidates notes token).length) (le_max_left _ _)
      rw [List.take_of_length_le (le_max_right _ _), total_candidates, ← hk] at hle
      constructor
      · rintro ⟨e, he⟩
        by_cases hleft : bal'.toInt < 0
        · have hall : spends = candidates notes token := hdone.resolve_left (by omega)
          rw [hall, total_candidates] at hsum
          exact ⟨hneg, .inr (by omega)⟩
        · rw [if_neg hleft] at he
          cases he
      · rintro ⟨-, ⟨n, hn, hspend, hlarge⟩ | hshort⟩
        · exact absurd hlarge (not_le.2 (hbig n hn hspend))
        · rw [if_pos (by omega)]
          exact ⟨_, rfl⟩
  · rw [coverToken_of_nonneg (by omega)]
    constructor
    · rintro ⟨e, he⟩
      cases he
    · exact fun h => absurd h.1 hneg

end

/-! ## Covering every token -/

section

variable {notes notes' : List Note} {bals : List (Felt × I128)}

/-- Selections agree when each token is covered alike that is reached at all. -/
theorem coverDeficits_congr (hsorted : (bals.map Prod.fst).Pairwise (· < ·))
    (h : ∀ x ∈ bals, (∀ y ∈ bals, y.1 < x.1 → ∃ r, coverToken notes' y.1 y.2 = .ok r) →
      coverToken notes x.1 x.2 = coverToken notes' x.1 x.2) :
    coverDeficits notes bals = coverDeficits notes' bals := by
  induction bals with
  | nil => rfl
  | cons x rest ih =>
      obtain ⟨token, bal⟩ := x
      rw [List.map_cons, List.pairwise_cons] at hsorted
      obtain ⟨hfirst, hsorted⟩ := hsorted
      have hhead : coverToken notes token bal = coverToken notes' token bal := by
        refine h (token, bal) List.mem_cons_self fun y hy hlt => ?_
        rcases List.mem_cons.1 hy with rfl | hy
        · exact absurd hlt (lt_irrefl _)
        · exact absurd hlt (hfirst y.1 (List.mem_map_of_mem hy)).not_gt
      unfold coverDeficits
      rw [hhead]
      cases hc : coverToken notes' token bal with
      | error e => rfl
      | ok r =>
          have hrest := ih hsorted fun x hx hbefore => h x (List.mem_cons_of_mem _ hx) fun y hy hlt => by
            rcases List.mem_cons.1 hy with rfl | hy
            · exact ⟨r, hc⟩
            · exact hbefore y hy hlt
          simp only [bind, Except.bind, hrest]

/-- What a selection fails with names one of its tokens, if any. -/
theorem coverDeficits_error_token {token : Felt} {shortfall available : U128}
    (h : coverDeficits notes bals = .error (.insufficientBalance token shortfall available)) :
    token ∈ bals.map Prod.fst := by
  induction bals with
  | nil => cases h
  | cons x rest ih =>
      obtain ⟨t, bal⟩ := x
      unfold coverDeficits at h
      cases hc : coverToken notes t bal with
      | ok r =>
          cases hr : coverDeficits notes rest with
          | ok r' =>
              simp only [bind, Except.bind, hc, hr] at h
              cases h
          | error e =>
              simp only [bind, Except.bind, hc, hr] at h
              cases h
              exact List.mem_cons_of_mem _ (ih hr)
      | error e =>
          simp only [bind, Except.bind, hc] at h
          cases h
          unfold coverToken at hc
          split_ifs at hc
          · cases hs : spendUntil bal (candidates notes t) with
            | error e =>
                obtain ⟨m, rfl⟩ := spendUntil_eq_error hs
                rw [hs] at hc
                cases hc
            | ok r =>
                obtain ⟨bal', spends⟩ := r
                rw [hs] at hc
                simp only [bind, Except.bind] at hc
                by_cases hneg : bal'.toInt < 0
                · rw [if_pos hneg] at hc
                  cases hc
                  exact List.mem_cons_self
                · rw [if_neg hneg] at hc
                  cases hc
          · cases hc

/-- Selections differ once they differ in a token that is reached and that one of them refuses. -/
theorem coverDeficits_ne {token : Felt} {bal : I128} {shortfall available : U128}
    (hsorted : (bals.map Prod.fst).Pairwise (· < ·)) (hmem : (token, bal) ∈ bals)
    (hbefore : ∀ y ∈ bals, y.1 < token → coverToken notes y.1 y.2 = coverToken notes' y.1 y.2 ∧
      ∃ r, coverToken notes' y.1 y.2 = .ok r)
    (h : coverToken notes token bal = .error (.insufficientBalance token shortfall available))
    (h' : coverToken notes' token bal ≠ .error (.insufficientBalance token shortfall available)) :
    coverDeficits notes bals = .error (.insufficientBalance token shortfall available) ∧
      coverDeficits notes' bals ≠ .error (.insufficientBalance token shortfall available) := by
  induction bals with
  | nil => cases hmem
  | cons x rest ih =>
      obtain ⟨t, b⟩ := x
      rw [List.map_cons, List.pairwise_cons] at hsorted
      obtain ⟨hfirst, hsorted⟩ := hsorted
      unfold coverDeficits
      rcases List.mem_cons.1 hmem with heq | hmem
      · cases heq
        simp only [bind, Except.bind, h]
        refine ⟨trivial, ?_⟩
        cases hc : coverToken notes' token bal with
        | error e =>
            simp only
            exact fun heq => h' (by rw [hc, Except.error.inj heq])
        | ok r =>
            cases hr : coverDeficits notes' rest with
            | ok r' =>
                intro heq
                cases heq
            | error e =>
                simp only
                intro heq
                cases heq
                exact lt_irrefl _ (hfirst token (coverDeficits_error_token hr))
      · have hlt : t < token := hfirst token (List.mem_map_of_mem (f := Prod.fst) hmem)
        obtain ⟨hsame, r, hr⟩ := hbefore (t, b) List.mem_cons_self hlt
        obtain ⟨hrest, hrest'⟩ := ih hsorted hmem fun y hy hlt =>
          hbefore y (List.mem_cons_of_mem _ hy) hlt
        simp only [hsame, hr, bind, Except.bind, hrest]
        refine ⟨trivial, ?_⟩
        cases hc : coverDeficits notes' rest with
        | ok r' =>
            intro heq
            cases heq
        | error e =>
            simp only
            exact fun heq => hrest' (hc.trans heq)

end

/-! ## When nothing is lost -/

/-- Every amount of an intent is an `i128`. -/
def SignedAmounts (intent : Intent) : Prop :=
  (∀ d ∈ intent.deposits, d.2.toNat < 2 ^ 127) ∧
    ∀ t ∈ intent.transfers ++ intent.withdrawals, t.2.2.toNat < 2 ^ 127

/-- What the deposits of a token come to, in the planner's accumulator, when nothing is paid with
it. -/
def balanceIn (intent : Intent) (token : Felt) : ℤ := (BitVec.ofInt 128 (intent.net token)).toInt

/-- The plan comes as far as covering `token`. -/
structure Comes (intent : Intent) (notes : List Note) (token : Felt) : Prop where
  positive : Positive intent
  signed : SignedAmounts intent
  covered : ∀ t < token, ¬ Refused notes t (balanceIn intent t)

/-- Every token that is deposited only, and whose deposits overflow to a deficit, is worthless among
the notes, unless the plan fails before it comes to it. -/
def NothingLost (intent : Intent) (notes : List Note) : Prop :=
  ∀ token, token ∉ paidTokens intent → balanceIn intent token < 0 → Comes intent notes token →
    Worthless notes token

theorem lt_of_signed {a : U128} {x : I128} (h : signed a = .ok x) : a.toNat < 2 ^ 127 := by
  obtain ⟨-, hval⟩ := signed_eq_ok h
  have hlt := x.toInt_lt
  norm_num at hlt ⊢
  omega

theorem addDeposits_signed {deposits : List (Felt × U128)} {balance balance' : ExtTreeMap Felt I128}
    (h : addDeposits balance deposits = .ok balance') : ∀ d ∈ deposits, d.2.toNat < 2 ^ 127 := by
  induction deposits generalizing balance with
  | nil => exact fun d hd => nomatch hd
  | cons d rest ih =>
      obtain ⟨token, amount⟩ := d
      unfold addDeposits at h
      obtain ⟨a, ha, h⟩ := except_bind_eq_ok.1 h
      intro d hd
      rcases List.mem_cons.1 hd with rfl | hd
      · exact lt_of_signed ha
      · exact ih h d hd

theorem subtractPayments_signed {payments : List (Felt × Felt × U128)}
    {balance balance' : ExtTreeMap Felt I128}
    (h : subtractPayments balance payments = .ok balance') :
    ∀ t ∈ payments, t.2.2.toNat < 2 ^ 127 := by
  induction payments generalizing balance with
  | nil => exact fun d hd => nomatch hd
  | cons d rest ih =>
      obtain ⟨toAddr, token, amount⟩ := d
      unfold subtractPayments at h
      obtain ⟨a, ha, h⟩ := except_bind_eq_ok.1 h
      intro d hd
      rcases List.mem_cons.1 hd with rfl | hd
      · exact lt_of_signed ha
      · exact ih h d hd

theorem signedAmounts_iff {intent : Intent} :
    SignedAmounts intent ↔ ∃ balance, balances intent = .ok balance := by
  constructor
  · rintro ⟨hdeposits, hpayments⟩
    obtain ⟨balance, hd⟩ := addDeposits_ok (fun x hx => by exact_mod_cast hdeposits x hx) ∅
    obtain ⟨balance', hp⟩ := subtractPayments_ok (fun x hx => by exact_mod_cast hpayments x hx) balance
    refine ⟨balance', ?_⟩
    unfold balances
    rw [hd]
    exact hp
  · rintro ⟨balance', h⟩
    unfold balances at h
    obtain ⟨balance, hd, hp⟩ := except_bind_eq_ok.1 h
    exact ⟨addDeposits_signed hd, subtractPayments_signed hp⟩

theorem forM_eq_ok {α : Type} {f : α → Except Error PUnit} {l : List α} (h : l.forM f = .ok ()) :
    ∀ a ∈ l, f a = .ok () := by
  induction l with
  | nil => exact fun a ha => nomatch ha
  | cons a l ih =>
      have h : (f a >>= fun _ => l.forM f) = .ok () := h
      obtain ⟨_, ha, hl⟩ := except_bind_eq_ok.1 h
      intro b hb
      rcases List.mem_cons.1 hb with rfl | hb
      · exact ha
      · exact ih hl b hb

theorem positive_of_check {intent : Intent} {st : State} (h : checkIntent intent st = .ok ()) :
    Positive intent := by
  have hnonzero : ∀ amount : U128, nonzero amount = .ok () → amount ≠ 0 := by
    rintro amount h rfl
    cases h
  unfold checkIntent at h
  split at h
  · cases h
  · obtain ⟨_, hdeposits, hpayments⟩ := except_bind_eq_ok.1 h
    exact ⟨fun d hd => hnonzero _ (forM_eq_ok hdeposits d hd),
      fun t ht => hnonzero _ (forM_eq_ok hpayments t ht)⟩

section

variable {intent : Intent} {st full : State}

theorem Filtered.check (h : Filtered intent st full) :
    checkIntent intent st = checkIntent intent full := by
  unfold checkIntent
  rw [h.registered.1, h.registered.2, h.user]

theorem Filtered.coverToken_paid (h : Filtered intent st full) {token : Felt}
    (hpaid : token ∈ paidTokens intent) (bal : I128) :
    coverToken st.notes token bal = coverToken full.notes token bal := by
  refine coverToken_congr ?_
  rw [h.notes, List.filter_filter]
  refine List.filter_congr fun n _ => ?_
  by_cases htoken : n.token = token <;> simp [htoken, hpaid]

theorem Filtered.coverToken_unpaid (h : Filtered intent st full) {token : Felt}
    (hunpaid : token ∉ paidTokens intent) (bal : I128) :
    coverToken st.notes token bal = coverToken [] token bal := by
  refine coverToken_congr ?_
  rw [h.notes, List.filter_filter, List.filter_nil, List.filter_eq_nil_iff]
  intro n _ hn
  simp only [Bool.and_eq_true, decide_eq_true_eq] at hn
  exact hunpaid (hn.1 ▸ hn.2)

/-- The balances that a plan covers. -/
theorem mem_balances {balance : ExtTreeMap Felt I128} (hb : balances intent = .ok balance)
    {x : Felt × I128} (hx : x ∈ balance.toList) : x.2.toInt = balanceIn intent x.1 := by
  have hof := balanceOf_balances hb x.1
  rw [balanceOf, TreeMap.mem_toList.1 hx, Option.getD_some] at hof
  rw [balanceIn, ← hof]

theorem sorted_balances (balance : ExtTreeMap Felt I128) :
    (balance.toList.map Prod.fst).Pairwise (· < ·) := by
  rw [List.pairwise_map]
  exact balance.ordered_keys_toList.imp fun hlt => compare_lt_iff_lt.1 hlt

theorem not_refused {notes : List Note} {x : Felt × I128}
    (h : ∃ r, coverToken notes x.1 x.2 = .ok r) : ¬ Refused notes x.1 x.2.toInt := by
  obtain ⟨r, hr⟩ := h
  intro hrefused
  obtain ⟨e, he⟩ := refused_iff.2 hrefused
  rw [hr] at he
  cases he

/-- Nothing lost, the same notes are selected, or selecting them fails alike. -/
theorem Filtered.selectNotes (h : Filtered intent st full) (hpositive : Positive intent)
    (hnothing : NothingLost intent full.notes) :
    selectNotes intent st = selectNotes intent full := by
  unfold Strk20.selectNotes
  cases hb : balances intent with
  | error e => rfl
  | ok balance =>
      have hsorted := sorted_balances balance
      refine coverDeficits_congr hsorted fun x hx hbefore => ?_
      have hbal := mem_balances hb hx
      by_cases hpaid : x.1 ∈ paidTokens intent
      · exact h.coverToken_paid hpaid x.2
      · by_cases hneg : x.2.toInt < 0
        · rw [h.coverToken_unpaid hpaid, eq_comm, coverToken_eq_nil_iff hneg]
          refine hnothing x.1 hpaid (hbal ▸ hneg) ⟨hpositive, signedAmounts_iff.2 ⟨_, hb⟩, ?_⟩
          intro t ht hrefused
          -- a token that is refused has a balance
          cases hk : balance[t]? with
          | some bal =>
              have hmem := TreeMap.mem_toList.2 hk
              refine not_refused (hbefore (t, bal) hmem ht) ?_
              rwa [mem_balances hb hmem]
          | none =>
              have hof := balanceOf_balances hb t
              rw [balanceOf, hk, Option.getD_none] at hof
              have hzero := hrefused.1
              rw [balanceIn, ← hof] at hzero
              exact absurd hzero (by decide)
        · rw [coverToken_of_nonneg (not_lt.1 hneg), coverToken_of_nonneg (not_lt.1 hneg)]

/-- Otherwise the first token that is lost is refused only for want of its notes. -/
theorem Filtered.selectNotes_ne (h : Filtered intent st full)
    (hlost : ∃ token, token ∉ paidTokens intent ∧ balanceIn intent token < 0 ∧
      Comes intent full.notes token ∧ ¬ Worthless full.notes token) :
    ∃ token shortfall available,
      Strk20.selectNotes intent st = .error (.insufficientBalance token shortfall available) ∧
        Strk20.selectNotes intent full ≠ .error (.insufficientBalance token shortfall available) := by
  classical
  obtain ⟨some, hsome⟩ := hlost
  -- the first token of which notes are missing
  let Lost : Felt → Prop := fun t => t ∉ paidTokens intent ∧ balanceIn intent t < 0 ∧
    ¬ Worthless full.notes t
  obtain ⟨token, ⟨hunpaid, hneg, hworth⟩, hfirst⟩ :=
    WellFounded.has_min (wellFounded_lt (α := Felt)) {t | Lost t}
      ⟨some, hsome.1, hsome.2.1, hsome.2.2.2⟩
  have hle : token ≤ some := not_lt.1 fun hlt => hfirst some ⟨hsome.1, hsome.2.1, hsome.2.2.2⟩ hlt
  have hcomes := hsome.2.2.1
  obtain ⟨balance, hb⟩ := signedAmounts_iff.1 hcomes.signed
  obtain ⟨bal, hmem⟩ : ∃ bal, (token, bal) ∈ balance.toList := by
    cases hk : balance[token]? with
    | some bal => exact ⟨bal, TreeMap.mem_toList.2 hk⟩
    | none =>
        have hof := balanceOf_balances hb token
        rw [balanceOf, hk, Option.getD_none] at hof
        rw [balanceIn, ← hof] at hneg
        exact absurd hneg (by decide)
  have hbal : bal.toInt = balanceIn intent token := mem_balances hb hmem
  rw [← hbal] at hneg
  have hbefore : ∀ y ∈ balance.toList, y.1 < token →
      coverToken st.notes y.1 y.2 = coverToken full.notes y.1 y.2 ∧
        ∃ r, coverToken full.notes y.1 y.2 = .ok r := by
    intro y hy hlt
    have hybal := mem_balances hb hy
    have hcovered : ¬ Refused full.notes y.1 y.2.toInt := by
      rw [hybal]
      exact hcomes.covered y.1 (lt_of_lt_of_le hlt hle)
    refine ⟨?_, ?_⟩
    · by_cases hpaid : y.1 ∈ paidTokens intent
      · exact h.coverToken_paid hpaid y.2
      · by_cases hyneg : y.2.toInt < 0
        · rw [h.coverToken_unpaid hpaid, eq_comm, coverToken_eq_nil_iff hyneg]
          by_contra hnot
          exact hfirst y.1 ⟨hpaid, hybal ▸ hyneg, hnot⟩ hlt
        · rw [coverToken_of_nonneg (not_lt.1 hyneg), coverToken_of_nonneg (not_lt.1 hyneg)]
    · cases hc : coverToken full.notes y.1 y.2 with
      | ok r => exact ⟨r, rfl⟩
      | error e => exact absurd (refused_iff.1 ⟨e, hc⟩) hcovered
  refine ⟨token, -bal, 0, ?_⟩
  unfold Strk20.selectNotes
  rw [hb]
  refine coverDeficits_ne (sorted_balances balance) hmem hbefore ?_ ?_
  · rw [h.coverToken_unpaid hunpaid, coverToken_nil hneg]
  · rw [← coverToken_nil hneg, Ne, coverToken_eq_nil_iff hneg]
    exact hworth

/-- A plan on what was discovered for its intent is the plan on everything, whatever the randomness,
if and only if nothing is lost. -/
theorem Filtered.plan_iff (h : Filtered intent st full) (C : Curve) :
    (∀ (ρ : Type) (rng : Randomness ρ) (fuel : ℕ),
      plan rng C fuel intent st = plan rng C fuel intent full) ↔ NothingLost intent full.notes := by
  constructor
  · intro hsame token hunpaid hneg hcomes
    by_contra hworth
    obtain ⟨token, sh, av, he, hne⟩ := h.selectNotes_ne ⟨token, hunpaid, hneg, hcomes, hworth⟩
    have hfails : Fails (plan constantRandomness C 0 intent st) () (.insufficientBalance token sh av) :=
      (fails_plan_insufficient h.registered.1 hcomes.positive onlyRandom_constantRandomness).2 he
    rw [hsame] at hfails
    exact hne ((fails_plan_insufficient h.registered.2 hcomes.positive
      onlyRandom_constantRandomness).1 hfails)
  · intro hnothing ρ rng fuel
    rw [plan_eq, plan_eq, h.check]
    cases hcheck : checkIntent intent full with
    | error e => rfl
    | ok u =>
        rw [h.selectNotes (positive_of_check hcheck) hnothing]
        simp only [h.assemble]

end

/-- Whatever a request discovers for an intent of a registered account, its plan is the plan on all
notes and on the channels to everyone, if and only if no token that is deposited only overflows to a
deficit that its notes would count for. -/
theorem plan_filtered_iff {legal : (op : Op) → Ans op → Prop} {K : Crates} {S : Rpc.Setup}
    {v : Snapshot} {c : Ctx} {r : PoolReader (Prog Op Ans)} {userSk : Felt} {intent : Intent}
    {everyone : List Felt} {st full : State} (hr : Answers (Outcomes.prog legal) r v)
    (hstuck : ∀ n : U32, ¬ (Outcomes.prog legal).Gives r.stuck n)
    (hregistered : registered K v c.user ≠ 0)
    (heveryone : ∀ a, registered K v a ≠ 0 → a ∈ everyone)
    (h : (Outcomes.prog legal).Gives (discoverState K S c r userSk intent) st)
    (hfull : (Outcomes.prog legal).Gives (discoverEverything K S c r userSk everyone) full) :
    (∀ (ρ : Type) (rng : Randomness ρ) (fuel : ℕ),
      plan rng K.curve fuel intent st = plan rng K.curve fuel intent full) ↔
        NothingLost intent full.notes :=
  (filtered_of_discovery hr hstuck hregistered heveryone h hfull).plan_iff K.curve

/-! ## A deposit that overflows -/

/-- The pool of `twoNotes`, in which the user alone is registered. -/
def loneUser : Snapshot := fun selector calldata =>
  if selector = Wallet.getSelectorFromName Wallet.plainCrates "get_public_key" ∧ calldata ≠ [1] then [0]
  else twoNotes selector calldata

def loneReader : PoolReader (Prog Op Ans) where
  call selector calldata := pure (loneUser selector calldata)
  stuck := throw (.read "stuck")

def loneCtx : Ctx where
  account := ⟨.agent, 0, "0x1", "bot", .openZeppelin, some "c1"⟩
  user := 1
  chain := .sepolia
  pool := 9
  cfg := {}

def loneSetup : Rpc.Setup := Rpc.plainSetup

def anyOp : (op : Op) → Ans op → Prop := fun _ _ => True

theorem answers_loneReader : Answers (Outcomes.prog anyOp) loneReader loneUser :=
  fun _ _ _ h => h.pure

theorem registered_loneUser (a : Felt) (h : registered Wallet.plainCrates loneUser a ≠ 0) :
    a ∈ [(1 : Felt)] := by
  by_contra hne
  have hlist : [a] ≠ [1] := fun heq => hne (by rw [(List.cons.inj heq).1]; exact List.mem_cons_self)
  refine h ?_
  show out (loneUser _ [a]) 0 = 0
  rw [loneUser, if_pos ⟨rfl, hlist⟩]
  rfl

theorem gives_pure {α : Type} {x : Serve α} {a : α} (h : x.run = .pure (.ok a)) :
    (Outcomes.prog anyOp).Gives x a := by
  show Outcomes.progEnds anyOp x.run (.ok a)
  rw [h]
  rfl

/-- What a program comes to that asks for nothing. -/
def outcome {α : Type} : Prog Op Ans (Except WalletRpcError α) → Option α
  | .pure (.ok a) => some a
  | _ => none

theorem gives_of_outcome {α : Type} {x : Serve α} {a : α} (h : outcome x.run = some a) :
    (Outcomes.prog anyOp).Gives x a := by
  unfold outcome at h
  split at h
  · rename_i b hx
    cases h
    exact gives_pure hx
  · cases h

/-- The user's one unspent note: an open note of 20. -/
def openTwenty : Note := ⟨noteId plainCurve 5 3 1, 3, 20, 5, 1, 9, true⟩

def discovered (intent : Intent) : Option State :=
  outcome (discoverState Wallet.plainCrates loneSetup loneCtx loneReader 2 intent).run

def everything : Option State :=
  outcome (discoverEverything Wallet.plainCrates loneSetup loneCtx loneReader 2 [1]).run

/-- Two deposits of a token the user has a note of, which sum to `2 ^ 128 - 2`. -/
def overflowingDeposits : Intent where
  deposits := [(3, 2 ^ 127 - 1), (3, 2 ^ 127 - 1)]

theorem selectNotes_overflowing {st : State} {notes : List Note} (h : st.notes = notes)
    (available : U128) (hcover : (do coverDeficits notes (← balances overflowingDeposits).toList) =
      (.error (.insufficientBalance 3 2 available) : Except Error _)) :
    selectNotes overflowingDeposits st = .error (.insufficientBalance 3 2 available) := by
  unfold selectNotes
  rw [h]
  exact hcover

theorem positive_overflowing : Positive overflowingDeposits := by
  refine ⟨fun d hd => ?_, fun t ht => nomatch ht⟩
  have hd : d.2 = 2 ^ 127 - 1 := by
    simp only [overflowingDeposits, List.mem_cons, List.not_mem_nil, or_false, or_self] at hd
    rw [hd]
  rw [hd]
  decide +kernel

/-- Two deposits overflow to a deficit.  The user's note of the token is not looked for, and the
refusals differ. -/
theorem plan_filtered_loses : ∃ st full,
    Answers (Outcomes.prog anyOp) loneReader loneUser ∧
    registered Wallet.plainCrates loneUser loneCtx.user ≠ 0 ∧
    (∀ a, registered Wallet.plainCrates loneUser a ≠ 0 → a ∈ [(1 : Felt)]) ∧
    (Outcomes.prog anyOp).Gives (discoverState Wallet.plainCrates loneSetup loneCtx loneReader 2
      overflowingDeposits) st ∧
    (Outcomes.prog anyOp).Gives
      (discoverEverything Wallet.plainCrates loneSetup loneCtx loneReader 2 [1]) full ∧
    ¬ ∀ (ρ : Type) (rng : Randomness ρ) (fuel : ℕ),
      plan rng plainCurve fuel overflowingDeposits st =
        plan rng plainCurve fuel overflowingDeposits full := by
  have hst : (discovered overflowingDeposits).map (fun s => (s.registered, s.notes)) =
      some (true, []) := by decide +kernel
  have hfull : everything.map (fun s => (s.registered, s.notes)) = some (true, [openTwenty]) := by
    decide +kernel
  obtain ⟨st, hst, hstate⟩ := Option.map_eq_some_iff.1 hst
  obtain ⟨full, hfull, heverything⟩ := Option.map_eq_some_iff.1 hfull
  obtain ⟨hregistered, hnotes⟩ := Prod.mk.inj hstate
  obtain ⟨hregistered', hnotes'⟩ := Prod.mk.inj heverything
  refine ⟨st, full, answers_loneReader, by decide +kernel, registered_loneUser,
    gives_of_outcome hst, gives_of_outcome hfull, fun hsame => ?_⟩
  have hselect := selectNotes_overflowing hnotes 0 (by decide +kernel)
  have hselect' := selectNotes_overflowing hnotes' 20 (by decide +kernel)
  have hfails : Fails (plan constantRandomness plainCurve 0 overflowingDeposits st) ()
      (.insufficientBalance 3 2 0) :=
    (fails_plan_insufficient hregistered positive_overflowing onlyRandom_constantRandomness).2 hselect
  rw [hsame, fails_plan_insufficient hregistered' positive_overflowing
    onlyRandom_constantRandomness, hselect'] at hfails
  cases hfails

/-- A withdrawal of the token does look for the note. -/
theorem plan_filtered_withdrawal : ∃ st full,
    st.notes = [openTwenty] ∧ full.notes = [openTwenty] ∧
      ∀ (ρ : Type) (rng : Randomness ρ) (fuel : ℕ),
        plan rng plainCurve fuel { withdrawals := [(4, 3, 5)] } st =
          plan rng plainCurve fuel { withdrawals := [(4, 3, 5)] } full := by
  have hst : (discovered { withdrawals := [(4, 3, 5)] }).map (fun s => s.notes) =
      some [openTwenty] := by decide +kernel
  have hfull : everything.map (fun s => s.notes) = some [openTwenty] := by decide +kernel
  obtain ⟨st, hst, hnotes⟩ := Option.map_eq_some_iff.1 hst
  obtain ⟨full, hfull, hnotes'⟩ := Option.map_eq_some_iff.1 hfull
  have hiff := plan_filtered_iff answers_loneReader (fun n h => h.throw) (by decide +kernel)
    registered_loneUser (gives_of_outcome hst) (gives_of_outcome hfull)
  refine ⟨st, full, hnotes, hnotes', hiff.2 fun token hunpaid hneg => ?_⟩
  -- nothing is deposited, so no balance that is not paid from is negative
  have hne : (3 : Felt) ≠ token := fun heq => hunpaid (by rw [← heq]; decide)
  have hnet : Intent.net { withdrawals := [(4, 3, 5)] } token = 0 := by
    simp [Intent.net, total_cons, hne]
  rw [balanceIn, hnet] at hneg
  exact absurd hneg (by decide)

end Strkd.Strk20
