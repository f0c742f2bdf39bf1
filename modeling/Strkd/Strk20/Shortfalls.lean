import Strkd.Rpc.Strk20
import Strkd.Strk20.Selection

/-!
# Insufficient balance

A plan is refused for want of balance just when the notes that may cover some token's deficit do not.
The refusal names the first such token.  What it reports as available counts the token's open notes,
which cover nothing.
-/

namespace Strkd.Strk20

open Std (ExtTreeMap)

/-! ## What is spendable and what is short -/

/-- The sum of the notes that a deficit of `token` may be covered with. -/
def spendable (notes : List Note) (token : Felt) : ℤ :=
  total token ((notes.filter fun n => Spendable token n).map Note.value)

/-- The sum of the open notes of `token`. -/
def openTotal (notes : List Note) (token : Felt) : ℤ :=
  total token ((notes.filter fun n => n.isOpen).map Note.value)

/-- The spendable notes of `token` do not cover its deficit. -/
def Short (intent : Intent) (st : State) (token : Felt) : Prop :=
  spendable st.notes token < -intent.net token

/-- `token` is the first in the order of the tokens that is short. -/
def FirstShort (intent : Intent) (st : State) (token : Felt) : Prop :=
  Short intent st token ∧ ∀ t < token, ¬ Short intent st t

/-- The sums of the amounts of each token are `i128`s. -/
structure SumsFit (intent : Intent) (st : State) : Prop where
  deposits : ∀ token, total token intent.deposits < 2 ^ 127
  payments : ∀ token, total token ((intent.transfers ++ intent.withdrawals).map Prod.snd) < 2 ^ 127
  notes : ∀ token, total token (st.notes.map Note.value) < 2 ^ 127

theorem spendable_nonneg (notes : List Note) (token : Felt) : 0 ≤ spendable notes token :=
  total_nonneg _ _

/-- The notes of a token are spendable, open or worth nothing. -/
theorem total_notes (notes : List Note) (token : Felt) :
    total token (notes.map Note.value) = spendable notes token + openTotal notes token := by
  unfold spendable openTotal
  induction notes with
  | nil => rfl
  | cons n rest ih =>
      rw [List.map_cons, total_cons, ih, List.filter_cons, List.filter_cons]
      by_cases htoken : n.token = token
      · have hvalue : n.value.1 = token := htoken
        by_cases hopen : n.isOpen = true
        · have hnot : ¬ Spendable token n := fun h => by simp [h.2.1] at hopen
          rw [if_pos hvalue, if_neg (by simpa using hnot), if_pos hopen, List.map_cons, total_cons,
            if_pos hvalue]
          omega
        · rw [if_pos hvalue, if_neg hopen]
          by_cases hamount : 0 < n.amount
          · have hspend : Spendable token n := ⟨htoken, by simpa using hopen, hamount⟩
            rw [if_pos (by simpa using hspend), List.map_cons, total_cons, if_pos hvalue]
            omega
          · have hnot : ¬ Spendable token n := fun h => hamount h.2.2
            have hzero : n.value.2.toNat = 0 := by
              have : n.amount = 0 := by simpa using hamount
              simp [Note.value, this]
            rw [if_neg (by simpa using hnot), hzero]
            omega
      · have hvalue : ¬ n.value.1 = token := htoken
        have hnot : ¬ Spendable token n := fun h => htoken h.1
        rw [if_neg hvalue, if_neg (by simpa using hnot)]
        by_cases hopen : n.isOpen = true
        · rw [if_pos hopen, List.map_cons, total_cons, if_neg hvalue]
          omega
        · rw [if_neg hopen]
          omega

theorem total_perm {token : Felt} {l l' : List (Felt × U128)} (h : l.Perm l') :
    total token l = total token l' :=
  ((h.filter _).map _).sum_eq

theorem total_candidates (notes : List Note) (token : Felt) :
    total token ((candidates notes token).map Note.value) = spendable notes token :=
  total_perm ((List.perm_insertionSort _ _).map _)

/-- Each amount of a token is at most their sum. -/
theorem le_total {token : Felt} {x : Felt × U128} {l : List (Felt × U128)} (hx : x ∈ l)
    (htoken : x.1 = token) : (x.2.toNat : ℤ) ≤ total token l := by
  induction l with
  | nil => cases hx
  | cons y rest ih =>
      have hrest := total_nonneg token rest
      rw [total_cons]
      rcases List.mem_cons.1 hx with rfl | hx
      · rw [if_pos htoken]
        omega
      · have := ih hx
        split_ifs <;> omega

/-! ## Covering tokens -/

theorem signed_of_lt {a : U128} (h : (a.toNat : ℤ) < 2 ^ 127) : signed a = .ok a := by
  unfold signed
  rw [if_neg]
  rw [BitVec.msb_eq_decide, decide_eq_true_eq]
  norm_num
  omega

theorem addDeposits_ok {deposits : List (Felt × U128)}
    (h : ∀ x ∈ deposits, (x.2.toNat : ℤ) < 2 ^ 127) (balance : ExtTreeMap Felt I128) :
    ∃ balance', addDeposits balance deposits = .ok balance' := by
  induction deposits generalizing balance with
  | nil => exact ⟨balance, rfl⟩
  | cons d rest ih =>
      obtain ⟨token, amount⟩ := d
      unfold addDeposits
      rw [signed_of_lt (h (token, amount) List.mem_cons_self)]
      exact ih (fun x hx => h x (List.mem_cons_of_mem _ hx)) _

theorem subtractPayments_ok {payments : List (Felt × Felt × U128)}
    (h : ∀ x ∈ payments, (x.2.2.toNat : ℤ) < 2 ^ 127) (balance : ExtTreeMap Felt I128) :
    ∃ balance', subtractPayments balance payments = .ok balance' := by
  induction payments generalizing balance with
  | nil => exact ⟨balance, rfl⟩
  | cons d rest ih =>
      obtain ⟨toAddr, token, amount⟩ := d
      unfold subtractPayments
      rw [signed_of_lt (h (toAddr, token, amount) List.mem_cons_self)]
      exact ih (fun x hx => h x (List.mem_cons_of_mem _ hx)) _

theorem SumsFit.balances {intent : Intent} {st : State} (h : SumsFit intent st) :
    ∃ balance, balances intent = .ok balance := by
  have hsigned : ∀ x ∈ intent.deposits, (x.2.toNat : ℤ) < 2 ^ 127 := fun x hx =>
    lt_of_le_of_lt (le_total hx rfl) (h.deposits x.1)
  have hsigned' : ∀ x ∈ intent.transfers ++ intent.withdrawals, (x.2.2.toNat : ℤ) < 2 ^ 127 :=
    fun x hx => lt_of_le_of_lt (le_total (List.mem_map_of_mem hx) rfl) (h.payments x.2.1)
  obtain ⟨balance, hdeposits⟩ := addDeposits_ok hsigned ∅
  obtain ⟨balance', hpayments⟩ := subtractPayments_ok hsigned' balance
  refine ⟨balance', ?_⟩
  unfold Strk20.balances
  rw [hdeposits]
  exact hpayments

theorem SumsFit.net {intent : Intent} {st : State} (h : SumsFit intent st) (token : Felt) :
    FitsI128 (intent.net token) := by
  have hdeposits := h.deposits token
  have hpayments := h.payments token
  have hd := total_nonneg token intent.deposits
  have hp := total_nonneg token ((intent.transfers ++ intent.withdrawals).map Prod.snd)
  unfold FitsI128 Intent.net
  constructor <;> omega

/-- Notes that are worth i128s are spent until the balance is covered or none is left. -/
theorem spendUntil_ok {notes : List Note} (h : ∀ n ∈ notes, (n.amount.toNat : ℤ) < 2 ^ 127)
    (bal : I128) : ∃ bal' spends, spendUntil bal notes = .ok (bal', spends) ∧
      (0 ≤ bal'.toInt ∨ spends = notes) := by
  induction notes generalizing bal with
  | nil => exact ⟨bal, [], rfl, .inr rfl⟩
  | cons n rest ih =>
      unfold spendUntil
      split_ifs with hneg
      · exact ⟨bal, [], rfl, .inl hneg⟩
      · obtain ⟨bal', spends, hspends, hdone⟩ :=
          ih (fun m hm => h m (List.mem_cons_of_mem n hm)) (bal + n.amount)
        refine ⟨bal', n :: spends, ?_, hdone.imp_right fun heq => by rw [heq]⟩
        rw [signed_of_lt (h n List.mem_cons_self)]
        simp only [bind, Except.bind, hspends]
        rfl

/-- A negative `i128` read without its sign. -/
theorem toNat_neg_of_neg {x : I128} (h : x.toInt < 0) : ((-x).toNat : ℤ) = -x.toInt := by
  have hx := x.isLt
  rw [BitVec.toInt_eq_toNat_cond] at h ⊢
  rw [BitVec.toNat_neg]
  split_ifs at h ⊢ <;> omega

theorem sum_amounts {notes : List Note} {token : Felt} (h : ∀ n ∈ notes, n.token = token)
    (hfits : total token (notes.map Note.value) < 2 ^ 127) :
    (((notes.map Note.amount).sum : U128).toNat : ℤ) = total token (notes.map Note.value) := by
  induction notes with
  | nil => rfl
  | cons n rest ih =>
      have hvalue : n.value.1 = token := h n List.mem_cons_self
      have hrest := total_nonneg token (rest.map Note.value)
      have hcons : total token ((n :: rest).map Note.value) =
          n.amount.toNat + total token (rest.map Note.value) := by
        rw [List.map_cons, total_cons, if_pos hvalue]
        rfl
      rw [hcons] at hfits ⊢
      have ih := ih (fun m hm => h m (List.mem_cons_of_mem n hm)) (by omega)
      rw [List.map_cons, List.sum_cons, BitVec.toNat_add, Nat.mod_eq_of_lt (by omega)]
      push_cast
      rw [ih]

/-- What is reported of a token whose notes do not cover it. -/
structure Figures (notes : List Note) (token : Felt) (deficit : ℤ) (shortfall available : U128) :
    Prop where
  shortfall : (shortfall.toNat : ℤ) = deficit - spendable notes token
  available : (available.toNat : ℤ) = spendable notes token + openTotal notes token

section

variable {notes : List Note} (hnotes : ∀ token, total token (notes.map Note.value) < 2 ^ 127)
include hnotes

theorem amount_lt {n : Note} (hn : n ∈ notes) : (n.amount.toNat : ℤ) < 2 ^ 127 :=
  lt_of_le_of_lt (le_total (x := n.value) (List.mem_map_of_mem hn) rfl) (hnotes n.token)

/-- A token is covered unless its spendable notes are too few. -/
theorem coverToken_cases (token : Felt) (bal : I128) :
    (0 ≤ bal.toInt + spendable notes token ∧ ∃ r, coverToken notes token bal = .ok r) ∨
      (bal.toInt + spendable notes token < 0 ∧ ∃ shortfall available,
        coverToken notes token bal = .error (.insufficientBalance token shortfall available) ∧
        Figures notes token (-bal.toInt) shortfall available) := by
  have hspendable := spendable_nonneg notes token
  unfold coverToken
  split_ifs with hneg
  · have hfits : ∀ n ∈ candidates notes token, (n.amount.toNat : ℤ) < 2 ^ 127 :=
      fun n hn => amount_lt hnotes (mem_candidates_iff.1 hn).1
    obtain ⟨bal', spends, hspends, hdone⟩ := spendUntil_ok hfits bal
    obtain ⟨hsum, k, hk, -⟩ := spendUntil_eq_ok (fun n hn => (mem_candidates.1 hn).2.1) hspends
    simp only [bind, Except.bind, hspends]
    by_cases hleft : bal'.toInt < 0
    · have hall : spends = candidates notes token := hdone.resolve_left (by omega)
      rw [hall, total_candidates] at hsum
      rw [if_pos hleft]
      refine .inr ⟨by omega, -bal', _, rfl, ?_, ?_⟩
      · rw [toNat_neg_of_neg hleft, hsum]
        omega
      · have hvalue : total token ((notes.filter fun n => n.token = token).map Note.value) =
            total token (notes.map Note.value) := total_ofToken token notes
        rw [← total_notes, ← hvalue]
        exact sum_amounts (fun n hn => by simpa using (List.mem_filter.1 hn).2)
          (hvalue ▸ hnotes token)
    · rw [if_neg hleft]
      refine .inl ⟨?_, _, rfl⟩
      have hle := total_take_mono token (candidates notes token) (j := k)
        (k := max k (candidates notes token).length) (le_max_left _ _)
      rw [List.take_of_length_le (le_max_right _ _), total_candidates, ← hk] at hle
      omega
  · exact .inl ⟨by omega, _, rfl⟩

/-- The first token in the list that is short decides. -/
theorem coverDeficits_cases {bals : List (Felt × I128)}
    (hsorted : (bals.map Prod.fst).Pairwise (· < ·)) :
    ((∀ x ∈ bals, 0 ≤ x.2.toInt + spendable notes x.1) ∧ ∃ r, coverDeficits notes bals = .ok r) ∨
      ∃ x ∈ bals, x.2.toInt + spendable notes x.1 < 0 ∧
        (∀ y ∈ bals, y.1 < x.1 → 0 ≤ y.2.toInt + spendable notes y.1) ∧ ∃ shortfall available,
        coverDeficits notes bals = .error (.insufficientBalance x.1 shortfall available) ∧
        Figures notes x.1 (-x.2.toInt) shortfall available := by
  induction bals with
  | nil => exact .inl ⟨fun x hx => (nomatch hx), _, rfl⟩
  | cons x rest ih =>
      obtain ⟨token, bal⟩ := x
      rw [List.map_cons, List.pairwise_cons] at hsorted
      obtain ⟨hfirst, hsorted⟩ := hsorted
      unfold coverDeficits
      rcases coverToken_cases hnotes token bal with ⟨hcovered, r, hr⟩ | ⟨hshort, sh, av, he, hfig⟩
      · simp only [bind, Except.bind, hr]
        rcases ih hsorted with ⟨hall, r', hr'⟩ | ⟨y, hy, hshort, hbefore, sh, av, he, hfig⟩
        · rw [hr']
          refine .inl ⟨fun y hy => ?_, _, rfl⟩
          rcases List.mem_cons.1 hy with rfl | hy
          · exact hcovered
          · exact hall y hy
        · rw [he]
          refine .inr ⟨y, List.mem_cons_of_mem _ hy, hshort, fun z hz hlt => ?_, sh, av, rfl, hfig⟩
          rcases List.mem_cons.1 hz with rfl | hz
          · exact hcovered
          · exact hbefore z hz hlt
      · simp only [bind, Except.bind, he]
        refine .inr ⟨(token, bal), List.mem_cons_self, hshort, fun y hy hlt => ?_, sh, av, rfl, hfig⟩
        rcases List.mem_cons.1 hy with rfl | hy
        · exact absurd hlt (lt_irrefl _)
        · exact absurd hlt (hfirst y.1 (List.mem_map_of_mem hy)).not_gt

end

/-- A selection fails only for want of balance, in the first token that is short. -/
theorem selectNotes_cases {intent : Intent} {st : State} (h : SumsFit intent st) :
    ((∀ token, ¬ Short intent st token) ∧ ∃ r, selectNotes intent st = .ok r) ∨
      ∃ token shortfall available, FirstShort intent st token ∧
        selectNotes intent st = .error (.insufficientBalance token shortfall available) ∧
        Figures st.notes token (-intent.net token) shortfall available := by
  obtain ⟨balance, hb⟩ := h.balances
  have hbal : ∀ x ∈ balance.toList, x.2.toInt = intent.net x.1 := by
    rintro ⟨token, bal⟩ hx
    have hof := balanceOf_balances hb token
    rw [balanceOf, TreeMap.mem_toList.1 hx, Option.getD_some] at hof
    show bal.toInt = _
    rw [hof]
    exact (toInt_ofInt_eq_iff _).2 (h.net token)
  have hshort : ∀ token, Short intent st token → ∃ bal, (token, bal) ∈ balance.toList := by
    intro token htoken
    cases hk : balance[token]? with
    | some bal => exact ⟨bal, TreeMap.mem_toList.2 hk⟩
    | none =>
        have hof := balanceOf_balances hb token
        rw [balanceOf, hk, Option.getD_none] at hof
        have hzero := (toInt_ofInt_eq_iff _).2 (h.net token)
        rw [← hof] at hzero
        have hnonneg := spendable_nonneg st.notes token
        have hnet : intent.net token = 0 := hzero.symm
        unfold Short at htoken
        omega
  have hsorted : (balance.toList.map Prod.fst).Pairwise (· < ·) := by
    rw [List.pairwise_map]
    exact balance.ordered_keys_toList.imp fun hlt => compare_lt_iff_lt.1 hlt
  have hcovered : ∀ token, (∀ bal, (token, bal) ∈ balance.toList →
      0 ≤ bal.toInt + spendable st.notes token) → ¬ Short intent st token := by
    intro token hall htoken
    obtain ⟨bal, hmem⟩ := hshort token htoken
    have hnonneg := hall bal hmem
    have hnet := hbal (token, bal) hmem
    unfold Short at htoken
    simp only at hnet
    omega
  unfold selectNotes
  rw [hb]
  rcases coverDeficits_cases h.notes hsorted with ⟨hall, r, hr⟩ |
    ⟨x, hx, hlacking, hbefore, sh, av, he, hfig⟩
  · exact .inl ⟨fun token => hcovered token fun bal hmem => hall (token, bal) hmem, r, hr⟩
  · have hnet := hbal x hx
    refine .inr ⟨x.1, sh, av, ⟨?_, fun t hlt => hcovered t fun bal hmem =>
      hbefore (t, bal) hmem hlt⟩, he, hnet ▸ hfig⟩
    unfold Short
    omega

/-! ## The refusal -/

/-- The draws of a source fail only for want of randomness. -/
def OnlyRandom {ρ : Type} (rng : Randomness ρ) : Prop :=
  ∀ s e, (rng.felt s).1 = .error e ∨ (rng.salt120 s).1 = .error e → ∃ m, e = .random m

/-- No deposit and no payment is of nothing. -/
def Positive (intent : Intent) : Prop :=
  (∀ d ∈ intent.deposits, d.2 ≠ 0) ∧ ∀ t ∈ intent.transfers ++ intent.withdrawals, t.2.2 ≠ 0

section

variable {ρ : Type} {rng : Randomness ρ} {C : Curve} {fuel : ℕ} {intent : Intent} {st : State}

/-- The failures that come after the selection of notes. -/
def LateFailure (e : Error) : Prop := (∃ m, e = .random m) ∨ ∃ a, e = .notRegistered a

theorem OnlyRandom.drawFelt (h : OnlyRandom rng) : FailsOnly LateFailure (drawFelt rng) := by
  intro s e hfails
  refine .inl (h s e (.inl ?_))
  have hrun : Strk20.drawFelt rng s = some (.error e) := hfails
  unfold Strk20.drawFelt at hrun
  split at hrun <;> rename_i hdraw <;> cases hrun
  rw [hdraw]

theorem OnlyRandom.drawSalt120 (h : OnlyRandom rng) : FailsOnly LateFailure (drawSalt120 rng) := by
  intro s e hfails
  refine .inl (h s e (.inr ?_))
  have hrun : Strk20.drawSalt120 rng s = some (.error e) := hfails
  unfold Strk20.drawSalt120 at hrun
  split at hrun <;> rename_i hdraw <;> cases hrun
  rw [hdraw]

theorem OnlyRandom.noteSalt (h : OnlyRandom rng) (fuel : ℕ) :
    FailsOnly LateFailure (noteSalt rng fuel) := by
  induction fuel with
  | zero => exact .outOfFuel
  | succ fuel ih =>
      refine h.drawSalt120.bind fun salt => ?_
      split_ifs
      · exact .pure salt
      · exact ih

theorem OnlyRandom.ensureChannel (h : OnlyRandom rng) (recipient : Felt) (a : Alloc) :
    FailsOnly LateFailure (ensureChannel rng recipient a) := by
  unfold Strk20.ensureChannel
  split
  · exact .throw (.inr ⟨recipient, rfl⟩)
  · split_ifs
    · exact .pure a
    · exact h.drawFelt.bind fun _ => h.drawFelt.bind fun _ => .pure _

theorem OnlyRandom.ensureSubchannel (h : OnlyRandom rng) (recipient token : Felt)
    (channel : OutgoingChannel) (a : Alloc) :
    FailsOnly LateFailure (ensureSubchannel rng recipient token channel a) := by
  unfold Strk20.ensureSubchannel
  split
  · exact .pure _
  · exact h.drawFelt.bind fun _ => .pure _

theorem OnlyRandom.allocNote (h : OnlyRandom rng) (fuel : ℕ) (a : Alloc) (n : Felt × Felt × U128) :
    FailsOnly LateFailure (allocNote rng fuel a n) := by
  obtain ⟨recipient, token, amount⟩ := n
  refine (h.ensureChannel recipient a).bind fun a => ?_
  split
  · exact .throw (.inr ⟨recipient, rfl⟩)
  · refine (h.ensureSubchannel recipient token _ a).bind fun r => ?_
    exact (h.noteSalt fuel).bind fun _ => .pure _

theorem OnlyRandom.allocNotes (h : OnlyRandom rng) (fuel : ℕ) (a : Alloc)
    (notes : List (Felt × Felt × U128)) : FailsOnly LateFailure (allocNotes rng fuel a notes) := by
  induction notes generalizing a with
  | nil => exact .pure a
  | cons n rest ih => exact (h.allocNote fuel a n).bind ih

theorem OnlyRandom.registerUser (h : OnlyRandom rng) :
    FailsOnly LateFailure (registerUser rng C intent st) := by
  unfold Strk20.registerUser
  dsimp only
  split_ifs
  · exact h.drawFelt.bind fun _ => (h.ensureChannel _ _).bind fun _ => .pure _
  · exact .pure _

theorem OnlyRandom.withdrawActions (h : OnlyRandom rng) (withdrawals : List (Felt × Felt × U128)) :
    FailsOnly LateFailure (withdrawActions rng withdrawals) := by
  induction withdrawals with
  | nil => exact .pure _
  | cons w rest ih => exact h.drawFelt.bind fun _ => ih.bind fun _ => .pure _

theorem OnlyRandom.assemble (h : OnlyRandom rng) (selected : List Note × ExtTreeMap Felt U128) :
    FailsOnly LateFailure (assemble rng C fuel intent st selected) :=
  h.registerUser.bind fun _ => (h.allocNotes fuel _ _).bind fun _ =>
    (h.withdrawActions _).bind fun _ => .pure _

theorem forM_ok {α : Type} {f : α → Except Error PUnit} {l : List α} (h : ∀ a ∈ l, f a = .ok ()) :
    l.forM f = .ok () := by
  induction l with
  | nil => rfl
  | cons a l ih =>
      show (f a >>= fun _ => l.forM f) = _
      rw [h a List.mem_cons_self]
      exact ih fun b hb => h b (List.mem_cons_of_mem a hb)

theorem Positive.check (h : Positive intent) (hregistered : st.registered = true) :
    checkIntent intent st = .ok () := by
  have hnonzero : ∀ amount : U128, amount ≠ 0 → nonzero amount = .ok () := fun _ hne => if_neg hne
  unfold checkIntent
  rw [hregistered, Bool.not_true, Bool.and_false, if_neg Bool.false_ne_true,
    forM_ok fun d hd => hnonzero d.2 (h.1 d hd)]
  exact forM_ok fun t ht => hnonzero t.2.2 (h.2 t ht)

/-- The text that names the token, what it lacks and what can be spent. -/
def shortText (token : Felt) (shortfall available : ℤ) : String :=
  feltHex token ++ ": " ++ toString shortfall ++ " short of the " ++ toString available ++
    " spendable. Notes younger than " ++ toString Rpc.Strk20.provingLag ++
    " blocks are not spendable yet; retry in a minute if you just received or changed some."

/-- A plan is refused for want of balance just when some token is short, and the refusal names such
a token, what can be spent of it and how much more it takes. -/
structure RefusedExactly (rng : Randomness ρ) (C : Curve) (fuel : ℕ) (intent : Intent) (st : State)
    (s : ρ) : Prop where
  refused_iff : (∃ token shortfall available,
    Fails (plan rng C fuel intent st) s (.insufficientBalance token shortfall available)) ↔
      ∃ token, Short intent st token
  figures : ∀ token shortfall available,
    Fails (plan rng C fuel intent st) s (.insufficientBalance token shortfall available) →
      Short intent st token ∧ (available.toNat : ℤ) = spendable st.notes token ∧
        (shortfall.toNat : ℤ) = -intent.net token - available.toNat ∧
        Rpc.Strk20.mapStrk20 (.insufficientBalance token shortfall available) =
          .insufficientPrivateBalance
            (shortText token (-intent.net token - spendable st.notes token) (spendable st.notes token))

/-- The only failures of a plan with sums that fit are those of its selection and of its
randomness. -/
theorem fails_plan_insufficient (hregistered : st.registered = true) (hpositive : Positive intent)
    (hrandom : OnlyRandom rng) {s : ρ} {token : Felt} {shortfall available : U128} :
    Fails (plan rng C fuel intent st) s (.insufficientBalance token shortfall available) ↔
      selectNotes intent st = .error (.insufficientBalance token shortfall available) := by
  have hcheck := hpositive.check hregistered
  rw [fails_plan_iff, hcheck]
  constructor
  · rintro (h | ⟨-, h | ⟨selected, -, h⟩⟩)
    · cases h
    · exact h
    · rcases hrandom.assemble selected s _ h with ⟨m, hm⟩ | ⟨a, ha⟩
      · cases hm
      · cases ha
  · exact fun h => .inr ⟨rfl, .inl h⟩

/-- The refusal is exact as long as the first token that is short has no open notes of any worth. -/
theorem insufficientBalance_exact_iff (hregistered : st.registered = true)
    (hpositive : Positive intent) (hfits : SumsFit intent st) (hrandom : OnlyRandom rng) (s : ρ) :
    RefusedExactly rng C fuel intent st s ↔
      ∀ token, FirstShort intent st token → openTotal st.notes token = 0 := by
  have hfails : ∀ {token : Felt} {shortfall available : U128},
      Fails (plan rng C fuel intent st) s (.insufficientBalance token shortfall available) ↔
        selectNotes intent st = .error (.insufficientBalance token shortfall available) :=
    fails_plan_insufficient hregistered hpositive hrandom
  rcases selectNotes_cases hfits with ⟨hnone, r, hr⟩ | ⟨token, sh, av, hfirst, he, hfig⟩
  · refine ⟨fun _ token hfirst => absurd hfirst.1 (hnone token), fun _ => ⟨?_, ?_⟩⟩
    · refine ⟨fun ⟨token, sh, av, h⟩ => ?_, fun ⟨token, h⟩ => absurd h (hnone token)⟩
      rw [hfails, hr] at h
      cases h
    · intro token sh av h
      rw [hfails, hr] at h
      cases h
  · have hrefused := hfails.2 he
    constructor
    · intro hexact token' hfirst'
      obtain rfl : token' = token := by
        rcases lt_trichotomy token' token with hlt | heq | hlt
        · exact absurd hfirst'.1 (hfirst.2 token' hlt)
        · exact heq
        · exact absurd hfirst.1 (hfirst'.2 token hlt)
      obtain ⟨-, hav, -⟩ := hexact.figures token' sh av hrefused
      have := hfig.available
      omega
    · intro hopen
      have hzero := hopen token hfirst
      have hav := hfig.available
      have hsh := hfig.shortfall
      rw [hzero, add_zero] at hav
      refine ⟨⟨fun _ => ⟨token, hfirst.1⟩, fun _ => ⟨token, sh, av, hrefused⟩⟩, ?_⟩
      intro token' sh' av' h
      rw [hfails, he] at h
      cases h
      refine ⟨hfirst.1, hav, by omega, ?_⟩
      rw [← hsh, ← hav]
      rfl

end

/-! ## An open note -/

/-- Sixty of token 7 withdrawn. -/
def withdrawSixty : Intent where
  withdrawals := [(3, 7, 60)]

theorem positive_withdrawSixty : Positive withdrawSixty := by
  refine ⟨fun d hd => (nomatch hd), fun t ht => ?_⟩
  rw [List.mem_singleton.1 ht]
  exact fun hzero => absurd (congrArg BitVec.toNat hzero) (by decide)

theorem onlyRandom_constantRandomness : OnlyRandom constantRandomness := by
  rintro s e (h | h) <;> cases h

theorem total_singleton_le (token : Felt) (x : Felt × U128) : total token [x] ≤ x.2.toNat := by
  rw [total_cons, total_nil]
  split_ifs <;> omega

theorem sumsFit_withdrawSixty {st : State} {n : Note} (hnotes : st.notes = [n])
    (hn : n.amount.toNat ≤ 100) : SumsFit withdrawSixty st := by
  refine ⟨fun token => Int.pow_pos (by decide), fun token => ?_, fun token => ?_⟩
  · exact lt_of_le_of_lt (total_singleton_le token (7, 60)) (by decide)
  · rw [hnotes]
    refine lt_of_le_of_lt (total_singleton_le token n.value) ?_
    have hvalue : n.value.2.toNat ≤ 100 := hn
    omega

/-- The user's only note is an open note of 100. -/
def openNote : State := { soleUser with
  notes := [⟨11, 7, 100, 8, 0, 1, true⟩] }

/-- Nothing can be spent, and the refusal reports 60 short of 100 spendable. -/
theorem refusal_counts_open :
    openNote.registered = true ∧ Positive withdrawSixty ∧ SumsFit withdrawSixty openNote ∧
      OnlyRandom constantRandomness ∧ spendable openNote.notes 7 = 0 ∧
      Fails (plan constantRandomness zeroCurve 1 withdrawSixty openNote) ()
        (.insufficientBalance 7 60 100) ∧
      ¬ RefusedExactly constantRandomness zeroCurve 1 withdrawSixty openNote () := by
  have hspendable : spendable openNote.notes 7 = 0 := by decide
  have hselect : selectNotes withdrawSixty openNote = .error (.insufficientBalance 7 60 100) := by
    decide +kernel
  have hfails : Fails (plan constantRandomness zeroCurve 1 withdrawSixty openNote) ()
      (.insufficientBalance 7 60 100) :=
    (fails_plan_insufficient rfl positive_withdrawSixty onlyRandom_constantRandomness).2 hselect
  refine ⟨rfl, positive_withdrawSixty, sumsFit_withdrawSixty rfl (by decide),
    onlyRandom_constantRandomness, hspendable, hfails, fun h => ?_⟩
  obtain ⟨-, hav, -⟩ := h.figures 7 60 100 hfails
  rw [hspendable] at hav
  exact absurd hav (by decide)

/-- With an ordinary note that is too small the refusal is exact. -/
theorem insufficientBalance_exact_ordinary :
    let st : State := { soleUser with notes := [⟨11, 7, 40, 8, 0, 1, false⟩] }
    RefusedExactly constantRandomness zeroCurve 1 withdrawSixty st () ∧
      Short withdrawSixty st 7 := by
  intro st
  have hiff : RefusedExactly constantRandomness zeroCurve 1 withdrawSixty st () ↔
      ∀ token, FirstShort withdrawSixty st token → openTotal st.notes token = 0 :=
    insufficientBalance_exact_iff rfl positive_withdrawSixty
      (sumsFit_withdrawSixty rfl (by decide)) onlyRandom_constantRandomness ()
  exact ⟨hiff.2 fun token _ => rfl, by unfold Short; decide⟩

end Strkd.Strk20
