import Strkd.Lib.Except
import Strkd.Lib.Greedy
import Strkd.Strk20.Value

/-!
# The notes that a plan spends

A deficit is covered with the largest notes of its token, one after the other until it is covered:
no choice of fewer notes covers it, and less than the smallest note spent comes back as change.  What
is spent depends on the order of the notes only among notes of one amount.
-/

namespace Strkd.Strk20

open Std (ExtTreeMap)

/-! ## Notes of a token -/

/-- A note that a deficit of `token` may be covered with. -/
def Spendable (token : Felt) (n : Note) : Prop := n.token = token ∧ n.isOpen = false ∧ 0 < n.amount

instance (token : Felt) : DecidablePred (Spendable token) :=
  fun _ => inferInstanceAs (Decidable (_ ∧ _ ∧ _))

/-- The notes of a selection that are of `token`. -/
def ofToken (token : Felt) (spends : List Note) : List Note := spends.filter fun n => n.token = token

theorem mem_candidates_iff {notes : List Note} {token : Felt} {n : Note} :
    n ∈ candidates notes token ↔ n ∈ notes ∧ Spendable token n := mem_candidates

theorem total_ofToken (token : Felt) (spends : List Note) :
    total token ((ofToken token spends).map Note.value) = total token (spends.map Note.value) := by
  induction spends with
  | nil => rfl
  | cons n rest ih =>
      unfold ofToken at ih ⊢
      by_cases hn : n.token = token
      · rw [List.filter_cons_of_pos (by simpa using hn), List.map_cons, List.map_cons, total_cons,
          total_cons, ih]
      · rw [List.filter_cons_of_neg (by simpa using hn), List.map_cons, total_cons,
          if_neg (by simpa [Note.value] using hn), zero_add, ih]

/-- The total of notes of one token, as a sum of their amounts. -/
theorem total_eq_sum {token : Felt} {notes : List Note} (h : ∀ n ∈ notes, n.token = token) :
    total token (notes.map Note.value) = ((notes.map fun n => n.amount.toNat).sum : ℕ) := by
  induction notes with
  | nil => rfl
  | cons n rest ih =>
      have hn : n.value.1 = token := h n List.mem_cons_self
      rw [List.map_cons, total_cons, if_pos hn, ih fun m hm => h m (List.mem_cons_of_mem n hm),
        List.map_cons, List.sum_cons]
      rfl

/-! ## The shortest prefix that covers a balance -/

/-- `spends` is the shortest prefix of the candidates that makes up for the balance. -/
def Shortest (notes : List Note) (token : Felt) (bal : ℤ) (spends : List Note) : Prop :=
  ∃ k, spends = (candidates notes token).take k ∧ 0 ≤ bal + total token (spends.map Note.value) ∧
    ∀ j < k, bal + total token (((candidates notes token).take j).map Note.value) < 0

theorem shortest_of_coverToken {notes spends : List Note} {token : Felt} {bal bal' : I128}
    (h : coverToken notes token bal = .ok (bal', spends)) :
    Shortest notes token bal.toInt spends := by
  unfold coverToken at h
  split_ifs at h with hneg
  · cases hs : spendUntil bal (candidates notes token) with
    | error e =>
        rw [hs] at h
        cases h
    | ok r =>
        obtain ⟨b, spends'⟩ := r
        simp only [bind, Except.bind, hs] at h
        split_ifs at h with hb
        cases h
        obtain ⟨hsum, k, hk, hmin⟩ := spendUntil_eq_ok (fun n hn => (mem_candidates.1 hn).2.1) hs
        exact ⟨k, hk, by omega, hmin⟩
  · cases h
    refine ⟨0, by rw [List.take_zero], ?_, fun j hj => absurd hj (Nat.not_lt_zero j)⟩
    rw [List.map_nil, total_nil]
    omega

theorem ofToken_eq_self {token : Felt} {spends : List Note} (h : ∀ n ∈ spends, n.token = token) :
    ofToken token spends = spends :=
  List.filter_eq_self.2 fun n hn => by simpa using h n hn

theorem ofToken_eq_nil {token : Felt} {spends : List Note} (h : ∀ n ∈ spends, n.token ≠ token) :
    ofToken token spends = [] :=
  List.filter_eq_nil_iff.2 fun n hn => by simpa using h n hn

theorem ofToken_append (token : Felt) (s t : List Note) :
    ofToken token (s ++ t) = ofToken token s ++ ofToken token t := List.filter_append ..

theorem Shortest.token {notes spends : List Note} {token : Felt} {bal : ℤ}
    (h : Shortest notes token bal spends) : ∀ n ∈ spends, Spendable token n := by
  obtain ⟨k, rfl, -⟩ := h
  exact fun n hn => (mem_candidates_iff.1 (List.mem_of_mem_take hn)).2

theorem shortest_of_coverDeficits {notes spends : List Note} {bals : List (Felt × I128)}
    {change : ExtTreeMap Felt U128} (hnd : (bals.map Prod.fst).Nodup)
    (h : coverDeficits notes bals = .ok (spends, change)) :
    (∀ token bal, (token, bal) ∈ bals → Shortest notes token bal.toInt (ofToken token spends)) ∧
      ∀ n ∈ spends, n.token ∈ bals.map Prod.fst := by
  induction bals generalizing spends change with
  | nil =>
      cases h
      exact ⟨fun _ _ hmem => (nomatch hmem), fun _ hn => (nomatch hn)⟩
  | cons x rest ih =>
      obtain ⟨token, bal⟩ := x
      rw [List.map_cons, List.nodup_cons] at hnd
      obtain ⟨hnew, hnd⟩ := hnd
      unfold coverDeficits at h
      obtain ⟨⟨bal', spends₁⟩, hc, h⟩ := except_bind_eq_ok.1 h
      obtain ⟨⟨spends₂, change'⟩, hr, h⟩ := except_bind_eq_ok.1 h
      cases h
      obtain ⟨hrest, hmem⟩ := ih hnd hr
      have hshort := shortest_of_coverToken hc
      have hfirst : ∀ n ∈ spends₁, n.token = token := fun n hn => (hshort.token n hn).1
      have hothers : ∀ n ∈ spends₂, n.token ≠ token := fun n hn heq => hnew (heq ▸ hmem n hn)
      refine ⟨fun k b hk => ?_, fun n hn => ?_⟩
      · rw [ofToken_append]
        rcases List.mem_cons.1 hk with hk | hk
        · cases hk
          rw [ofToken_eq_self hfirst, ofToken_eq_nil hothers, List.append_nil]
          exact hshort
        · have hne : k ≠ token := fun heq => hnew (heq ▸ List.mem_map.2 ⟨(k, b), hk, rfl⟩)
          rw [ofToken_eq_nil fun n hn heq => hne (heq.symm.trans (hfirst n hn)), List.nil_append]
          exact hrest k b hk
      · rw [List.map_cons, List.mem_cons]
        rcases List.mem_append.1 hn with hn | hn
        · exact .inl (hfirst n hn)
        · exact .inr (hmem n hn)

/-- What is spent of each token is the shortest prefix that makes up for its net amount. -/
theorem shortest_of_selectNotes {intent : Intent} {st : State} {spends : List Note}
    {change : ExtTreeMap Felt U128} (h : selectNotes intent st = .ok (spends, change))
    (token : Felt) :
    Shortest st.notes token (BitVec.ofInt 128 (intent.net token)).toInt (ofToken token spends) := by
  unfold selectNotes at h
  obtain ⟨balance, hb, h⟩ := except_bind_eq_ok.1 h
  obtain ⟨hshort, hmem⟩ := shortest_of_coverDeficits (TreeMap.nodup_keys balance) h
  rw [← balanceOf_balances hb, balanceOf]
  cases hk : balance[token]? with
  | some bal => exact hshort token bal (TreeMap.mem_toList.2 hk)
  | none =>
      have hnot : token ∉ balance.toList.map Prod.fst := by
        rw [TreeMap.mem_keys_iff, hk]
        simp
      have hnone : ∀ n ∈ spends, n.token ≠ token := fun n hn heq => hnot (heq ▸ hmem n hn)
      rw [ofToken_eq_nil hnone]
      exact ⟨0, rfl, le_rfl, fun j hj => absurd hj (Nat.not_lt_zero j)⟩

/-! ## No fewer notes, and little change -/

/-- What is spent of a token in which `d` is missing is enough and no more than needed. -/
structure MinimalSpend (notes : List Note) (token : Felt) (d : ℤ) (spends : List Note)
    (change : U128) : Prop where
  spendable : ∀ n ∈ spends, Spendable token n
  enough : d ≤ total token (spends.map Note.value)
  /-- No choice of fewer notes is enough. -/
  fewest : ∀ places : Finset (Fin notes.length), (∀ i ∈ places, Spendable token (notes.get i)) →
    places.card < spends.length → ∑ i ∈ places, ((notes.get i).amount.toNat : ℤ) < d
  change_lt : ∀ n ∈ spends, change.toNat < n.amount.toNat

theorem candidates_pairwise (notes : List Note) (token : Felt) :
    ((candidates notes token).map fun n => n.amount.toNat).Pairwise (· ≥ ·) := by
  rw [List.pairwise_map]
  exact List.pairwise_insertionSort (fun n m : Note => m.amount ≤ n.amount) _

theorem total_take_candidates (notes : List Note) (token : Felt) (k : ℕ) :
    total token (((candidates notes token).take k).map Note.value) =
      (((candidates notes token).map fun n => n.amount.toNat).take k).sum := by
  rw [total_eq_sum fun n hn => (mem_candidates_iff.1 (List.mem_of_mem_take hn)).2.1, List.map_take]

/-- Spendable notes at different positions sum to no more than as many of the first candidates. -/
theorem sum_places_le {notes : List Note} {token : Felt} {places : Finset (Fin notes.length)}
    (h : ∀ i ∈ places, Spendable token (notes.get i)) :
    ∑ i ∈ places, ((notes.get i).amount.toNat : ℤ) ≤
      total token (((candidates notes token).take places.card).map Note.value) := by
  let chosen := places.toList.map notes.get
  have hspendable : ∀ n ∈ chosen, Spendable token n := by
    intro n hn
    obtain ⟨i, hi, rfl⟩ := List.mem_map.1 hn
    exact h i (Finset.mem_toList.1 hi)
  have hchosen : chosen.Subperm (candidates notes token) := by
    have hfilter := (subperm_of_positions places).filter fun n => decide (Spendable token n)
    rw [List.filter_eq_self.2 fun n hn => decide_eq_true (hspendable n hn)] at hfilter
    exact hfilter.trans (List.perm_insertionSort _ _).symm.subperm
  obtain ⟨m, hperm, hsub⟩ := hchosen
  have hamounts : (chosen.map fun n => n.amount.toNat).Subperm
      ((candidates notes token).map fun n => n.amount.toNat) :=
    ⟨m.map _, hperm.map _, hsub.map _⟩
  have hle := sum_le_sum_take (candidates_pairwise notes token) hamounts
  rw [List.length_map, List.length_map, Finset.length_toList] at hle
  have hsum : (chosen.map fun n => n.amount.toNat).sum = ∑ i ∈ places, (notes.get i).amount.toNat := by
    rw [List.map_map, ← Finset.sum_map_toList]
    rfl
  rw [total_take_candidates, ← Nat.cast_sum, ← hsum]
  exact_mod_cast hle

/-- The last note that a shortest prefix takes is its smallest, and the prefix before it is short. -/
theorem Shortest.change_lt {notes spends : List Note} {token : Felt} {bal : ℤ}
    (h : Shortest notes token bal spends) {n : Note} (hn : n ∈ spends) :
    bal + total token (spends.map Note.value) < n.amount.toNat := by
  obtain ⟨k, rfl, hnonneg, hshort⟩ := h
  cases k with
  | zero => cases hn
  | succ m =>
      have hbefore := hshort m (Nat.lt_succ_self m)
      rw [total_take_candidates] at hbefore hnonneg ⊢
      have hsorted := candidates_pairwise notes token
      obtain ⟨i, hi, rfl⟩ := List.mem_iff_getElem.1 hn
      rw [List.length_take] at hi
      by_cases hm : m < (candidates notes token).length
      · have hm' : m < ((candidates notes token).map fun n => n.amount.toNat).length := by
          rwa [List.length_map]
        rw [List.take_succ_eq_append_getElem hm', List.sum_append, List.sum_singleton]
        have hi' : i < ((candidates notes token).map fun n => n.amount.toNat).length := by
          rw [List.length_map]
          omega
        have hle : ((candidates notes token).map fun n => n.amount.toNat)[m] ≤
            ((candidates notes token).map fun n => n.amount.toNat)[i] := by
          rcases (show i < m ∨ i = m by omega) with hlt | rfl
          · exact List.pairwise_iff_getElem.1 hsorted i m _ hm' hlt
          · exact le_rfl
        simp only [List.getElem_map, List.getElem_take] at hle ⊢
        push_cast at hbefore ⊢
        omega
      · -- there is no note left to take
        have hlen : ((candidates notes token).map fun n => n.amount.toNat).length ≤ m := by
          rw [List.length_map]
          omega
        rw [List.take_of_length_le (by omega)] at hnonneg
        rw [List.take_of_length_le hlen] at hbefore
        omega

theorem Shortest.minimal {notes spends : List Note} {token : Felt} {d : ℤ} {change : U128}
    (h : Shortest notes token (-d) spends)
    (hchange : (change.toNat : ℤ) = -d + total token (spends.map Note.value)) :
    MinimalSpend notes token d spends change := by
  have hlt := fun n hn => h.change_lt (n := n) hn
  have htoken := h.token
  obtain ⟨k, rfl, hnonneg, hshort⟩ := h
  refine ⟨htoken, by omega, fun places hplaces hcard => ?_, fun n hn => ?_⟩
  · have hj : places.card < k := lt_of_lt_of_le hcard (List.length_take_le _ _)
    have hsum := sum_places_le hplaces
    have hbefore := hshort places.card hj
    omega
  · have := hlt n hn
    omega

/-! ## The order of the notes -/

theorem candidates_amounts {notes notes' : List Note} (h : notes'.Perm notes) (token : Felt) :
    (candidates notes' token).map Note.value = (candidates notes token).map Note.value := by
  have hperm : (candidates notes' token).Perm (candidates notes token) :=
    ((List.perm_insertionSort _ _).trans (h.filter _)).trans (List.perm_insertionSort _ _).symm
  have hamounts : ((candidates notes' token).map fun n => n.amount.toNat) =
      (candidates notes token).map fun n => n.amount.toNat :=
    (hperm.map _).eq_of_pairwise (fun a b _ _ hab hba => le_antisymm hba hab)
      (candidates_pairwise notes' token) (candidates_pairwise notes token)
  have hvalue : ∀ l : List Note, (∀ n ∈ l, n.token = token) →
      l.map Note.value = (l.map fun n => n.amount.toNat).map fun a => (token, BitVec.ofNat 128 a) := by
    intro l hl
    rw [List.map_map]
    refine List.map_congr_left fun n hn => ?_
    simp [Note.value, hl n hn]
  rw [hvalue _ fun n hn => (mem_candidates_iff.1 hn).2.1, hamounts,
    ← hvalue _ fun n hn => (mem_candidates_iff.1 hn).2.1]

/-- Notes of the same amounts are spent alike. -/
theorem spendUntil_values {notes notes' : List Note} {bal bal' : I128} {spends : List Note}
    (hvalues : notes'.map Note.value = notes.map Note.value)
    (h : spendUntil bal notes = .ok (bal', spends)) :
    ∃ spends', spendUntil bal notes' = .ok (bal', spends') ∧
      spends'.map Note.value = spends.map Note.value := by
  induction notes generalizing notes' bal spends with
  | nil =>
      rw [List.map_nil, List.map_eq_nil_iff] at hvalues
      subst hvalues
      exact ⟨spends, h, rfl⟩
  | cons n rest ih =>
      cases notes' with
      | nil => cases hvalues
      | cons n' rest' =>
          obtain ⟨hhead, htail⟩ := List.cons.inj hvalues
          have hamount : n'.amount = n.amount := congrArg Prod.snd hhead
          unfold spendUntil at h ⊢
          split_ifs at h ⊢ with hneg
          · cases h
            exact ⟨[], rfl, rfl⟩
          · obtain ⟨a, ha, h⟩ := except_bind_eq_ok.1 h
            obtain ⟨⟨b, spends₁⟩, hr, h⟩ := except_bind_eq_ok.1 h
            cases h
            obtain ⟨spends', hspends', hmap⟩ := ih htail hr
            refine ⟨n' :: spends', ?_, by rw [List.map_cons, List.map_cons, hhead, hmap]⟩
            rw [hamount, ha]
            simp only [bind, Except.bind, hspends']
            rfl

theorem coverToken_values {notes notes' spends : List Note} {token : Felt} {bal bal' : I128}
    (hperm : notes'.Perm notes) (h : coverToken notes token bal = .ok (bal', spends)) :
    ∃ spends', coverToken notes' token bal = .ok (bal', spends') ∧
      spends'.map Note.value = spends.map Note.value := by
  unfold coverToken at h ⊢
  split_ifs at h ⊢ with hneg
  · obtain ⟨⟨b, spends₁⟩, hs, h⟩ := except_bind_eq_ok.1 h
    obtain ⟨spends', hspends', hmap⟩ := spendUntil_values (candidates_amounts hperm token) hs
    simp only [bind, Except.bind] at h
    split_ifs at h with hb
    cases h
    refine ⟨spends', ?_, hmap⟩
    simp only [bind, Except.bind, hspends', if_neg hb]
    rfl
  · cases h
    exact ⟨[], rfl, rfl⟩

theorem coverDeficits_values {notes notes' spends : List Note} {bals : List (Felt × I128)}
    {change : ExtTreeMap Felt U128} (hperm : notes'.Perm notes)
    (h : coverDeficits notes bals = .ok (spends, change)) :
    ∃ spends', coverDeficits notes' bals = .ok (spends', change) ∧
      spends'.map Note.value = spends.map Note.value := by
  induction bals generalizing spends change with
  | nil =>
      cases h
      exact ⟨[], rfl, rfl⟩
  | cons x rest ih =>
      obtain ⟨token, bal⟩ := x
      unfold coverDeficits at h ⊢
      obtain ⟨⟨bal', spends₁⟩, hc, h⟩ := except_bind_eq_ok.1 h
      obtain ⟨⟨spends₂, change'⟩, hr, h⟩ := except_bind_eq_ok.1 h
      cases h
      obtain ⟨spends₁', hc', hmap₁⟩ := coverToken_values hperm hc
      obtain ⟨spends₂', hr', hmap₂⟩ := ih hr
      refine ⟨spends₁' ++ spends₂', ?_, by rw [List.map_append, List.map_append, hmap₁, hmap₂]⟩
      simp only [bind, Except.bind, hc', hr']
      rfl

/-- The notes of a state in another order. -/
def State.reorder (st : State) (notes : List Note) : State := { st with notes }

theorem selectNotes_values {intent : Intent} {st : State} {notes' spends : List Note}
    {change : ExtTreeMap Felt U128} (hperm : notes'.Perm st.notes)
    (h : selectNotes intent st = .ok (spends, change)) :
    ∃ spends', selectNotes intent (st.reorder notes') = .ok (spends', change) ∧
      spends'.map Note.value = spends.map Note.value := by
  unfold selectNotes at h ⊢
  obtain ⟨balance, hb, h⟩ := except_bind_eq_ok.1 h
  obtain ⟨spends', hspends', hmap⟩ := coverDeficits_values hperm h
  refine ⟨spends', ?_, hmap⟩
  rw [hb]
  exact hspends'

/-! ## Plans -/

section

variable {ρ : Type} {rng : Randomness ρ} {C : Curve} {fuel : ℕ} {intent : Intent} {st : State}

def useNotes (spends : List Note) : List ClientAction :=
  spends.map fun n => .useNote n.channelKey n.token n.index

theorem openChannels_useNotes (before after : List ClientAction) (spends : List Note) :
    (before ++ useNotes spends ++ after).filter isOpenChannel =
      before.filter isOpenChannel ++ after.filter isOpenChannel := by
  have huse : (useNotes spends).filter isOpenChannel = [] := by
    refine List.filter_eq_nil_iff.2 fun a ha => ?_
    obtain ⟨n, -, rfl⟩ := List.mem_map.1 ha
    exact Bool.false_ne_true
  rw [List.filter_append, List.filter_append, huse, List.append_nil]

/-- Apart from spending other notes, a plan does not depend on which notes were selected, nor on
which there are. -/
theorem assemble_spends {spends : List Note} {change : ExtTreeMap Felt U128} {p : Plan} {s s' : ρ}
    (h : Returns (assemble rng C fuel intent st (spends, change)) s p s') :
    p.change = change ∧ p.spent = spends.map Note.id ∧ ∃ before after,
      p.actions = before ++ useNotes spends ++ after ∧ ∀ notes' spends',
        Returns (assemble rng C fuel intent (st.reorder notes') (spends', change)) s
          { p with
            actions := before ++ useNotes spends' ++ after
            spent := spends'.map Note.id } s' := by
  unfold assemble at h
  obtain ⟨⟨account, start⟩, s₁, hstart, h⟩ := returns_bind.1 h
  obtain ⟨final, s₂, hfinal, h⟩ := returns_bind.1 h
  obtain ⟨withdraws, s₃, hw, h⟩ := returns_bind.1 h
  obtain ⟨rfl, rfl⟩ := returns_pure.1 h
  let before := account ++ final.openChannels ++ final.openSubchannels ++
    intent.deposits.map fun deposit => .deposit deposit.1 deposit.2
  let after := final.createNotes ++ withdraws
  have hactions : ∀ spends : List Note, before ++ spends.map (fun n =>
      .useNote n.channelKey n.token n.index) ++ final.createNotes ++ withdraws =
      before ++ useNotes spends ++ after := fun spends => List.append_assoc ..
  refine ⟨rfl, rfl, before, after, hactions spends, ?_⟩
  intro notes' spends'
  unfold assemble
  refine returns_bind.2 ⟨_, s₁, hstart, returns_bind.2 ⟨final, s₂, hfinal,
    returns_bind.2 ⟨withdraws, _, hw, returns_pure.2 ⟨?_, rfl⟩⟩⟩⟩
  simp only [Plan.mk.injEq, true_and]
  refine ⟨(hactions spends').symm, ?_⟩
  rw [hactions, hactions, openChannels_useNotes, openChannels_useNotes]

/-- Two plans that differ only in which notes of the same tokens and amounts they spend. -/
structure SameButNotes (p : Plan) (spends : List Note) (p' : Plan) (spends' : List Note) : Prop where
  values : spends'.map Note.value = spends.map Note.value
  change : p'.change = p.change
  warnings : p'.warnings = p.warnings
  spent : p.spent = spends.map Note.id ∧ p'.spent = spends'.map Note.id
  actions : ∃ before after, p.actions = before ++ useNotes spends ++ after ∧
    p'.actions = before ++ useNotes spends' ++ after

/-- A returned plan spends the fewest notes that cover a deficit, the change is smaller than any of
them, and without a deficit nothing is spent.  Another order of the notes changes nothing but which
notes of one amount are spent. -/
theorem plan_selection {p : Plan} {s s' : ρ} (hfits : ∀ token, FitsI128 (intent.net token))
    (h : Returns (plan rng C fuel intent st) s p s') :
    ∃ spends, p.spent = spends.map Note.id ∧
      used p.actions = spends.map (fun n => (n.channelKey, n.token, n.index)) ∧
      (∃ places : List (Fin st.notes.length), places.Nodup ∧ places.map st.notes.get = spends) ∧
      (∀ token, intent.net token < 0 → MinimalSpend st.notes token (-intent.net token)
        (ofToken token spends) (changeOf p.change token)) ∧
      (∀ token, 0 ≤ intent.net token → ofToken token spends = []) ∧
      ∀ notes', notes'.Perm st.notes → ∃ p' spends',
        Returns (plan rng C fuel intent (st.reorder notes')) s p' s' ∧
          SameButNotes p spends p' spends' := by
  obtain ⟨hcheck, ⟨spends, change⟩, hselected, hassemble⟩ := returns_plan_iff.1 h
  obtain ⟨rfl, hspent, before, after, hactions, hagain⟩ := assemble_spends hassemble
  obtain ⟨spends₁, change₁, hselected₁, hmoves, -⟩ := plan_value h
  rw [hselected] at hselected₁
  cases hselected₁
  have hshort := fun token => shortest_of_selectNotes hselected token
  have hnet : ∀ token, (BitVec.ofInt 128 (intent.net token)).toInt = intent.net token :=
    fun token => (toInt_ofInt_eq_iff _).2 (hfits token)
  refine ⟨spends, hspent, hmoves.used, exists_positions hmoves.held, fun token hneg => ?_,
    fun token hnonneg => ?_, fun notes' hperm => ?_⟩
  · refine Shortest.minimal ?_ ?_
    · rw [neg_neg, ← hnet]
      exact hshort token
    · rw [neg_neg, total_ofToken, ← hnet]
      exact (selects_of_selectNotes hselected).change_eq token
  · obtain ⟨k, hk, -, hbefore⟩ := hshort token
    rw [hk]
    cases k with
    | zero => rfl
    | succ k =>
        have hzero := hbefore 0 (Nat.succ_pos k)
        rw [List.take_zero, List.map_nil, total_nil, hnet] at hzero
        omega
  · obtain ⟨spends', hselected', hvalues⟩ := selectNotes_values hperm hselected
    refine ⟨_, spends', returns_plan_iff.2 ⟨hcheck, (spends', p.change), hselected',
      hagain notes' spends'⟩, ?_⟩
    exact ⟨hvalues, rfl, rfl, ⟨hspent, rfl⟩, before, after, hactions, rfl⟩

end

/-- Two notes, of which the larger covers what is withdrawn. -/
def twoSpendable : State := { soleUser with
  notes := [⟨11, 7, 40, 8, 0, 1, false⟩, ⟨12, 7, 100, 8, 1, 1, false⟩] }

/-- The larger note is spent, and less than it comes back. -/
theorem plan_selection_twoSpendable : ∃ (p : Plan) (spends : List Note),
    p.spent = spends.map Note.id ∧
      MinimalSpend twoSpendable.notes 7 60 (ofToken 7 spends) (changeOf p.change 7) := by
  have hsome : (result (plan constantRandomness zeroCurve 1 { withdrawals := [(3, 7, 60)] }
      twoSpendable) ()).isSome := by decide +kernel
  obtain ⟨p, hp⟩ := Option.isSome_iff_exists.1 hsome
  obtain ⟨s', h⟩ := returns_of_result hp
  have hfits : ∀ token, FitsI128 (Intent.net { withdrawals := [(3, 7, 60)] } token) := by
    intro token
    by_cases htoken : (7 : Felt) = token
    · subst htoken
      decide
    · have hnet : Intent.net { withdrawals := [(3, 7, 60)] } token = 0 := by
        simp [Intent.net, total_cons, htoken]
      rw [hnet]
      decide
  obtain ⟨spends, hspent, -, -, hminimal, -⟩ := plan_selection hfits h
  exact ⟨p, spends, hspent, hminimal 7 (by decide)⟩

end Strkd.Strk20
