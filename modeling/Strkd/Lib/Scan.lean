import Mathlib

/-!
# Scanning slots in order

A list kept slot by slot ends at its first empty slot (`firstEmpty`).  `Lists r s f l` says that a
scan found exactly the slots of `s`, each once and in the order of `r`, and read `f` in each.
-/

namespace Strkd

/-! ## The first empty slot -/

/-- The first index at which `empty` holds. -/
noncomputable def firstEmpty (empty : ℕ → Prop) : ℕ := sInf {i | empty i}

variable {empty : ℕ → Prop}

theorem firstEmpty_eq {n : ℕ} (hn : empty n) (h : ∀ i < n, ¬ empty i) : firstEmpty empty = n := by
  have hmem : empty (firstEmpty empty) := Nat.sInf_mem (s := {i | empty i}) ⟨n, hn⟩
  have hle : firstEmpty empty ≤ n := Nat.sInf_le hn
  by_contra hne
  exact h _ (lt_of_le_of_ne hle hne) hmem

theorem empty_firstEmpty {n : ℕ} (hn : empty n) : empty (firstEmpty empty) :=
  Nat.sInf_mem (s := {i | empty i}) ⟨n, hn⟩

theorem firstEmpty_le {n : ℕ} (hn : empty n) : firstEmpty empty ≤ n := Nat.sInf_le hn

theorem not_empty_of_lt_firstEmpty {i : ℕ} (hi : i < firstEmpty empty) : ¬ empty i :=
  Nat.notMem_of_lt_sInf hi

/-! ## What a scan lists -/

variable {α β γ : Type} {r : α → α → Prop} {s s' : α → Prop} {f : α → Option β} {l l' : List β}

/-- `l` holds the values of `f` at the members of `s`, each once, in the order of `r`. -/
def Lists (r : α → α → Prop) (s : α → Prop) (f : α → Option β) (l : List β) : Prop :=
  ∃ slots : List α, slots.Pairwise r ∧ (∀ a, a ∈ slots ↔ s a) ∧
    List.Forall₂ (fun a b => f a = some b) slots l

namespace Lists

theorem nil (h : ∀ a, ¬ s a) : Lists r s f [] :=
  ⟨[], .nil, fun a => ⟨fun ha => absurd ha List.not_mem_nil, fun ha => absurd ha (h a)⟩, .nil⟩

theorem congr (h : Lists r s f l) (hs : ∀ a, s' a ↔ s a) : Lists r s' f l := by
  obtain ⟨slots, hr, hmem, hf⟩ := h
  exact ⟨slots, hr, fun a => (hmem a).trans (hs a).symm, hf⟩

theorem singleton {a : α} {b : β} (h : f a = some b) : Lists r (· = a) f [b] :=
  ⟨[a], List.pairwise_singleton r a, fun _ => List.mem_singleton, .cons h .nil⟩

/-- Two scans one after the other. -/
theorem append (h : Lists r s f l) (h' : Lists r s' f l') (hr : ∀ a b, s a → s' b → r a b) :
    Lists r (fun a => s a ∨ s' a) f (l ++ l') := by
  obtain ⟨slots, hp, hmem, hf⟩ := h
  obtain ⟨slots', hp', hmem', hf'⟩ := h'
  refine ⟨slots ++ slots', List.pairwise_append.2 ⟨hp, hp', ?_⟩, fun a => ?_,
    List.rel_append hf hf'⟩
  · intro a ha b hb
    exact hr a b ((hmem a).1 ha) ((hmem' b).1 hb)
  · rw [List.mem_append, hmem, hmem']

/-- The slots of an inner scan, seen as slots of the outer one. -/
theorem map {t : γ → γ → Prop} {g : γ → Option β} (e : α → γ) (h : Lists r s f l)
    (he : ∀ a b, r a b → t (e a) (e b)) (hg : ∀ a b, s a → f a = some b → g (e a) = some b) :
    Lists t (fun c => ∃ a, s a ∧ e a = c) g l := by
  obtain ⟨slots, hp, hmem, hf⟩ := h
  refine ⟨slots.map e, List.pairwise_map.2 (hp.imp (he _ _)), fun c => ?_, ?_⟩
  · simp only [List.mem_map, hmem]
  · rw [List.forall₂_map_left_iff]
    have hall : ∀ a ∈ slots, s a := fun a ha => (hmem a).1 ha
    clear hp hmem
    induction hf with
    | nil => exact .nil
    | cons hab _ ih =>
        exact .cons (hg _ _ (hall _ List.mem_cons_self) hab)
          (ih fun a ha => hall a (List.mem_cons_of_mem _ ha))

/-- What stands in a list read slot by slot is read at one of the slots. -/
theorem mem_of_forall₂ {slots : List α} (h : List.Forall₂ (fun a b => f a = some b) slots l) (b : β) :
    b ∈ l ↔ ∃ a ∈ slots, f a = some b := by
  induction h with
  | nil => simp
  | cons hab _ ih =>
      simp only [List.mem_cons, ih, exists_eq_or_imp, hab, Option.some.injEq]
      exact or_congr eq_comm Iff.rfl

/-- What is listed is read at some slot. -/
theorem mem_iff (h : Lists r s f l) (b : β) : b ∈ l ↔ ∃ a, s a ∧ f a = some b := by
  obtain ⟨slots, -, hmem, hf⟩ := h
  rw [mem_of_forall₂ hf]
  exact exists_congr fun a => and_congr (hmem a) Iff.rfl

/-- A scan in a strict order lists its slots in one way only. -/
theorem unique (hasymm : ∀ a b, r a b → ¬ r b a) (h : Lists r s f l) (h' : Lists r s f l') :
    l = l' := by
  obtain ⟨slots, hp, hmem, hf⟩ := h
  obtain ⟨slots', hp', hmem', hf'⟩ := h'
  have hnodup : ∀ {slots : List α}, slots.Pairwise r → slots.Nodup := by
    intro slots hp
    refine List.Pairwise.imp (fun {a b} hab heq => ?_) hp
    subst heq
    exact hasymm a a hab hab
  have hperm : slots.Perm slots' :=
    (List.perm_ext_iff_of_nodup (hnodup hp) (hnodup hp')).2 fun a => (hmem a).trans (hmem' a).symm
  obtain rfl : slots = slots' :=
    hperm.eq_of_pairwise (fun a b _ _ hab hba => absurd hba (hasymm a b hab)) hp hp'
  clear hp hp' hmem hmem' hperm
  induction hf generalizing l' with
  | nil =>
      cases hf'
      rfl
  | cons hab _ ih =>
      cases hf' with
      | cons hab' hrest' => rw [Option.some.inj (hab.symm.trans hab'), ih hrest']

/-- The entries of a list that pass a test are those of the slots whose values pass it. -/
theorem filter (h : Lists r s f l) (q : β → Bool) :
    Lists r (fun a => s a ∧ ∃ b, f a = some b ∧ q b = true) f (l.filter q) := by
  obtain ⟨slots, hp, hmem, hf⟩ := h
  refine ⟨slots.filter fun a => (f a).any q, hp.filter _, fun a => ?_, ?_⟩
  · rw [List.mem_filter, hmem, Option.any_eq_true]
  · clear hp hmem
    induction hf with
    | nil => exact .nil
    | @cons a b slots l hab _ ih =>
        rw [List.filter_cons, List.filter_cons, hab, Option.any_some]
        split
        · exact .cons hab ih
        · exact ih

end Lists

end Strkd
