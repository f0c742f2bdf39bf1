import Mathlib.Algebra.Order.BigOperators.Group.List
import Mathlib.Data.List.NodupEquivFin
import Mathlib.Data.List.Perm.Subperm
import Mathlib.Data.Fintype.Basic

/-!
# The largest entries of a list

Among all ways to take a number of entries out of a list in descending order, taking the first ones
gives the largest sum.
-/

namespace Strkd

section

variable {α : Type} [AddCommMonoid α] [LinearOrder α] [IsOrderedAddMonoid α] [CanonicallyOrderedAdd α]

/-- One entry more of the tail is at most the head. -/
theorem sum_take_succ_le {a : α} {l : List α} (h : (a :: l).Pairwise (· ≥ ·)) (n : ℕ) :
    (l.take (n + 1)).sum ≤ a + (l.take n).sum := by
  rw [List.take_add_one, List.sum_append, add_comm]
  refine add_le_add_left ?_ _
  cases hb : l[n]? with
  | none => exact zero_le
  | some b =>
      rw [Option.toList_some, List.sum_singleton]
      exact (List.pairwise_cons.1 h).1 b (List.mem_of_getElem? hb)

/-- The first entries of a descending list have the largest sum. -/
theorem sum_le_sum_take {l s : List α} (hl : l.Pairwise (· ≥ ·)) (hs : s.Subperm l) :
    s.sum ≤ (l.take s.length).sum := by
  induction l generalizing s with
  | nil =>
      rw [List.subperm_nil.1 hs]
      exact le_rfl
  | cons a l ih =>
      have htail := (List.pairwise_cons.1 hl).2
      by_cases ha : a ∈ s
      · have hperm := List.perm_cons_erase ha
        have hrest : (s.erase a).Subperm l :=
          (List.subperm_cons a).1 ((List.Perm.subperm_right hperm).1 hs)
        rw [hperm.sum_eq, hperm.length_eq, List.sum_cons, List.length_cons, List.take_succ_cons,
          List.sum_cons]
        exact add_le_add_right (ih htail hrest) a
      · -- the head is not taken: what is taken instead is no larger
        have hrest : s.Subperm l := by
          refine List.subperm_ext_iff.2 fun x hx => ?_
          have hne : a ≠ x := fun h => ha (h ▸ hx)
          have hcount := List.subperm_ext_iff.1 hs x hx
          rwa [List.count_cons_of_ne hne] at hcount
        refine (ih htail hrest).trans ?_
        cases hn : s.length with
        | zero => simp
        | succ n =>
            rw [List.take_succ_cons, List.sum_cons]
            exact sum_take_succ_le hl n

end

/-! ## Positions in a list -/

section

variable {α β : Type}

/-- Images taken out of a mapped list, in any order, are the images of entries taken out of it. -/
theorem exists_subperm_map {f : α → β} {l : List α} {s : List β} (h : s.Subperm (l.map f)) :
    ∃ t : List α, t.Subperm l ∧ t.map f = s := by
  obtain ⟨m, hperm, hsub⟩ := h
  obtain ⟨m', hsub', rfl⟩ := List.sublist_map_iff.1 hsub
  have hmap : List.Forall₂ (fun b a => f a = b) (m'.map f) m' := by
    rw [List.forall₂_map_left_iff, List.forall₂_same]
    exact fun _ _ => rfl
  obtain ⟨t, hst, htm⟩ := List.perm_comp_forall₂ hperm.symm hmap
  refine ⟨t, htm.subperm.trans hsub'.subperm, ?_⟩
  clear htm hperm
  induction hst with
  | nil => rfl
  | cons hb _ ih => rw [List.map_cons, hb, ih]

/-- Entries of a list, in any order, are at different positions of it. -/
theorem exists_positions {l l' : List α} (h : l.Subperm l') :
    ∃ places : List (Fin l'.length), places.Nodup ∧ places.map l'.get = l := by
  rw [← List.map_get_finRange l'] at h
  obtain ⟨places, hplaces, rfl⟩ := exists_subperm_map h
  refine ⟨places, ?_, rfl⟩
  obtain ⟨m, hperm, hsub⟩ := hplaces
  exact hperm.nodup_iff.1 (hsub.nodup (List.nodup_finRange _))

/-- The entries at different positions of a list. -/
theorem subperm_of_positions {l : List α} (places : Finset (Fin l.length)) :
    (places.toList.map l.get).Subperm l := by
  have hsub : places.toList.Subperm (List.finRange l.length) :=
    List.subperm_of_subset places.nodup_toList fun i _ => List.mem_finRange i
  obtain ⟨m, hperm, hsub⟩ := hsub
  have hmap := hsub.map l.get
  rw [List.map_get_finRange] at hmap
  exact ⟨m.map l.get, hperm.map l.get, hmap⟩

end

end Strkd
