import Mathlib

/-!
# The end of a list

The last `n` entries of a list, as a bounded log keeps them: appending to what was kept keeps the
same entries as appending to the whole.
-/

namespace Strkd

variable {α β : Type} {n : ℕ} {l : List α}

/-- The last `n` entries, or all if there are fewer. -/
def lastN (n : ℕ) (l : List α) : List α := l.drop (l.length - n)

@[simp] theorem lastN_nil : lastN n ([] : List α) = [] := List.drop_nil

theorem length_lastN (n : ℕ) (l : List α) : (lastN n l).length = min n l.length := by
  rw [lastN, List.length_drop]
  omega

theorem lastN_suffix (n : ℕ) (l : List α) : lastN n l <:+ l := List.drop_suffix _ _

theorem map_lastN (f : α → β) (n : ℕ) (l : List α) : (lastN n l).map f = lastN n (l.map f) := by
  rw [lastN, lastN, List.map_drop, List.length_map]

theorem lastN_append (n : ℕ) (l m : List α) : lastN n (lastN n l ++ m) = lastN n (l ++ m) := by
  have hdrop : lastN n l ++ m = (l ++ m).drop (l.length - n) := by
    rw [lastN, List.drop_append_of_le_length (Nat.sub_le _ _)]
  rw [lastN, hdrop, List.drop_drop, lastN, List.length_drop, List.length_append]
  congr 1
  omega

theorem getLast?_lastN (hn : 0 < n) (l : List α) : (lastN n l).getLast? = l.getLast? := by
  cases l using List.reverseRecOn with
  | nil => rw [lastN_nil]
  | append_singleton l a =>
      have hlt : (l ++ [a]).length - n ≤ l.length := by
        rw [List.length_append, List.length_singleton]
        omega
      rw [lastN, List.drop_append_of_le_length hlt, List.getLast?_concat, List.getLast?_concat]

end Strkd
