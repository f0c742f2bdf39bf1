import Mathlib

/-!
# Consecutive machine words

A counter that is read and incremented `n` times in `w`-bit arithmetic hands out
`consecutive w start n`.  As natural numbers these are `start, …, start + n - 1`, with no gap and no
repeat, exactly when the counter does not wrap before the last of them.
-/

namespace Strkd

/-- The words a wrapping counter hands out from `start`. -/
def consecutive (w start n : ℕ) : List (BitVec w) := (List.range' start n).map (BitVec.ofNat w)

@[simp] theorem length_consecutive (w start n : ℕ) : (consecutive w start n).length = n := by
  simp [consecutive]

theorem consecutive_succ (w start n : ℕ) :
    consecutive w start (n + 1) = consecutive w start n ++ [BitVec.ofNat w (start + n)] := by
  unfold consecutive
  rw [List.range'_concat, List.map_append, Nat.one_mul]
  rfl

/-- The counter does not wrap if and only if its words are consecutive numbers. -/
theorem map_toNat_consecutive_iff (w start n : ℕ) :
    (consecutive w start n).map BitVec.toNat = List.range' start n ↔
      (n ≠ 0 → start + n ≤ 2 ^ w) := by
  have hmap : (consecutive w start n).map BitVec.toNat =
      (List.range' start n).map fun i => i % 2 ^ w := by
    unfold consecutive
    rw [List.map_map]
    exact List.map_congr_left fun i _ => BitVec.toNat_ofNat i w
  rw [hmap]
  constructor
  · intro h hn
    have hlast : start + (n - 1) ∈ List.range' start n :=
      List.mem_range'_1.2 ⟨Nat.le_add_right _ _, by omega⟩
    rw [← h] at hlast
    obtain ⟨i, -, hi⟩ := List.mem_map.1 hlast
    have := Nat.mod_lt i (Nat.two_pow_pos w)
    omega
  · intro h
    conv_rhs => rw [← List.map_id (List.range' start n)]
    refine List.map_congr_left fun i hi => Nat.mod_eq_of_lt ?_
    have hi := List.mem_range'_1.1 hi
    have := h (by omega)
    omega

end Strkd
