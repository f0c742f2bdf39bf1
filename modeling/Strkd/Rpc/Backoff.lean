import Mathlib

/-!
# The delay after wrong passphrases

Instants and durations are in nanoseconds.
-/

namespace Strkd.Rpc

structure PassphraseBackoff where
  failures : BitVec 32 := 0
  blockedUntil : Option ℕ := none
  deriving DecidableEq, Repr

namespace PassphraseBackoff

/-- Wrong passphrases allowed before any delay. -/
def freeAttempts : ℕ := 3

/-- Delay after the first miss beyond the free ones. -/
def baseDelay : ℕ := 5 * 10 ^ 9

/-- Longest single delay. -/
def maxDelay : ℕ := 300 * 10 ^ 9

/-- The time left to wait, while a delay is in force. -/
def check (b : PassphraseBackoff) (now : ℕ) : Option ℕ :=
  match b.blockedUntil with
  | some t => if now < t then some (t - now) else none
  | none => none

/-- Count a wrong passphrase and start the next delay, if one is due. -/
def recordFailure (b : PassphraseBackoff) (now : ℕ) : PassphraseBackoff :=
  let failures := min (b.failures.toNat + 1) (2 ^ 32 - 1)
  if freeAttempts < failures then
    let doublings := min (failures - freeAttempts - 1) 16
    let delay := min (baseDelay * 2 ^ doublings) maxDelay
    ⟨BitVec.ofNat 32 failures, some (now + delay)⟩
  else ⟨BitVec.ofNat 32 failures, b.blockedUntil⟩

/-- A right passphrase clears the history. -/
def recordSuccess : PassphraseBackoff := {}

/-! ## A history of guesses -/

/-- Count a guess: the instant it was made at, and whether it was right. -/
def count (b : PassphraseBackoff) : ℕ × Bool → PassphraseBackoff
  | (_, true) => recordSuccess
  | (t, false) => b.recordFailure t

/-- The delay in force after a history of guesses, oldest first. -/
def after (guesses : List (ℕ × Bool)) : PassphraseBackoff := guesses.foldl count {}

theorem after_append (guesses : List (ℕ × Bool)) (g : ℕ × Bool) :
    after (guesses ++ [g]) = (after guesses).count g := by
  unfold after
  rw [List.foldl_append]
  rfl

theorem check_eq_none {b : PassphraseBackoff} {now : ℕ} :
    b.check now = none ↔ ∀ t, b.blockedUntil = some t → t ≤ now := by
  unfold check
  cases b.blockedUntil with
  | none => simp
  | some t =>
      simp only [Option.some.injEq, forall_eq']
      split_ifs with h
      · simp only [false_iff]
        omega
      · simp only [true_iff]
        omega

theorem check_mono {b : PassphraseBackoff} {now now' : ℕ} (h : b.check now = none)
    (hle : now ≤ now') : b.check now' = none :=
  check_eq_none.2 fun t ht => (check_eq_none.1 h t ht).trans hle

/-- `b` counts the same guesses as `v`, some of them at later instants. -/
structure Covers (b v : PassphraseBackoff) : Prop where
  failures : b.failures = v.failures
  later : ∀ t, v.blockedUntil = some t → ∃ t', b.blockedUntil = some t' ∧ t ≤ t'

theorem Covers.refl (b : PassphraseBackoff) : Covers b b := ⟨rfl, fun t h => ⟨t, h, le_refl t⟩⟩

theorem Covers.check {b v : PassphraseBackoff} (h : Covers b v) {now : ℕ}
    (hb : b.check now = none) : v.check now = none := by
  refine check_eq_none.2 fun t ht => ?_
  obtain ⟨t', ht', hle⟩ := h.later t ht
  exact hle.trans (check_eq_none.1 hb t' ht')

theorem Covers.recordFailure {b v : PassphraseBackoff} (h : Covers b v) {t t' : ℕ} (hle : t ≤ t') :
    Covers (b.recordFailure t') (v.recordFailure t) := by
  unfold PassphraseBackoff.recordFailure
  simp only [h.failures]
  split_ifs
  · refine ⟨rfl, fun s hs => ⟨_, rfl, ?_⟩⟩
    rw [← Option.some.inj hs]
    exact Nat.add_le_add_right hle _
  · exact ⟨rfl, h.later⟩

/-! ## Misses in a row -/

/-- The delay `n` misses lead to. -/
def delayOf (n : ℕ) : ℕ := min (baseDelay * 2 ^ min (n - freeAttempts - 1) 16) maxDelay

theorem recordFailure_failures (b : PassphraseBackoff) (t : ℕ) :
    (b.recordFailure t).failures.toNat = min (b.failures.toNat + 1) (2 ^ 32 - 1) := by
  unfold recordFailure
  dsimp only
  split_ifs <;> simp only [BitVec.toNat_ofNat] <;> omega

theorem recordFailure_blockedUntil {b : PassphraseBackoff} {t : ℕ}
    (h : freeAttempts < (b.recordFailure t).failures.toNat) :
    (b.recordFailure t).blockedUntil = some (t + delayOf (b.recordFailure t).failures.toNat) := by
  rw [recordFailure_failures] at h ⊢
  unfold recordFailure delayOf
  dsimp only
  rw [if_pos h]

theorem foldl_misses_failures (b : PassphraseBackoff) {misses : List (ℕ × Bool)}
    (h : ∀ g ∈ misses, g.2 = false) :
    (misses.foldl count b).failures.toNat = min (b.failures.toNat + misses.length) (2 ^ 32 - 1) := by
  induction misses generalizing b with
  | nil =>
      have := b.failures.isLt
      simp only [List.foldl_nil, List.length_nil]
      omega
  | cons g rest ih =>
      obtain ⟨t, right⟩ := g
      obtain rfl : right = false := h (t, right) List.mem_cons_self
      rw [List.foldl_cons, ih _ fun g hg => h g (List.mem_cons_of_mem _ hg)]
      simp only [count, recordFailure_failures, List.length_cons]
      omega

theorem delayOf_le {k n : ℕ} (hk : freeAttempts < k) (hn : min k (2 ^ 32 - 1) ≤ n) :
    min (baseDelay * 2 ^ (k - 4)) maxDelay ≤ delayOf n := by
  unfold delayOf freeAttempts at *
  by_cases hbig : 16 ≤ n - 3 - 1
  · rw [Nat.min_eq_right hbig]
    have : maxDelay ≤ baseDelay * 2 ^ 16 := by decide
    omega
  · have hle : k - 4 ≤ min (n - 3 - 1) 16 := by omega
    have hpow := Nat.mul_le_mul_left baseDelay (Nat.pow_le_pow_right (n := 2) (by omega) hle)
    omega

/-- After more misses in a row than are free the next guess has to wait. -/
theorem le_of_misses {guesses misses : List (ℕ × Bool)} {last : ℕ × Bool} {t : ℕ}
    (hm : ∀ g ∈ misses ++ [last], g.2 = false) (hk : freeAttempts < (misses ++ [last]).length)
    (h : (after (guesses ++ (misses ++ [last]))).check t = none) :
    last.1 + min (baseDelay * 2 ^ ((misses ++ [last]).length - 4)) maxDelay ≤ t := by
  have hall := foldl_misses_failures (after guesses) hm
  obtain ⟨t₀, right⟩ := last
  obtain rfl : right = false := hm (t₀, right) (List.mem_append_right _ List.mem_cons_self)
  have hafter : after (guesses ++ (misses ++ [(t₀, false)])) =
      (after (guesses ++ misses)).recordFailure t₀ := by
    rw [← List.append_assoc, after_append]
    rfl
  have hfold : (misses ++ [(t₀, false)]).foldl count (after guesses) =
      (after (guesses ++ misses)).recordFailure t₀ := by
    rw [← hafter]
    exact (List.foldl_append (f := count) (b := {}) (l := guesses)).symm
  rw [hfold] at hall
  rw [hafter] at h
  have hfree : freeAttempts < ((after (guesses ++ misses)).recordFailure t₀).failures.toNat := by
    rw [hall]
    unfold freeAttempts at *
    omega
  have hblocked := check_eq_none.1 h _ (recordFailure_blockedUntil hfree)
  have hdelay := delayOf_le hk (n := ((after (guesses ++ misses)).recordFailure t₀).failures.toNat)
    (by omega)
  omega

end PassphraseBackoff

end Strkd.Rpc
