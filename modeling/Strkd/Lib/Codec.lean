import Mathlib.Data.List.Basic

/-!
# Readers of a stream

A reader takes a value off the front of a list of symbols and leaves the rest.  A format whose
values are read back whatever follows them is a prefix code: values written one after the other, with
or without a count in front, can be told apart.
-/

namespace Strkd

variable {σ α : Type}

/-- Takes a value off the front of a list. -/
abbrev Reader (σ α : Type) := List σ → Option (α × List σ)

/-- `read` gets back every value of `P` that `write` wrote, whatever follows. -/
def Reads (read : Reader σ α) (write : α → List σ) (P : α → Prop) : Prop :=
  ∀ a, P a → ∀ rest, read (write a ++ rest) = some (a, rest)

variable {read : Reader σ α} {write : α → List σ} {P : α → Prop}

/-- Two values in front of anything are the same value in front of the same. -/
theorem Reads.split (h : Reads read write P) {a b : α} (ha : P a) (hb : P b) {r r' : List σ}
    (heq : write a ++ r = write b ++ r') : a = b ∧ r = r' := by
  have hread := h a ha r
  rw [heq, h b hb r'] at hread
  cases hread
  exact ⟨rfl, rfl⟩

theorem Reads.inj (h : Reads read write P) {a b : α} (ha : P a) (hb : P b)
    (heq : write a = write b) : a = b := by
  have happend : write a ++ [] = write b ++ [] := by rw [heq]
  exact (h.split ha hb happend).1

/-! ## One symbol -/

def readOne : Reader σ σ
  | [] => none
  | a :: rest => some (a, rest)

theorem reads_readOne : Reads (readOne : Reader σ σ) (fun a => [a]) fun _ => True :=
  fun _ _ _ => rfl

/-! ## Many values -/

/-- Read `n` values. -/
def readMany (read : Reader σ α) : ℕ → Reader σ (List α)
  | 0, rest => some ([], rest)
  | n + 1, l => do
      let (a, rest) ← read l
      let (as, rest) ← readMany read n rest
      return (a :: as, rest)

theorem Reads.many (h : Reads read write P) {l : List α} (hl : ∀ a ∈ l, P a) (rest : List σ) :
    readMany read l.length (l.flatMap write ++ rest) = some (l, rest) := by
  induction l with
  | nil => rfl
  | cons a l ih =>
      have hhead := h a (hl a List.mem_cons_self) (l.flatMap write ++ rest)
      have htail := ih fun b hb => hl b (List.mem_cons_of_mem a hb)
      rw [List.length_cons, List.flatMap_cons, List.append_assoc]
      simp only [readMany, hhead, htail, Option.bind_eq_bind, Option.bind_some, Option.pure_def]

/-- Values that are written as something can be told apart without a count. -/
theorem Reads.flatMap_injective (h : Reads read write fun _ => True) (hne : ∀ a, write a ≠ []) :
    Function.Injective fun l : List α => l.flatMap write := by
  intro l
  induction l with
  | nil =>
      intro l' heq
      cases l' with
      | nil => rfl
      | cons b l' =>
          have hnil : write b ++ l'.flatMap write = [] := heq.symm
          exact absurd (List.append_eq_nil_iff.1 hnil).1 (hne b)
  | cons a l ih =>
      intro l' heq
      cases l' with
      | nil =>
          have hnil : write a ++ l.flatMap write = [] := heq
          exact absurd (List.append_eq_nil_iff.1 hnil).1 (hne a)
      | cons b l' =>
          obtain ⟨rfl, hrest⟩ := h.split (a := a) (b := b) trivial trivial heq
          rw [ih hrest]

/-! ## Counted values -/

/-- Read a count, and as many values. -/
def readCounted (count : σ → ℕ) (read : Reader σ α) : Reader σ (List α)
  | [] => none
  | n :: rest => readMany read (count n) rest

/-- The values of a list after its length. -/
def writeCounted (mark : ℕ → σ) (write : α → List σ) (l : List α) : List σ :=
  mark l.length :: l.flatMap write

/-- Lists whose length the mark can hold are read back. -/
theorem Reads.counted (h : Reads read write P) {count : σ → ℕ} {mark : ℕ → σ} {bound : ℕ}
    (hcount : ∀ n < bound, count (mark n) = n) :
    Reads (readCounted count read) (writeCounted mark write)
      fun l => l.length < bound ∧ ∀ a ∈ l, P a := by
  rintro l ⟨hlength, hl⟩ rest
  show readMany read (count (mark l.length)) (l.flatMap write ++ rest) = _
  rw [hcount _ hlength]
  exact h.many hl rest

end Strkd
