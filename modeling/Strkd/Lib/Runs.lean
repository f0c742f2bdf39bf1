import Strkd.Lib.Prog

/-!
# Runs of one program

The operations a program performs, one after the other, with the answers it is given.
-/

namespace Strkd

variable {Op : Type} {Ans : Op → Type} {α : Type}

/-- `p` can perform the operations of `tr`, with their answers, and be left with `q`. -/
inductive Follows : Prog Op Ans α → List (Event Op Ans) → Prog Op Ans α → Prop where
  | refl (p : Prog Op Ans α) : Follows p [] p
  | step {op : Op} {next : Ans op → Prog Op Ans α} {a : Ans op} {tr : List (Event Op Ans)}
      {q : Prog Op Ans α} (h : Follows (next a) tr q) : Follows (.step op next) (⟨op, a⟩ :: tr) q

/-- `tr` is the beginning of a run of `p`. -/
def Performs (p : Prog Op Ans α) (tr : List (Event Op Ans)) : Prop := ∃ q, Follows p tr q

/-- Whatever a safe program performs on legal answers was allowed after what it had performed. -/
theorem Safe.allows_of_performs {R : Rules Op Ans} {tr₀ : List (Event Op Ans)}
    {p : Prog Op Ans α} {Q : List (Event Op Ans) → α → Prop} (h : Safe R tr₀ p Q)
    {tr : List (Event Op Ans)} (hlegal : ∀ e ∈ tr, ∀ tr', R.legal tr' e.1 e.2)
    (htr : Performs p tr) {before after : List (Event Op Ans)} {e : Event Op Ans}
    (heq : tr = before ++ e :: after) : R.allows (tr₀ ++ before) e.1 := by
  obtain ⟨q, htr⟩ := htr
  induction htr generalizing tr₀ before with
  | refl p => simp at heq
  | @step op next a tr q _ ih =>
      obtain ⟨hhead, htail⟩ := List.forall_mem_cons.1 hlegal
      cases before with
      | nil =>
          obtain ⟨rfl, -⟩ := List.cons.inj heq
          simpa using h.1
      | cons e' before =>
          obtain ⟨rfl, hrest⟩ := List.cons.inj heq
          simpa using ih (h.2 a (hhead _)) htail hrest

/-- What is left of a safe program after some of its operations is safe. -/
theorem Safe.of_follows {R : Rules Op Ans} {tr₀ : List (Event Op Ans)} {p q : Prog Op Ans α}
    {Q : List (Event Op Ans) → α → Prop} (h : Safe R tr₀ p Q)
    (hlegal : ∀ tr op a, R.legal tr op a) {tr : List (Event Op Ans)} (htr : Follows p tr q) :
    Safe R (tr₀ ++ tr) q Q := by
  induction htr generalizing tr₀ with
  | refl p => rwa [List.append_nil]
  | @step op next a tr q _ ih =>
      have := ih (h.2 a (hlegal _ _ _))
      rwa [List.append_assoc] at this

/-- Perform a program's operations with the answers of an oracle, as far as it has any. -/
def replay (oracle : (op : Op) → Option (Ans op)) : Prog Op Ans α → List (Event Op Ans)
  | .pure _ => []
  | .step op next =>
      match oracle op with
      | some a => ⟨op, a⟩ :: replay oracle (next a)
      | none => []

theorem performs_replay (oracle : (op : Op) → Option (Ans op)) (p : Prog Op Ans α) :
    Performs p (replay oracle p) := by
  induction p with
  | pure a => exact ⟨_, .refl _⟩
  | step op next ih =>
      unfold replay
      cases oracle op with
      | none => exact ⟨_, .refl _⟩
      | some a =>
          obtain ⟨q, hq⟩ := ih a
          exact ⟨q, .step hq⟩

/-- What a program ends with when an oracle answers all of its operations. -/
def answered (oracle : (op : Op) → Option (Ans op)) : Prog Op Ans α → Option α
  | .pure a => some a
  | .step op next => (oracle op).bind fun a => answered oracle (next a)

theorem follows_replay {oracle : (op : Op) → Option (Ans op)} {p : Prog Op Ans α} {b : α}
    (h : answered oracle p = some b) : Follows p (replay oracle p) (.pure b) := by
  induction p with
  | pure a =>
      cases h
      exact .refl _
  | step op next ih =>
      obtain ⟨a, ha, h⟩ := Option.bind_eq_some_iff.1 h
      rw [replay, ha]
      exact .step (ih a h)

/-- A run on the oracle's answers is the replay: it ends with what the oracle makes of the program. -/
theorem answered_of_follows {oracle : (op : Op) → Option (Ans op)} {p q : Prog Op Ans α} {b : α}
    {tr : List (Event Op Ans)} (h : Follows p tr q) (hq : q = .pure b)
    (htr : ∀ e ∈ tr, oracle e.1 = some e.2) : answered oracle p = some b := by
  induction h with
  | refl p =>
      rw [hq]
      rfl
  | step _ ih =>
      obtain ⟨hop, htr⟩ := List.forall_mem_cons.1 htr
      rw [answered, hop, Option.bind_some]
      exact ih hq htr

/-- The answers of a replay are the oracle's. -/
theorem forall_mem_replay {oracle : (op : Op) → Option (Ans op)} {P : (op : Op) → Ans op → Prop}
    (h : ∀ op a, oracle op = some a → P op a) (p : Prog Op Ans α) :
    ∀ e ∈ replay oracle p, P e.1 e.2 := by
  induction p with
  | pure a => exact fun e he => absurd he List.not_mem_nil
  | step op next ih =>
      unfold replay
      cases ha : oracle op with
      | none => exact fun e he => absurd he List.not_mem_nil
      | some a => exact List.forall_mem_cons.2 ⟨h op a ha, ih a⟩

/-! ## Complete runs -/

/-- A run of two programs in sequence is a run of the first and then a run of the second. -/
theorem Follows.of_bind {β : Type} {p : Prog Op Ans α} {f : α → Prog Op Ans β}
    {tr : List (Event Op Ans)} {b : β} (h : Follows (p.bind f) tr (.pure b)) :
    ∃ a tr₁ tr₂, tr = tr₁ ++ tr₂ ∧ Follows p tr₁ (.pure a) ∧ Follows (f a) tr₂ (.pure b) := by
  induction p generalizing tr with
  | pure a => exact ⟨a, [], tr, rfl, .refl _, h⟩
  | step op next ih =>
      cases h with
      | step h =>
          obtain ⟨a, tr₁, tr₂, rfl, h₁, h₂⟩ := ih _ h
          exact ⟨a, _ :: tr₁, tr₂, rfl, .step h₁, h₂⟩

theorem Only.of_follows {P : Op → Prop} {p q : Prog Op Ans α} {tr : List (Event Op Ans)}
    (h : Only P p) (htr : Follows p tr q) : ∀ e ∈ tr, P e.1 := by
  induction htr with
  | refl p => exact fun e he => absurd he List.not_mem_nil
  | step _ ih => exact List.forall_mem_cons.2 ⟨h.1, ih (h.2 _)⟩

section

variable {ε β : Type} {m : Handler ε Op Ans α} {f : α → Handler ε Op Ans β}
variable {tr : List (Event Op Ans)}

/-- `m` can perform the operations of `tr`, with their answers, and end with `r`. -/
def Ran (m : Handler ε Op Ans α) (tr : List (Event Op Ans)) (r : Except ε α) : Prop :=
  Follows m.run tr (.pure r)

theorem Ran.bind {r : Except ε β} (h : Ran (m >>= f) tr r) :
    (∃ a tr₁ tr₂, tr = tr₁ ++ tr₂ ∧ Ran m tr₁ (.ok a) ∧ Ran (f a) tr₂ r) ∨
      ∃ e, Ran m tr (.error e) ∧ r = .error e := by
  obtain ⟨r', tr₁, tr₂, rfl, h₁, h₂⟩ := Follows.of_bind (p := m.run) h
  cases r' with
  | ok a => exact .inl ⟨a, tr₁, tr₂, rfl, h₁, h₂⟩
  | error e =>
      cases h₂
      exact .inr ⟨e, by rwa [List.append_nil], rfl⟩

theorem Ran.bind_ok {b : β} (h : Ran (m >>= f) tr (.ok b)) :
    ∃ a tr₁ tr₂, tr = tr₁ ++ tr₂ ∧ Ran m tr₁ (.ok a) ∧ Ran (f a) tr₂ (.ok b) := by
  rcases h.bind with h | ⟨e, -, h⟩
  · exact h
  · cases h

theorem Ran.pure {a : α} {r : Except ε α} (h : Ran (Pure.pure a : Handler ε Op Ans α) tr r) :
    tr = [] ∧ r = .ok a := by
  cases h
  exact ⟨rfl, rfl⟩

theorem Ran.throw {e : ε} {r : Except ε α} (h : Ran (throw e : Handler ε Op Ans α) tr r) :
    tr = [] ∧ r = .error e := by
  cases h
  exact ⟨rfl, rfl⟩

theorem Ran.lift {e r : Except ε α} (h : Ran (liftM e : Handler ε Op Ans α) tr r) :
    tr = [] ∧ r = e := by
  cases h
  exact ⟨rfl, rfl⟩

/-- First an operation, then the rest. -/
theorem Ran.act {op : Op} {f : Ans op → Handler ε Op Ans β} {r : Except ε β}
    (h : Ran (ExceptT.lift (Prog.perform op) >>= f) tr r) :
    ∃ a rest, tr = ⟨op, a⟩ :: rest ∧ Ran (f a) rest r := by
  cases h with
  | step h => exact ⟨_, _, rfl, h⟩

theorem Ran.mapErr_ok {ε' : Type} {f : ε → ε'} {a : α} (h : Ran (mapErr f m) tr (.ok a)) :
    Ran m tr (.ok a) := by
  obtain ⟨r, tr₁, tr₂, rfl, h₁, h₂⟩ := Follows.of_bind (p := m.run) h
  cases r with
  | ok b =>
      cases h₂
      rwa [List.append_nil]
  | error e => cases h₂

theorem Confined.of_ran {P : Op → Prop} {r : Except ε α} (h : Confined P m) (hr : Ran m tr r) :
    ∀ e ∈ tr, P e.1 := Only.of_follows h hr

end

end Strkd
