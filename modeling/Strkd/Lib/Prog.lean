import Mathlib

/-!
# Programs that perform operations

A program is a tree of operations and what follows each answer.  `Safe` says of a program, after a
given history, that every operation it comes to perform is allowed by a rule book and that its
result satisfies a postcondition, whatever answers the rule book calls legal.
-/

namespace Strkd

/-- A program performing operations of `Op`, each answered by a value of `Ans op`. -/
inductive Prog (Op : Type) (Ans : Op → Type) (α : Type) : Type where
  | pure (a : α)
  | step (op : Op) (next : Ans op → Prog Op Ans α)

/-- An operation with its answer. -/
abbrev Event (Op : Type) (Ans : Op → Type) := (op : Op) × Ans op

section

variable {Op : Type} {Ans : Op → Type} {α β : Type}

namespace Prog

def bind (p : Prog Op Ans α) (f : α → Prog Op Ans β) : Prog Op Ans β :=
  match p with
  | pure a => f a
  | step op next => step op fun a => (next a).bind f

instance : Monad (Prog Op Ans) where
  pure := pure
  bind := bind

/-- Perform one operation and return its answer. -/
def perform (op : Op) : Prog Op Ans (Ans op) := step op pure

theorem bind_pure' (p : Prog Op Ans α) : p.bind pure = p := by
  induction p with
  | pure a => rfl
  | step op next ih => exact congrArg (step op) (funext ih)

theorem bind_assoc' {γ : Type} (p : Prog Op Ans α) (f : α → Prog Op Ans β)
    (g : β → Prog Op Ans γ) : (p.bind f).bind g = p.bind fun a => (f a).bind g := by
  induction p with
  | pure a => rfl
  | step op next ih => exact congrArg (step op) (funext ih)

instance : LawfulMonad (Prog Op Ans) :=
  LawfulMonad.mk' (Prog Op Ans) bind_pure' (fun _ _ => rfl) bind_assoc'

end Prog

/-! ## Rule books -/

/-- What a program may do after a history, and which answers it may count on. -/
structure Rules (Op : Type) (Ans : Op → Type) where
  allows : List (Event Op Ans) → Op → Prop
  legal : List (Event Op Ans) → (op : Op) → Ans op → Prop

variable {R : Rules Op Ans} {tr : List (Event Op Ans)}

/-- From history `tr`, `p` performs only what `R` allows and ends in `Q`. -/
def Safe (R : Rules Op Ans) (tr : List (Event Op Ans)) :
    Prog Op Ans α → (List (Event Op Ans) → α → Prop) → Prop
  | .pure a, Q => Q tr a
  | .step op next, Q =>
      R.allows tr op ∧ ∀ a, R.legal tr op a → Safe R (tr ++ [⟨op, a⟩]) (next a) Q

theorem Safe.mono {p : Prog Op Ans α} {Q Q' : List (Event Op Ans) → α → Prop} (h : Safe R tr p Q)
    (hQ : ∀ tr' a, tr <+: tr' → Q tr' a → Q' tr' a) : Safe R tr p Q' := by
  induction p generalizing tr with
  | pure a => exact hQ tr a (List.prefix_refl tr) h
  | step op next ih =>
      refine ⟨h.1, fun a ha => ih a (h.2 a ha) fun tr' b htr => hQ tr' b ?_⟩
      exact (List.prefix_append tr _).trans htr

theorem Safe.bind {p : Prog Op Ans α} {f : α → Prog Op Ans β}
    {Q : List (Event Op Ans) → α → Prop} {S : List (Event Op Ans) → β → Prop}
    (h : Safe R tr p Q) (hf : ∀ tr' a, tr <+: tr' → Q tr' a → Safe R tr' (f a) S) :
    Safe R tr (p.bind f) S := by
  induction p generalizing tr with
  | pure a => exact hf tr a (List.prefix_refl tr) h
  | step op next ih =>
      refine ⟨h.1, fun a ha => ih a (h.2 a ha) fun tr' b htr => hf tr' b ?_⟩
      exact (List.prefix_append tr _).trans htr

/-! ## Programs confined to some operations -/

/-- Every operation `p` can come to perform satisfies `P`, whatever the answers. -/
def Only (P : Op → Prop) : Prog Op Ans α → Prop
  | .pure _ => True
  | .step op next => P op ∧ ∀ a, Only P (next a)

theorem Only.bind {P : Op → Prop} {p : Prog Op Ans α} {f : α → Prog Op Ans β} (h : Only P p)
    (hf : ∀ a, Only P (f a)) : Only P (p.bind f) := by
  induction p with
  | pure a => exact hf a
  | step op next ih => exact ⟨h.1, fun a => ih a (h.2 a)⟩

theorem Only.mono {P P' : Op → Prop} {p : Prog Op Ans α} (h : Only P p)
    (hP : ∀ op, P op → P' op) : Only P' p := by
  induction p with
  | pure a => trivial
  | step op next ih => exact ⟨hP op h.1, fun a => ih a (h.2 a)⟩

/-- A program confined to operations that a property of the history allows and that keep it. -/
theorem Only.safe {P : Op → Prop} {I : List (Event Op Ans) → Prop} {p : Prog Op Ans α}
    (h : Only P p) (hallow : ∀ tr op, I tr → P op → R.allows tr op)
    (hkeep : ∀ tr op a, I tr → P op → I (tr ++ [⟨op, a⟩])) (h0 : I tr) :
    Safe R tr p fun tr' _ => I tr' := by
  induction p generalizing tr with
  | pure a => exact h0
  | step op next ih =>
      exact ⟨hallow tr op h0 h.1, fun a _ => ih a (h.2 a) (hkeep tr op a h0 h.1)⟩

end

/-! ## Programs that can fail -/

/-- A program that may end early with an error. -/
abbrev Handler (ε : Type) (Op : Type) (Ans : Op → Type) := ExceptT ε (Prog Op Ans)

section

variable {Op : Type} {Ans : Op → Type} {ε α β : Type}
variable {R : Rules Op Ans} {tr : List (Event Op Ans)}

/-- What a result satisfies: `Q` for a value, `E` for an error. -/
def Ends (Q : List (Event Op Ans) → α → Prop) (E : List (Event Op Ans) → ε → Prop)
    (tr : List (Event Op Ans)) : Except ε α → Prop
  | .ok a => Q tr a
  | .error e => E tr e

/-- From history `tr`, the handler performs only what `R` allows and its result satisfies `Q` or,
for an error, `E`. -/
def Serves (R : Rules Op Ans) (tr : List (Event Op Ans)) (m : Handler ε Op Ans α)
    (Q : List (Event Op Ans) → α → Prop) (E : List (Event Op Ans) → ε → Prop) : Prop :=
  Safe R tr m.run (Ends Q E)

variable {Q : List (Event Op Ans) → α → Prop} {Q' : List (Event Op Ans) → β → Prop}
variable {E : List (Event Op Ans) → ε → Prop}

theorem serves_pure {a : α} (h : Q tr a) : Serves R tr (pure a : Handler ε Op Ans α) Q E := h

theorem serves_throw {e : ε} (h : E tr e) : Serves R tr (throw e : Handler ε Op Ans α) Q E := h

theorem Serves.bind {m : Handler ε Op Ans α} {f : α → Handler ε Op Ans β} (h : Serves R tr m Q E)
    (hf : ∀ tr' a, tr <+: tr' → Q tr' a → Serves R tr' (f a) Q' E) :
    Serves R tr (m >>= f) Q' E := by
  refine Safe.bind (p := m.run) h fun tr' r htr hr => ?_
  cases r with
  | ok a => exact hf tr' a htr hr
  | error e => exact hr

theorem Serves.mono {m : Handler ε Op Ans α} {P : List (Event Op Ans) → α → Prop}
    (h : Serves R tr m P E) (hQ : ∀ tr' a, tr <+: tr' → P tr' a → Q tr' a) :
    Serves R tr m Q E := by
  refine Safe.mono h fun tr' r htr hr => ?_
  cases r with
  | ok a => exact hQ tr' a htr hr
  | error e => exact hr

/-- Weaken what a result satisfies. -/
theorem Serves.weaken {m : Handler ε Op Ans α} {P : List (Event Op Ans) → α → Prop}
    {F : List (Event Op Ans) → ε → Prop} (h : Serves R tr m P F)
    (hQ : ∀ tr' a, tr <+: tr' → P tr' a → Q tr' a) (hE : ∀ tr' e, tr <+: tr' → F tr' e → E tr' e) :
    Serves R tr m Q E := by
  refine Safe.mono h fun tr' r htr hr => ?_
  cases r with
  | ok a => exact hQ tr' a htr hr
  | error e => exact hE tr' e htr hr

theorem serves_lift {e : Except ε α} (hok : ∀ a, e = .ok a → Q tr a)
    (herr : ∀ x, e = .error x → E tr x) : Serves R tr (liftM e : Handler ε Op Ans α) Q E := by
  cases e with
  | ok a => exact hok a rfl
  | error x => exact herr x rfl

/-- Translate the error of a program that can fail. -/
def mapErr {ε' : Type} (f : ε → ε') (m : Handler ε Op Ans α) : Handler ε' Op Ans α :=
  ExceptT.mk (m.run.bind fun r => pure (r.mapError f))

theorem Serves.mapErr {ε' : Type} {f : ε → ε'} {m : Handler ε Op Ans α}
    {E' : List (Event Op Ans) → ε' → Prop} (h : Serves R tr m Q fun tr' e => E' tr' (f e)) :
    Serves R tr (mapErr f m) Q E' := by
  refine Safe.bind (p := m.run) h fun tr' r _ hr => ?_
  cases r with
  | ok a => exact hr
  | error e => exact hr

/-! ## Confined programs that can fail -/

/-- Every operation the handler can come to perform satisfies `P`. -/
def Confined (P : Op → Prop) (m : Handler ε Op Ans α) : Prop := Only P m.run

namespace Confined

variable {P : Op → Prop} {m : Handler ε Op Ans α}

theorem pure (a : α) : Confined P (Pure.pure a : Handler ε Op Ans α) := trivial

theorem throw (e : ε) : Confined P (throw e : Handler ε Op Ans α) := trivial

theorem bind {f : α → Handler ε Op Ans β} (h : Confined P m) (hf : ∀ a, Confined P (f a)) :
    Confined P (m >>= f) := by
  refine Only.bind (p := m.run) h fun r => ?_
  cases r with
  | ok a => exact hf a
  | error e => trivial

/-- A branch that leaves early, then the rest. -/
theorem exit {p : Prop} [Decidable p] {leave : Handler ε Op Ans Unit}
    {f : Unit → Handler ε Op Ans β} (hleave : Confined P leave) (hf : ∀ u, Confined P (f u)) :
    Confined P (if p then leave >>= f else f ()) := by
  by_cases hp : p
  · rw [if_pos hp]
    exact hleave.bind hf
  · rw [if_neg hp]
    exact hf ()

theorem lift (e : Except ε α) : Confined P (liftM e : Handler ε Op Ans α) := by
  cases e with
  | ok a => trivial
  | error x => trivial

theorem mapErr {ε' : Type} {f : ε → ε'} (h : Confined P m) :
    Confined P (mapErr f m) :=
  Only.bind (p := m.run) h fun _ => trivial

theorem attempt {ε' : Type} (h : Confined P m) :
    Confined P (ExceptT.lift m.run : Handler ε' Op Ans (Except ε α)) :=
  Only.bind (p := m.run) h fun _ => trivial

theorem serves {I : List (Event Op Ans) → Prop} (h : Confined P m)
    (hallow : ∀ tr op, I tr → P op → R.allows tr op)
    (hkeep : ∀ tr op a, I tr → P op → I (tr ++ [⟨op, a⟩])) (h0 : I tr) :
    Serves R tr m (fun tr' _ => I tr') fun tr' _ => I tr' := by
  refine Safe.mono (Only.safe h hallow hkeep h0) fun tr' r _ hr => ?_
  cases r with
  | ok a => exact hr
  | error e => exact hr

end Confined

/-- First an operation, then the rest. -/
theorem Serves.act {op : Op} {f : Ans op → Handler ε Op Ans β} (hop : R.allows tr op)
    (hf : ∀ a, R.legal tr op a → Serves R (tr ++ [⟨op, a⟩]) (f a) Q' E) :
    Serves R tr (ExceptT.lift (Prog.perform op) >>= f) Q' E :=
  ⟨hop, fun a ha => hf a ha⟩

/-- `if p then throw e; rest` -/
theorem Serves.refuse {p : Prop} [Decidable p] {e : ε} {f : Unit → Handler ε Op Ans β}
    (hp : p → E tr e) (hf : ¬ p → Serves R tr (f ()) Q' E) :
    Serves R tr (if p then MonadExcept.throw e >>= f else f ()) Q' E := by
  by_cases hc : p
  · rw [if_pos hc]
    exact serves_throw (hp hc)
  · rw [if_neg hc]
    exact hf hc

/-- First a computation whose failure is caught, then the rest with its result. -/
theorem Serves.attempt {ε' : Type} {m : Handler ε' Op Ans α} {E' : List (Event Op Ans) → ε' → Prop}
    {f : Except ε' α → Handler ε Op Ans β} (h : Serves R tr m Q E')
    (hf : ∀ tr' r, tr <+: tr' → Ends Q E' tr' r → Serves R tr' (f r) Q' E) :
    Serves R tr (ExceptT.lift m.run >>= f) Q' E := by
  refine Safe.bind (Safe.bind (p := m.run) (S := fun tr' r => ∃ r', r = .ok r' ∧ Ends Q E' tr' r')
    h fun tr' r _ hr => ⟨r, rfl, hr⟩) ?_
  rintro tr' r htr ⟨r', rfl, hr⟩
  exact hf tr' r' htr hr

end

end Strkd
