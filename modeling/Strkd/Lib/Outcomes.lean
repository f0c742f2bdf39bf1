import Strkd.Lib.Prog

/-!
# What a computation can end with

`Outcomes m` reads the computations of a monad as relations: `ends x a` says that `x` can end with
`a`.  Facts about code written for every monad are proved once, from the rules for `pure` and
`bind`, and hold in each reading: of a state monad (`Outcomes.state`) and of a program whose answers
obey a rule (`Outcomes.prog`).
-/

namespace Strkd

/-- A reading of the computations of a monad as relations. -/
structure Outcomes (m : Type → Type) [Monad m] where
  ends : {α : Type} → m α → α → Prop
  ends_pure : ∀ {α : Type} {a b : α}, ends (pure a) b → b = a
  ends_bind : ∀ {α β : Type} {x : m α} {f : α → m β} {b : β}, ends (x >>= f) b →
    ∃ a, ends x a ∧ ends (f a) b

namespace Outcomes

/-- A computation that is its result. -/
def value : Outcomes Id where
  ends x a := x.run = a
  ends_pure := Eq.symm
  ends_bind := fun {_ _ x _ _} h => ⟨x.run, rfl, h⟩

/-- A state monad, from any state. -/
def state (σ : Type) : Outcomes (StateM σ) where
  ends x a := ∃ s, (x.run s).1 = a
  ends_pure := fun ⟨_, h⟩ => h.symm
  ends_bind := fun {_ _ x _ _} ⟨s, h⟩ => ⟨(x.run s).1, ⟨s, rfl⟩, (x.run s).2, h⟩

section

variable {Op : Type} {Ans : Op → Type}

/-- `p` can end with `b` when every operation is answered by `legal`. -/
def progEnds (legal : (op : Op) → Ans op → Prop) {α : Type} : Prog Op Ans α → α → Prop
  | .pure a, b => b = a
  | .step op next, b => ∃ ans, legal op ans ∧ progEnds legal (next ans) b

theorem progEnds_bind {legal : (op : Op) → Ans op → Prop} {α β : Type} {p : Prog Op Ans α}
    {f : α → Prog Op Ans β} {b : β} (h : progEnds legal (p.bind f) b) :
    ∃ a, progEnds legal p a ∧ progEnds legal (f a) b := by
  induction p with
  | pure a => exact ⟨a, rfl, h⟩
  | step op next ih =>
      obtain ⟨ans, hans, h⟩ := h
      obtain ⟨a, ha, hb⟩ := ih ans h
      exact ⟨a, ⟨ans, hans, ha⟩, hb⟩

/-- Programs whose operations are answered by `legal`. -/
def prog (legal : (op : Op) → Ans op → Prop) : Outcomes (Prog Op Ans) where
  ends := progEnds legal
  ends_pure := fun h => h
  ends_bind := progEnds_bind

/-- A safe program ends with something it can end with. -/
theorem safe_progEnds {R : Rules Op Ans} {legal : (op : Op) → Ans op → Prop}
    (hlegal : ∀ tr op a, R.legal tr op a → legal op a) {α : Type} {p : Prog Op Ans α}
    {tr : List (Event Op Ans)} {Q : List (Event Op Ans) → α → Prop} (h : Safe R tr p Q) :
    Safe R tr p fun tr' a => Q tr' a ∧ progEnds legal p a := by
  induction p generalizing tr with
  | pure a => exact ⟨h, rfl⟩
  | step op next ih =>
      refine ⟨h.1, fun a ha => (ih a (h.2 a ha)).mono fun tr' b _ hb => ?_⟩
      exact ⟨hb.1, a, hlegal tr op a ha, hb.2⟩

end

/-! ## Computations that can fail -/

variable {m : Type → Type} [Monad m] {ε α β : Type} (O : Outcomes m)

/-- `x` can end with the value `a`. -/
def Gives (x : ExceptT ε m α) (a : α) : Prop := O.ends x.run (.ok a)

variable {O}

theorem Gives.pure {a b : α} (h : O.Gives (Pure.pure a : ExceptT ε m α) b) : b = a :=
  Except.ok.inj (O.ends_pure h)

theorem Gives.bind {x : ExceptT ε m α} {f : α → ExceptT ε m β} {b : β} (h : O.Gives (x >>= f) b) :
    ∃ a, O.Gives x a ∧ O.Gives (f a) b := by
  obtain ⟨r, hr, h⟩ := O.ends_bind (x := x.run) h
  cases r with
  | ok a => exact ⟨a, hr, h⟩
  | error e => exact absurd (O.ends_pure h) (by simp)

theorem Gives.throw {e : ε} {a : α} (h : O.Gives (throw e : ExceptT ε m α) a) : False := by
  have := O.ends_pure h
  cases this

theorem Gives.lift {r : Except ε α} {a : α} (h : O.Gives (liftM r : ExceptT ε m α) a) :
    r = .ok a := (O.ends_pure h).symm

/-- `if c then throw e; rest` -/
theorem Gives.refuse {c : Prop} [Decidable c] {e : ε} {x : ExceptT ε m α} {a : α}
    (h : O.Gives (if c then MonadExcept.throw e >>= fun _ : PUnit => x else x) a) :
    ¬ c ∧ O.Gives x a := by
  split at h
  · obtain ⟨_, h, -⟩ := h.bind
    exact h.throw.elim
  · exact ⟨‹_›, h⟩

end Outcomes

end Strkd
