import Strkd.Lib.Runs

/-!
# Two programs side by side

Two programs are twins when they perform like operations as long as they get like answers.  Runs of
twins that get like answers perform like operations all along.
-/

namespace Strkd

section

variable {Op : Type} {Ans : Op → Type} {α β γ δ : Type}

/-- Which operations of two programs are alike, and which answers to them. -/
structure Likeness (Op : Type) (Ans : Op → Type) where
  op : Op → Op → Prop
  ans : (op₁ : Op) → Ans op₁ → (op₂ : Op) → Ans op₂ → Prop

variable {L : Likeness Op Ans} {Q : α → β → Prop} {Q' : γ → δ → Prop}

/-- `p` and `q` perform like operations as long as they get like answers, and end in `Q`. -/
def Twins (L : Likeness Op Ans) (Q : α → β → Prop) : Prog Op Ans α → Prog Op Ans β → Prop
  | .pure a, .pure b => Q a b
  | .step op₁ next₁, .step op₂ next₂ =>
      L.op op₁ op₂ ∧ ∀ a₁ a₂, L.ans op₁ a₁ op₂ a₂ → Twins L Q (next₁ a₁) (next₂ a₂)
  | _, _ => False

theorem Twins.bind {p : Prog Op Ans α} {q : Prog Op Ans β} {f : α → Prog Op Ans γ}
    {g : β → Prog Op Ans δ} (h : Twins L Q p q) (hf : ∀ a b, Q a b → Twins L Q' (f a) (g b)) :
    Twins L Q' (p.bind f) (q.bind g) := by
  induction p generalizing q with
  | pure a =>
      cases q with
      | pure b => exact hf a b h
      | step op next => exact h.elim
  | step op₁ next₁ ih =>
      cases q with
      | pure b => exact h.elim
      | step op₂ next₂ => exact ⟨h.1, fun a₁ a₂ ha => ih a₁ (h.2 a₁ a₂ ha)⟩

/-- A program is its own twin where its operations are like themselves and like answers to them are
equal. -/
theorem twins_same {P : Op → Prop} {p : Prog Op Ans α} (h : Only P p)
    (hP : ∀ op, P op → L.op op op ∧ ∀ a b, L.ans op a op b → a = b) : Twins L Eq p p := by
  induction p with
  | pure a => exact rfl
  | step op next ih =>
      obtain ⟨hop, hans⟩ := hP op h.1
      refine ⟨hop, fun a₁ a₂ ha => ?_⟩
      rw [hans a₁ a₂ ha]
      exact ih a₂ (h.2 a₂)

/-- Like operations with like answers. -/
def LikeEvents (L : Likeness Op Ans) (e₁ e₂ : Event Op Ans) : Prop :=
  L.op e₁.1 e₂.1 ∧ L.ans e₁.1 e₁.2 e₂.1 e₂.2

/-- Where the operations of two runs are alike, so are the answers to them. -/
def InStep (L : Likeness Op Ans) : List (Event Op Ans) → List (Event Op Ans) → Prop
  | e₁ :: tr₁, e₂ :: tr₂ => (L.op e₁.1 e₂.1 → L.ans e₁.1 e₁.2 e₂.1 e₂.2) ∧ InStep L tr₁ tr₂
  | _, _ => True

theorem inStep_of_mem {tr₁ tr₂ : List (Event Op Ans)}
    (h : ∀ e₁ ∈ tr₁, ∀ e₂ ∈ tr₂, L.op e₁.1 e₂.1 → L.ans e₁.1 e₁.2 e₂.1 e₂.2) :
    InStep L tr₁ tr₂ := by
  induction tr₁ generalizing tr₂ with
  | nil => trivial
  | cons e₁ tr₁ ih =>
      cases tr₂ with
      | nil => trivial
      | cons e₂ tr₂ =>
          exact ⟨h e₁ List.mem_cons_self e₂ List.mem_cons_self, ih fun e he e' he' =>
            h e (List.mem_cons_of_mem _ he) e' (List.mem_cons_of_mem _ he')⟩

/-- Two runs of one length, or two that came to their ends. -/
def StopAlike (tr₁ tr₂ : List (Event Op Ans)) (p : Prog Op Ans α) (q : Prog Op Ans β) : Prop :=
  tr₁.length = tr₂.length ∨ (∃ a, p = .pure a) ∧ ∃ b, q = .pure b

/-- Runs of twins that get like answers perform like operations. -/
theorem Twins.follows {p p' : Prog Op Ans α} {q q' : Prog Op Ans β}
    {tr₁ tr₂ : List (Event Op Ans)} (h : Twins L Q p q) (hp : Follows p tr₁ p')
    (hq : Follows q tr₂ q') (hin : InStep L tr₁ tr₂) (hstop : StopAlike tr₁ tr₂ p' q') :
    List.Forall₂ (LikeEvents L) tr₁ tr₂ ∧ Twins L Q p' q' := by
  induction hp generalizing q tr₂ with
  | refl p =>
      cases hq with
      | refl q => exact ⟨.nil, h⟩
      | step hq =>
          rcases hstop with hlen | ⟨⟨a, rfl⟩, -⟩
          · cases hlen
          · exact h.elim
  | @step op₁ next₁ a₁ tr p' hp ih =>
      cases hq with
      | refl q =>
          rcases hstop with hlen | ⟨-, b, rfl⟩
          · cases hlen
          · exact h.elim
      | @step op₂ next₂ a₂ tr' q' hq =>
          have ha := hin.1 h.1
          have hstop' : StopAlike tr tr' p' q' := hstop.imp_left Nat.succ.inj
          obtain ⟨hall, htwins⟩ := ih (h.2 a₁ a₂ ha) hq hin.2 hstop'
          exact ⟨.cons ⟨h.1, ha⟩ hall, htwins⟩

/-- What like operations agree in, like runs agree in. -/
theorem filterMap_alike {β' γ' : Type} {R : β' → γ' → Prop} {f : Op → Option β'}
    {g : Op → Option γ'} {tr₁ tr₂ : List (Event Op Ans)}
    (hf : ∀ op₁ op₂, L.op op₁ op₂ → Option.Rel R (f op₁) (g op₂))
    (h : List.Forall₂ (LikeEvents L) tr₁ tr₂) :
    List.Forall₂ R (tr₁.filterMap fun e => f e.1) (tr₂.filterMap fun e => g e.1) :=
  List.rel_filterMap (fun _ _ he => hf _ _ he.1) h

end

/-! ## Programs that can fail -/

section

variable {Op : Type} {Ans : Op → Type} {ε ε' α β γ δ : Type}

/-- Both values, that satisfy `Q`, or both errors. -/
def BothEnd (Q : α → β → Prop) : Except ε α → Except ε' β → Prop
  | .ok a, .ok b => Q a b
  | .error _, .error _ => True
  | _, _ => False

theorem bothEnd_self (r : Except ε α) : BothEnd Eq r r := by
  cases r with
  | ok a => exact rfl
  | error e => trivial

theorem BothEnd.bind {Q : α → β → Prop} {Q' : γ → δ → Prop} {r₁ : Except ε α} {r₂ : Except ε' β}
    {f : α → Except ε γ} {g : β → Except ε' δ} (h : BothEnd Q r₁ r₂)
    (hf : ∀ a b, Q a b → BothEnd Q' (f a) (g b)) : BothEnd Q' (r₁ >>= f) (r₂ >>= g) := by
  cases r₁ with
  | ok a =>
      cases r₂ with
      | ok b => exact hf a b h
      | error e => exact h.elim
  | error e =>
      cases r₂ with
      | ok b => exact h.elim
      | error e' => trivial

/-- The two handlers are twins and fail together. -/
def TwinHandlers (L : Likeness Op Ans) (m₁ : Handler ε Op Ans α) (m₂ : Handler ε' Op Ans β)
    (Q : α → β → Prop) : Prop :=
  Twins L (BothEnd Q) m₁.run m₂.run

namespace TwinHandlers

variable {L : Likeness Op Ans} {Q : α → β → Prop} {Q' : γ → δ → Prop}
variable {m₁ : Handler ε Op Ans α} {m₂ : Handler ε' Op Ans β}

theorem pure {a : α} {b : β} (h : Q a b) :
    TwinHandlers L (Pure.pure a : Handler ε Op Ans α) (Pure.pure b : Handler ε' Op Ans β) Q := h

theorem throw {e : ε} {e' : ε'} :
    TwinHandlers L (throw e : Handler ε Op Ans α) (throw e' : Handler ε' Op Ans β) Q := trivial

theorem bind {f : α → Handler ε Op Ans γ} {g : β → Handler ε' Op Ans δ}
    (h : TwinHandlers L m₁ m₂ Q) (hf : ∀ a b, Q a b → TwinHandlers L (f a) (g b) Q') :
    TwinHandlers L (m₁ >>= f) (m₂ >>= g) Q' := by
  refine Twins.bind (p := m₁.run) (q := m₂.run) h fun r₁ r₂ hr => ?_
  cases r₁ with
  | ok a =>
      cases r₂ with
      | ok b => exact hf a b hr
      | error e => exact hr.elim
  | error e =>
      cases r₂ with
      | ok b => exact hr.elim
      | error e' => trivial

theorem lift {r₁ : Except ε α} {r₂ : Except ε' β} (h : BothEnd Q r₁ r₂) :
    TwinHandlers L (liftM r₁ : Handler ε Op Ans α) (liftM r₂ : Handler ε' Op Ans β) Q := by
  cases r₁ with
  | ok a =>
      cases r₂ with
      | ok b => exact h
      | error e => exact h.elim
  | error e =>
      cases r₂ with
      | ok b => exact h.elim
      | error e' => trivial

/-- First like operations, then the rest. -/
theorem act {op₁ op₂ : Op} {f : Ans op₁ → Handler ε Op Ans γ} {g : Ans op₂ → Handler ε' Op Ans δ}
    (hop : L.op op₁ op₂)
    (hf : ∀ a₁ a₂, L.ans op₁ a₁ op₂ a₂ → TwinHandlers L (f a₁) (g a₂) Q') :
    TwinHandlers L (ExceptT.lift (Prog.perform op₁) >>= f) (ExceptT.lift (Prog.perform op₂) >>= g)
      Q' :=
  ⟨hop, hf⟩

/-- Both leave early, or neither. -/
theorem refuse {p₁ p₂ : Prop} [Decidable p₁] [Decidable p₂] {e : ε} {e' : ε'}
    {f : Unit → Handler ε Op Ans γ} {g : Unit → Handler ε' Op Ans δ} (hp : p₁ ↔ p₂)
    (hf : ¬ p₁ → TwinHandlers L (f ()) (g ()) Q') :
    TwinHandlers L (if p₁ then MonadExcept.throw e >>= f else f ())
      (if p₂ then MonadExcept.throw e' >>= g else g ()) Q' := by
  by_cases hc : p₁
  · rw [if_pos hc, if_pos (hp.1 hc)]
    exact throw
  · rw [if_neg hc, if_neg fun h => hc (hp.2 h)]
    exact hf hc

/-- First the same computation, then the rest. -/
theorem same {P : Op → Prop} {m : Handler ε Op Ans α} {f : α → Handler ε Op Ans γ}
    {g : α → Handler ε Op Ans δ} (h : Confined P m)
    (hP : ∀ op, P op → L.op op op ∧ ∀ a b, L.ans op a op b → a = b)
    (hf : ∀ a, TwinHandlers L (f a) (g a) Q') : TwinHandlers L (m >>= f) (m >>= g) Q' := by
  refine Twins.bind (p := m.run) (q := m.run) (twins_same h hP) fun r₁ r₂ hr => ?_
  cases hr
  cases r₁ with
  | ok a => exact hf a
  | error e => trivial

end TwinHandlers

end

/-! ## Oblivious programs -/

section

variable {Op : Type} {Ans : Op → Type} {ε ε' α β : Type}

/-- The computation does the same and ends the same on like answers. -/
def Oblivious (L : Likeness Op Ans) (m : Handler ε Op Ans α) : Prop := Twins L Eq m.run m.run

namespace Oblivious

variable {L : Likeness Op Ans} {m : Handler ε Op Ans α}

theorem pure (a : α) : Oblivious L (Pure.pure a : Handler ε Op Ans α) := rfl

theorem throw (e : ε) : Oblivious L (throw e : Handler ε Op Ans α) := rfl

theorem lift (r : Except ε α) : Oblivious L (liftM r : Handler ε Op Ans α) := by
  cases r with
  | ok a => exact rfl
  | error e => exact rfl

/-- Two computations that end the same, then the rest. -/
theorem seq {m' : Handler ε Op Ans α} {f g : α → Handler ε Op Ans β}
    (h : Twins L Eq m.run m'.run) (hf : ∀ a, Twins L Eq (f a).run (g a).run) :
    Twins L Eq (m >>= f).run (m' >>= g).run := by
  refine Twins.bind (p := m.run) (q := m'.run) h fun r₁ r₂ hr => ?_
  cases hr
  cases r₁ with
  | ok a => exact hf a
  | error e => exact rfl

theorem bind {f : α → Handler ε Op Ans β} (h : Oblivious L m) (hf : ∀ a, Oblivious L (f a)) :
    Oblivious L (m >>= f) :=
  seq h hf

/-- First an operation, then the rest. -/
theorem act {op : Op} {f : Ans op → Handler ε Op Ans β} (hop : L.op op op)
    (hf : ∀ a b, L.ans op a op b → Twins L Eq (f a).run (f b).run) :
    Oblivious L (ExceptT.lift (Prog.perform op) >>= f) :=
  ⟨hop, hf⟩

theorem of_confined {P : Op → Prop} (h : Confined P m)
    (hP : ∀ op, P op → L.op op op ∧ ∀ a b, L.ans op a op b → a = b) : Oblivious L m :=
  twins_same h hP

/-- A branch that leaves early, then the rest. -/
theorem exit {p : Prop} [Decidable p] {leave : Handler ε Op Ans Unit}
    {f : Unit → Handler ε Op Ans β} (hleave : Oblivious L leave) (hf : ∀ u, Oblivious L (f u)) :
    Oblivious L (if p then leave >>= f else f ()) := by
  by_cases hp : p
  · rw [if_pos hp]
    exact hleave.bind hf
  · rw [if_neg hp]
    exact hf ()

theorem mapErr {f : ε → ε'} (h : Oblivious L m) : Oblivious L (mapErr f m) :=
  Twins.bind (p := m.run) (q := m.run) h fun _ _ hr => congrArg _ hr

theorem attempt (h : Oblivious L m) :
    Oblivious L (ExceptT.lift m.run : Handler ε' Op Ans (Except ε α)) :=
  Twins.bind (p := m.run) (q := m.run) h fun _ _ hr => congrArg _ hr

end Oblivious

end

end Strkd
