import Strkd.Lib.Prog

/-!
# Programs that cannot succeed

Under some answers a program has no way to end with a value: on every path it comes to a step that
fails.
-/

namespace Strkd

section

variable {Op : Type} {Ans : Op → Type} {ε ε' α β : Type}

/-- Rules that forbid nothing and only say which answers come. -/
def answeredBy (legal : (op : Op) → Ans op → Prop) : Rules Op Ans := ⟨fun _ _ => True, fun _ => legal⟩

variable {legal : (op : Op) → Ans op → Prop} {tr : List (Event Op Ans)}

theorem safe_answeredBy {Q : List (Event Op Ans) → α → Prop} (hQ : ∀ tr a, Q tr a)
    (p : Prog Op Ans α) : Safe (answeredBy legal) tr p Q := by
  induction p generalizing tr with
  | pure a => exact hQ tr a
  | step op next ih => exact ⟨trivial, fun a _ => ih a⟩

/-- With answers that are legal the computation never ends with a value. -/
def Doomed (legal : (op : Op) → Ans op → Prop) (m : Handler ε Op Ans α) : Prop :=
  ∀ tr, Serves (answeredBy legal) tr m (fun _ _ => False) fun _ _ => True

namespace Doomed

variable {m : Handler ε Op Ans α} {f : α → Handler ε Op Ans β}

theorem throw (e : ε) : Doomed legal (MonadExcept.throw e : Handler ε Op Ans α) := fun _ => trivial

theorem lift_error (e : ε) : Doomed legal (liftM (.error e : Except ε α) : Handler ε Op Ans α) :=
  fun _ => trivial

/-- What comes after a doomed computation does not matter. -/
theorem bind (h : Doomed legal m) (f : α → Handler ε Op Ans β) : Doomed legal (m >>= f) :=
  fun tr => (h tr).bind fun _ _ _ hfalse => hfalse.elim

/-- Nor does what comes before. -/
theorem after (m : Handler ε Op Ans α) (h : ∀ a, Doomed legal (f a)) : Doomed legal (m >>= f) := by
  intro tr
  have hm : Serves (answeredBy legal) tr m (fun _ _ => True) fun _ _ => True :=
    safe_answeredBy (fun _ r => by cases r <;> trivial) m.run
  exact hm.bind fun tr' a _ _ => h a tr'

/-- First an operation, whose answer is legal. -/
theorem act {op : Op} {f : Ans op → Handler ε Op Ans β} (h : ∀ a, legal op a → Doomed legal (f a)) :
    Doomed legal (ExceptT.lift (Prog.perform op) >>= f) :=
  fun _ => .act trivial fun a ha => h a ha _

/-- `if p then throw e; rest` -/
theorem refuse {p : Prop} [Decidable p] {e : ε} {f : Unit → Handler ε Op Ans β}
    (h : Doomed legal (f ())) :
    Doomed legal (if p then MonadExcept.throw e >>= f else f ()) :=
  fun tr => .refuse (fun _ => trivial) fun _ => h tr

/-- A doomed computation whose failure is caught. -/
theorem attempt {m : Handler ε' Op Ans α} {f : Except ε' α → Handler ε Op Ans β}
    (h : Doomed legal m) (hf : ∀ e, Doomed legal (f (.error e))) :
    Doomed legal (ExceptT.lift m.run >>= f) := by
  refine fun tr => .attempt (h tr) fun tr' r _ hr => ?_
  cases r with
  | ok a => exact hr.elim
  | error e => exact hf e tr'

theorem mapErr {g : ε → ε'} (h : Doomed legal m) : Doomed legal (mapErr g m) :=
  fun tr => Serves.mapErr (h tr)

end Doomed

end

end Strkd
