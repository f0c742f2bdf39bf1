import Mathlib

/-!
# Inversion of fallible computations

What a bind, a guard or a traversal in `Except` that returned a value went through.
-/

namespace Strkd

variable {ε α β : Type}

theorem except_bind_eq_ok {x : Except ε α} {f : α → Except ε β} {b : β} :
    x >>= f = .ok b ↔ ∃ a, x = .ok a ∧ f a = .ok b := by
  cases x with
  | error e =>
      constructor
      · intro h
        cases h
      · rintro ⟨_, h, _⟩
        cases h
  | ok a => exact ⟨fun h => ⟨a, rfl, h⟩, fun ⟨_, h, hf⟩ => Except.ok.inj h ▸ hf⟩

theorem except_pure_eq_ok {a b : α} : (pure a : Except ε α) = .ok b ↔ a = b :=
  ⟨fun h => Except.ok.inj h, fun h => congrArg _ h⟩

theorem mapM_cons_eq_ok {f : α → Except ε β} {a : α} {l : List α} {bs : List β} :
    (a :: l).mapM f = .ok bs ↔ ∃ b bs', f a = .ok b ∧ l.mapM f = .ok bs' ∧ bs = b :: bs' := by
  simp only [List.mapM_cons, except_bind_eq_ok, except_pure_eq_ok]
  exact ⟨fun ⟨b, hb, bs', hbs, h⟩ => ⟨b, bs', hb, hbs, h.symm⟩,
    fun ⟨b, bs', hb, hbs, h⟩ => ⟨b, hb, bs', hbs, h.symm⟩⟩

end Strkd
