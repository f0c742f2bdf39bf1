import Strkd.Lib.System

/-!
# From a state on

What the processes of a system have done since a state, and what the processes that arrived since
then will do.
-/

namespace Strkd.Sys

section

variable {Op : Type} {Ans : Op → Type} {World Task Reply : Type}
variable {M : Machine Op Ans World Task Reply} {s₀ s s' : Sys Op Ans World Task Reply}
variable {P : Event Op Ans → Prop}

/-- Every event since `s₀` satisfies `P`. -/
def Since (P : Event Op Ans → Prop) (s₀ s : Sys Op Ans World Task Reply) : Prop :=
  ∀ i, ∃ later, s.traceAt i = s₀.traceAt i ++ later ∧ ∀ e ∈ later, P e

theorem since_self (s : Sys Op Ans World Task Reply) : Since P s s :=
  fun _ => ⟨[], (List.append_nil _).symm, fun _ he => nomatch he⟩

theorem Since.step (h : Since P s₀ s) {m : Move Op Ans Task} (hs : Step M s m s')
    (hm : ∀ pid e, m = .run pid e → P e) : Since P s₀ s' := by
  by_cases hstill : ∀ pid e, m ≠ .run pid e
  · intro i
    rw [(hs.of_still hstill).2 i]
    exact h i
  · push Not at hstill
    obtain ⟨pid, ⟨op, a⟩, rfl⟩ := hstill
    obtain ⟨-, -, hself, hother⟩ := hs.of_run
    intro i
    obtain ⟨later, htrace, hlater⟩ := h i
    by_cases hi : i = pid
    · subst hi
      refine ⟨later ++ [⟨op, a⟩], ?_, fun e he => ?_⟩
      · rw [hself, htrace, List.append_assoc]
      · rcases List.mem_append.1 he with he | he
        · exact hlater e he
        · rw [List.mem_singleton.1 he]
          exact hm i ⟨op, a⟩ rfl
    · exact ⟨later, by rw [hother i hi, htrace], hlater⟩

/-- Every process that arrived since `s₀` is safe under the rule book of its task, and ends as `Q`
says. -/
def SafeSince (R : Task → Rules Op Ans) (Q : Task → List (Event Op Ans) → Reply → Prop)
    (s₀ s : Sys Op Ans World Task Reply) : Prop :=
  ∀ (pid : ℕ) (p : Process Op Ans Task Reply), s₀.procs.length ≤ pid → s.procs[pid]? = some p →
    ∀ prog, p.rest = some prog → Strkd.Safe (R p.task) p.trace prog (Q p.task)

variable {R : Task → Rules Op Ans} {Q : Task → List (Event Op Ans) → Reply → Prop}

theorem safeSince_self (s : Sys Op Ans World Task Reply) : SafeSince R Q s s := by
  intro pid p hpid hp
  rw [List.getElem?_eq_none hpid] at hp
  cases hp

theorem SafeSince.step (h : SafeSince R Q s₀ s) {m : Move Op Ans Task} (hs : Step M s m s')
    (hstart : ∀ task, Strkd.Safe (R task) [] (M.start task) (Q task))
    (hlegal : ∀ (pid : ℕ) (p : Process Op Ans Task Reply) (op : Op) (a : Ans op),
      s.procs[pid]? = some p → M.exec s.world pid op a s'.world →
      (R p.task).legal p.trace op a) : SafeSince R Q s₀ s' := by
  intro pid q hpid hq prog hprog
  rcases hs.process hq with hq | ⟨p, op, next, a, hp, hr, -, hx, rfl⟩ | ⟨p, -, -, rfl⟩ |
    ⟨-, task, rfl⟩
  · exact h pid q hpid hq prog hprog
  · rw [← Option.some.inj hprog]
    exact (h pid p hpid hp _ hr).2 a (hlegal pid p op a hp hx)
  · exact absurd hprog (by rintro ⟨⟩)
  · rw [← Option.some.inj hprog]
    exact hstart task

/-- A process that arrived since then and has ended, ended as `Q` says. -/
theorem SafeSince.ended (h : SafeSince R Q s₀ s) {pid : ℕ} {p : Process Op Ans Task Reply}
    {reply : Reply} (hpid : s₀.procs.length ≤ pid) (hp : s.procs[pid]? = some p)
    (hr : p.rest = some (.pure reply)) : Q p.task p.trace reply := h pid p hpid hp _ hr

/-! ## Rule books that only grow -/

/-- Every process has only done what its rule book allows. -/
def Allowed (R : Task → Rules Op Ans) (s : Sys Op Ans World Task Reply) : Prop :=
  ∀ (pid : ℕ) (p : Process Op Ans Task Reply), s.procs[pid]? = some p →
    ∀ e ∈ p.trace, (R p.task).allows p.trace e.1

theorem Allowed.step (h : Allowed R s) (hsafe : s.Safe R Q) {m : Move Op Ans Task}
    (hs : Step M s m s') (hmono : ∀ task tr tr' op, (R task).allows tr op → tr <+: tr' →
      (R task).allows tr' op) : Allowed R s' := by
  intro pid q hq e he
  rcases hs.process hq with hq | ⟨p, op, next, a, hp, hr, -, -, rfl⟩ | ⟨p, hp, -, rfl⟩ |
    ⟨-, task, rfl⟩
  · exact h pid q hq e he
  · refine hmono _ _ _ _ ?_ (List.prefix_append p.trace [⟨op, a⟩])
    rcases List.mem_append.1 he with he | he
    · exact h pid p hp e he
    · rw [List.mem_singleton.1 he]
      exact hsafe.allows hp hr
  · exact h pid p hp e he
  · cases he

/-- Where tasks start safe, answers are legal and what is allowed stays allowed, every process of a
system reached has only done what its rule book allows, also seen from where it is now. -/
theorem Reach.allowed {init : Sys Op Ans World Task Reply → Prop}
    {C : Sys Op Ans World Task Reply → Move Op Ans Task → Prop} (h : Reach M init C s)
    (hinit : ∀ s, init s → s.procs = [])
    (hstart : ∀ task, Strkd.Safe (R task) [] (M.start task) (Q task))
    (hlegal : ∀ task tr w pid op a w', M.exec w pid op a w' → (R task).legal tr op a)
    (hmono : ∀ task tr tr' op, (R task).allows tr op → tr <+: tr' → (R task).allows tr' op) :
    s.Safe R Q ∧ Allowed R s := by
  refine h.invariant (I := fun s => s.Safe R Q ∧ Allowed R s) (fun s hs => ?_)
    fun s m s' _ ⟨hsafe, hallowed⟩ _ hs => ⟨hsafe.step hs hstart
      fun _ _ _ _ _ _ _ hx => hlegal _ _ _ _ _ _ _ hx, hallowed.step hsafe hs hmono⟩
  refine ⟨fun pid p hp => ?_, fun pid p hp => ?_⟩
  · rw [hinit s hs] at hp
    cases hp
  · rw [hinit s hs] at hp
    cases hp

end

end Strkd.Sys
