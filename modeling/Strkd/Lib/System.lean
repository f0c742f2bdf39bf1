import Strkd.Lib.Prog

/-!
# Systems of interleaved programs

Any number of programs share one world, a step of the system being one operation of one of them.
New tasks arrive at any moment, an operation may leave a task behind, and a program may be dropped
where the machine says so.  Rule books carry over: if every task starts safe, every program reached
is safe, as long as the answers it gets are legal.
-/

namespace Strkd

/-- What the tasks of a system run, and what the operations do to its world. -/
structure Machine (Op : Type) (Ans : Op → Type) (World Task Reply : Type) where
  /-- The tasks that arrive from outside. -/
  external : Task → Prop
  start : Task → Prog Op Ans Reply
  /-- An operation of the process with a number, its answer, and the world after it. -/
  exec : World → ℕ → (op : Op) → Ans op → World → Prop
  /-- The task an operation leaves behind. -/
  spawns : Op → Option Task
  /-- Whether the process with a number, running a task, may be dropped before an operation. -/
  drops : World → ℕ → Task → Op → Prop

/-- A task with what was done of it and what is left, or nothing once it is dropped. -/
structure Process (Op : Type) (Ans : Op → Type) (Task Reply : Type) where
  task : Task
  trace : List (Event Op Ans)
  rest : Option (Prog Op Ans Reply)

/-- A world with the processes that run in it, in the order they arrived. -/
structure Sys (Op : Type) (Ans : Op → Type) (World Task Reply : Type) where
  world : World
  procs : List (Process Op Ans Task Reply)

/-- What happens in a step. -/
inductive Move (Op : Type) (Ans : Op → Type) (Task : Type) where
  | arrive (task : Task)
  | run (pid : ℕ) (event : Event Op Ans)
  | drop (pid : ℕ)

section

variable {Op : Type} {Ans : Op → Type} {World Task Reply : Type}
variable {M : Machine Op Ans World Task Reply} {s s' : Sys Op Ans World Task Reply}

namespace Machine

/-- A process that has not started yet. -/
def fresh (M : Machine Op Ans World Task Reply) (task : Task) : Process Op Ans Task Reply :=
  ⟨task, [], some (M.start task)⟩

/-- The processes an operation leaves behind. -/
def spawned (M : Machine Op Ans World Task Reply) (op : Op) : List (Process Op Ans Task Reply) :=
  (M.spawns op).toList.map M.fresh

end Machine

/-- A process after one more operation. -/
def Process.after (p : Process Op Ans Task Reply) (op : Op) (a : Ans op)
    (rest : Prog Op Ans Reply) : Process Op Ans Task Reply :=
  ⟨p.task, p.trace ++ [⟨op, a⟩], some rest⟩

def Process.dropped (p : Process Op Ans Task Reply) : Process Op Ans Task Reply :=
  ⟨p.task, p.trace, none⟩

namespace Sys

inductive Step (M : Machine Op Ans World Task Reply) :
    Sys Op Ans World Task Reply → Move Op Ans Task → Sys Op Ans World Task Reply → Prop
  | arrive (s : Sys Op Ans World Task Reply) (task : Task) (ht : M.external task) :
      Step M s (.arrive task) ⟨s.world, s.procs ++ [M.fresh task]⟩
  | run (s : Sys Op Ans World Task Reply) (pid : ℕ) (p : Process Op Ans Task Reply) (op : Op)
      (next : Ans op → Prog Op Ans Reply) (a : Ans op) (w : World) (hp : s.procs[pid]? = some p)
      (hr : p.rest = some (.step op next)) (hx : M.exec s.world pid op a w) :
      Step M s (.run pid ⟨op, a⟩) ⟨w, s.procs.set pid (p.after op a (next a)) ++ M.spawned op⟩
  | drop (s : Sys Op Ans World Task Reply) (pid : ℕ) (p : Process Op Ans Task Reply) (op : Op)
      (next : Ans op → Prog Op Ans Reply) (hp : s.procs[pid]? = some p)
      (hr : p.rest = some (.step op next)) (hd : M.drops s.world pid p.task op) :
      Step M s (.drop pid) ⟨s.world, s.procs.set pid p.dropped⟩

/-- The states reached from `init` by steps that meet `C`. -/
inductive Reach (M : Machine Op Ans World Task Reply) (init : Sys Op Ans World Task Reply → Prop)
    (C : Sys Op Ans World Task Reply → Move Op Ans Task → Prop) :
    Sys Op Ans World Task Reply → Prop
  | init (s : Sys Op Ans World Task Reply) (h : init s) : Reach M init C s
  | step {s s' : Sys Op Ans World Task Reply} (m : Move Op Ans Task) (h : Reach M init C s)
      (hc : C s m) (hs : Step M s m s') : Reach M init C s'

variable {init : Sys Op Ans World Task Reply → Prop}
variable {C C' : Sys Op Ans World Task Reply → Move Op Ans Task → Prop}

/-- What holds at the start and is kept by every step holds in every reachable state. -/
theorem Reach.invariant {I : Sys Op Ans World Task Reply → Prop} (h : Reach M init C s)
    (hinit : ∀ s, init s → I s)
    (hstep : ∀ s m s', Reach M init C s → I s → C s m → Step M s m s' → I s') : I s := by
  induction h with
  | init s h => exact hinit s h
  | step m h hc hs ih => exact hstep _ m _ h ih hc hs

/-! ## Runs that are watched, and machines that start again -/

/-- The states reached from `init` by steps that meet `C`, with what `see` shows of each step. -/
inductive Observed {Obs : Type} (M : Machine Op Ans World Task Reply)
    (init : Sys Op Ans World Task Reply → Prop)
    (C : Sys Op Ans World Task Reply → Move Op Ans Task → Prop)
    (see : Sys Op Ans World Task Reply → Sys Op Ans World Task Reply → List Obs) :
    Sys Op Ans World Task Reply → List Obs → Prop
  | init (s : Sys Op Ans World Task Reply) (h : init s) : Observed M init C see s []
  | step {s s' : Sys Op Ans World Task Reply} {seen : List Obs} (m : Move Op Ans Task)
      (h : Observed M init C see s seen) (hc : C s m) (hs : Step M s m s') :
      Observed M init C see s' (seen ++ see s s')

/-- The states of a machine that is started on a disk, runs by steps that meet `C`, and may stop at
any moment, all its tasks gone, and be started again on the disk it left.  `boot` says which world
a start in some circumstances makes of a disk, `B` which circumstances are met. -/
inductive Restarted {Disk Start : Type} (M : Machine Op Ans World Task Reply)
    (disk : World → Disk) (boot : Disk → Start → World → Prop)
    (C : Sys Op Ans World Task Reply → Move Op Ans Task → Prop) (B : Disk → Start → Prop) :
    Sys Op Ans World Task Reply → Prop
  | start (d : Disk) (b : Start) (w : World) (hb : B d b) (hw : boot d b w) :
      Restarted M disk boot C B ⟨w, []⟩
  | step {s s' : Sys Op Ans World Task Reply} (m : Move Op Ans Task)
      (h : Restarted M disk boot C B s) (hc : C s m) (hs : Step M s m s') :
      Restarted M disk boot C B s'
  | crash {s : Sys Op Ans World Task Reply} (h : Restarted M disk boot C B s) (b : Start)
      (w : World) (hb : B (disk s.world) b) (hw : boot (disk s.world) b w) :
      Restarted M disk boot C B ⟨w, []⟩

/-- The states reached from `init` by steps that meet `C`, the machine being stopped at any moment,
all its tasks gone, and started again in a world that `boot` makes of the one it left. -/
inductive Reopened (M : Machine Op Ans World Task Reply)
    (init : Sys Op Ans World Task Reply → Prop) (boot : World → World → Prop)
    (C : Sys Op Ans World Task Reply → Move Op Ans Task → Prop) :
    Sys Op Ans World Task Reply → Prop
  | init (s : Sys Op Ans World Task Reply) (h : init s) : Reopened M init boot C s
  | step {s s' : Sys Op Ans World Task Reply} (m : Move Op Ans Task)
      (h : Reopened M init boot C s) (hc : C s m) (hs : Step M s m s') : Reopened M init boot C s'
  | crash {s : Sys Op Ans World Task Reply} (h : Reopened M init boot C s) (w : World)
      (hw : boot s.world w) : Reopened M init boot C ⟨w, []⟩

section

variable {Obs : Type} {see : Sys Op Ans World Task Reply → Sys Op Ans World Task Reply → List Obs}
variable {seen : List Obs}

theorem Observed.reach (h : Observed M init C see s seen) : Reach M init C s := by
  induction h with
  | init s h => exact .init s h
  | step m _ hc hs ih => exact .step m ih hc hs

theorem Observed.invariant {I : Sys Op Ans World Task Reply → List Obs → Prop}
    (h : Observed M init C see s seen) (hinit : ∀ s, init s → I s [])
    (hstep : ∀ s seen m s', Reach M init C s → I s seen → C s m → Step M s m s' →
      I s' (seen ++ see s s')) : I s seen := by
  induction h with
  | init s h => exact hinit s h
  | step m h hc hs ih => exact hstep _ _ m _ h.reach ih hc hs

theorem Reopened.mono {init' : Sys Op Ans World Task Reply → Prop} {boot : World → World → Prop}
    (h : Reopened M init boot C s) (hinit : ∀ s, init s → init' s) (hC : ∀ s m, C s m → C' s m) :
    Reopened M init' boot C' s := by
  induction h with
  | init s h => exact .init s (hinit s h)
  | step m _ hc hs ih => exact .step m ih (hC _ m hc) hs
  | crash _ w hw ih => exact .crash ih w hw

/-- A machine that starts again forgets all but its disk: every life of it is a run of its own. -/
theorem Restarted.reach {Disk Start : Type} {disk : World → Disk}
    {boot : Disk → Start → World → Prop} {B : Disk → Start → Prop}
    (h : Restarted M disk boot C B s) :
    Reach M (fun s => s.procs = [] ∧ ∃ d b, B d b ∧ boot d b s.world) C s := by
  induction h with
  | start d b w hb hw => exact .init _ ⟨rfl, d, b, hb, hw⟩
  | step m _ hc hs ih => exact .step m ih hc hs
  | crash _ b w hb hw _ => exact .init _ ⟨rfl, _, b, hb, hw⟩

end

/-! ## The processes after a step -/

theorem getElem?_append_eq_some {α : Type} {l₁ l₂ : List α} {i : ℕ} {a : α}
    (h : (l₁ ++ l₂)[i]? = some a) : l₁[i]? = some a ∨ (l₁.length ≤ i ∧ a ∈ l₂) := by
  rw [List.getElem?_append] at h
  split_ifs at h with hi
  · exact Or.inl h
  · exact Or.inr ⟨Nat.le_of_not_lt hi, List.mem_of_getElem? h⟩

/-- A process after a step: one that was there, one that ran or was dropped, or a fresh one. -/
theorem Step.process {m : Move Op Ans Task} (hs : Step M s m s') {pid : ℕ}
    {q : Process Op Ans Task Reply} (hq : s'.procs[pid]? = some q) :
    s.procs[pid]? = some q ∨
    (∃ p op next a, s.procs[pid]? = some p ∧ p.rest = some (.step op next) ∧
      m = .run pid ⟨op, a⟩ ∧ M.exec s.world pid op a s'.world ∧ q = p.after op a (next a)) ∨
    (∃ p, s.procs[pid]? = some p ∧ m = .drop pid ∧ q = p.dropped) ∨
    (s.procs.length ≤ pid ∧ ∃ task, q = M.fresh task) := by
  cases hs with
  | arrive task ht =>
      rcases getElem?_append_eq_some hq with h | ⟨hlen, hmem⟩
      · exact Or.inl h
      · exact Or.inr (Or.inr (Or.inr ⟨hlen, task, List.mem_singleton.mp hmem⟩))
  | run i p op next a w hp hr hx =>
      rcases getElem?_append_eq_some hq with h | ⟨hlen, hmem⟩
      · by_cases hi : i = pid
        · subst hi
          have hlt := (List.getElem?_eq_some_iff.mp hp).1
          rw [List.getElem?_set_self hlt] at h
          exact Or.inr (Or.inl ⟨p, op, next, a, hp, hr, rfl, hx, (Option.some.inj h).symm⟩)
        · rw [List.getElem?_set_ne hi] at h
          exact Or.inl h
      · rw [List.length_set] at hlen
        obtain ⟨task, -, rfl⟩ := List.mem_map.mp hmem
        exact Or.inr (Or.inr (Or.inr ⟨hlen, task, rfl⟩))
  | drop i p op next hp hr hd =>
      by_cases hi : i = pid
      · subst hi
        have hlt := (List.getElem?_eq_some_iff.mp hp).1
        rw [List.getElem?_set_self hlt] at hq
        exact Or.inr (Or.inr (Or.inl ⟨p, hp, rfl, (Option.some.inj hq).symm⟩))
      · rw [List.getElem?_set_ne hi] at hq
        exact Or.inl hq

/-- What the process with a number has done so far; nothing before it arrives. -/
def traceAt (s : Sys Op Ans World Task Reply) (i : ℕ) : List (Event Op Ans) :=
  ((s.procs[i]?).map Process.trace).getD []

theorem traceAt_eq {i : ℕ} {p : Process Op Ans Task Reply} (h : s.procs[i]? = some p) :
    s.traceAt i = p.trace := by
  rw [traceAt, h]
  rfl

theorem traceAt_append (s : Sys Op Ans World Task Reply) (w : World)
    {ps qs : List (Process Op Ans Task Reply)} (hps : ∀ i, traceAt ⟨w, ps⟩ i = s.traceAt i)
    (hqs : ∀ q ∈ qs, q.trace = []) (i : ℕ) : traceAt ⟨w, ps ++ qs⟩ i = s.traceAt i := by
  rw [← hps i]
  unfold traceAt
  rw [List.getElem?_append]
  split_ifs with hi
  · rfl
  · rw [List.getElem?_eq_none (Nat.le_of_not_lt hi)]
    cases hq : qs[i - ps.length]? with
    | none => rfl
    | some q => exact hqs q (List.mem_of_getElem? hq)

theorem traceAt_set {w : World} {ps : List (Process Op Ans Task Reply)} {pid : ℕ}
    {p q : Process Op Ans Task Reply} (hp : ps[pid]? = some p) (i : ℕ) :
    traceAt ⟨w, ps.set pid q⟩ i = if i = pid then q.trace else traceAt ⟨w, ps⟩ i := by
  unfold traceAt
  have hlt := (List.getElem?_eq_some_iff.mp hp).1
  split_ifs with hi
  · subst hi
    rw [List.getElem?_set_self hlt]
    rfl
  · rw [List.getElem?_set_ne (Ne.symm hi)]

/-- A step that runs no process: the world stays, and so does what every process has done. -/
theorem Step.of_still {m : Move Op Ans Task} (hs : Step M s m s') (hm : ∀ pid e, m ≠ .run pid e) :
    s'.world = s.world ∧ ∀ i, s'.traceAt i = s.traceAt i := by
  cases hs with
  | arrive task ht =>
      refine ⟨rfl, traceAt_append s s.world (fun _ => rfl) fun q hq => ?_⟩
      rw [List.mem_singleton.mp hq]
      rfl
  | run pid p op next a w hp hr hx => exact absurd rfl (hm pid ⟨op, a⟩)
  | drop pid p op next hp hr hd =>
      refine ⟨rfl, fun i => ?_⟩
      rw [traceAt_set hp]
      split_ifs with hi
      · rw [hi, traceAt_eq hp]
        rfl
      · rfl

/-- A step that runs a process: one more operation of it, as the world allows. -/
theorem Step.of_run {pid : ℕ} {op : Op} {a : Ans op} (hs : Step M s (.run pid ⟨op, a⟩) s') :
    M.exec s.world pid op a s'.world ∧
    (∃ p next, s.procs[pid]? = some p ∧ p.rest = some (.step op next)) ∧
    s'.traceAt pid = s.traceAt pid ++ [⟨op, a⟩] ∧ ∀ i, i ≠ pid → s'.traceAt i = s.traceAt i := by
  cases hs with
  | run _ p _ next _ w hp hr hx =>
      have htrace : ∀ i, traceAt ⟨w, s.procs.set pid (p.after op a (next a)) ++ M.spawned op⟩ i =
          if i = pid then s.traceAt pid ++ [⟨op, a⟩] else s.traceAt i := by
        intro i
        rw [traceAt_append ⟨w, s.procs.set pid (p.after op a (next a))⟩ w (fun _ => rfl)
          (fun q hq => ?_), traceAt_set hp, traceAt_eq hp]
        · rfl
        · obtain ⟨task, -, rfl⟩ := List.mem_map.mp hq
          rfl
      refine ⟨hx, ⟨p, next, hp, hr⟩, ?_, fun i hi => ?_⟩
      · rw [htrace, if_pos rfl]
      · rw [htrace, if_neg hi]

/-! ## Safe systems -/

/-- Every process of a system is safe under the rule book of its task, and ends as `Q` says. -/
def Safe (R : Task → Rules Op Ans) (Q : Task → List (Event Op Ans) → Reply → Prop)
    (s : Sys Op Ans World Task Reply) : Prop :=
  ∀ (pid : ℕ) (p : Process Op Ans Task Reply), s.procs[pid]? = some p →
    ∀ prog, p.rest = some prog → Strkd.Safe (R p.task) p.trace prog (Q p.task)

variable {R : Task → Rules Op Ans} {Q : Task → List (Event Op Ans) → Reply → Prop}

/-- In a safe system a process only performs what its rule book allows. -/
theorem Safe.allows (h : s.Safe R Q) {pid : ℕ} {p : Process Op Ans Task Reply} {op : Op}
    {next : Ans op → Prog Op Ans Reply} (hp : s.procs[pid]? = some p)
    (hr : p.rest = some (.step op next)) : (R p.task).allows p.trace op :=
  (h pid p hp _ hr).1

/-- A step keeps a system safe when tasks start safe and the answers given are legal. -/
theorem Safe.step (h : s.Safe R Q) {m : Move Op Ans Task} (hs : Step M s m s')
    (hstart : ∀ task, Strkd.Safe (R task) [] (M.start task) (Q task))
    (hlegal : ∀ (pid : ℕ) (p : Process Op Ans Task Reply) (op : Op)
      (next : Ans op → Prog Op Ans Reply) (a : Ans op), s.procs[pid]? = some p →
      p.rest = some (.step op next) → M.exec s.world pid op a s'.world →
      (R p.task).legal p.trace op a) : s'.Safe R Q := by
  intro pid q hq prog hprog
  rcases hs.process hq with hq | ⟨p, op, next, a, hp, hr, -, hx, rfl⟩ | ⟨p, -, -, rfl⟩ |
    ⟨-, task, rfl⟩
  · exact h pid q hq prog hprog
  · rw [← Option.some.inj hprog]
    exact (h pid p hp _ hr).2 a (hlegal pid p op next a hp hr hx)
  · exact absurd hprog (by rintro ⟨⟩)
  · rw [← Option.some.inj hprog]
    exact hstart task

/-- Where every answer is legal and every task starts safe, the systems reached are safe. -/
theorem Reach.safe (h : Reach M init C s) (hinit : ∀ s, init s → s.procs = [])
    (hstart : ∀ task, Strkd.Safe (R task) [] (M.start task) (Q task))
    (hlegal : ∀ task tr op a, (R task).legal tr op a) : s.Safe R Q := by
  refine h.invariant (fun s hs pid p hp => ?_) fun s m s' _ hsafe _ hstep =>
    hsafe.step hstep hstart fun _ _ _ _ _ _ _ _ => hlegal _ _ _ _
  rw [hinit s hs] at hp
  cases hp

/-! ## Playing a system -/

section Play

variable (M) (answer : World → ℕ → (op : Op) → Option (Ans op × World))

/-- Let the process with number `pid` perform its next operation, with the answer given. -/
def playOne (s : Sys Op Ans World Task Reply) (pid : ℕ) :
    Option (Move Op Ans Task × Sys Op Ans World Task Reply) :=
  match s.procs[pid]? with
  | some ⟨task, trace, some (.step op next)⟩ =>
      (answer s.world pid op).map fun (a, w) => (.run pid ⟨op, a⟩,
        ⟨w, s.procs.set pid (Process.after ⟨task, trace, some (.step op next)⟩ op a (next a)) ++
          M.spawned op⟩)
  | _ => none

/-- Let processes perform their next operations one after the other, and keep the moves. -/
def play (s : Sys Op Ans World Task Reply) :
    List ℕ → Option (List (Move Op Ans Task) × Sys Op Ans World Task Reply)
  | [] => some ([], s)
  | pid :: rest => do
      let (m, s) ← playOne M answer s pid
      let (moves, s) ← play s rest
      return (m :: moves, s)

variable {M answer}

theorem playOne_step {pid : ℕ} {m : Move Op Ans Task}
    (hanswer : ∀ w pid op a w', answer w pid op = some (a, w') → M.exec w pid op a w')
    (h : playOne M answer s pid = some (m, s')) :
    Step M s m s' ∧ ∃ op a, m = .run pid ⟨op, a⟩ ∧ answer s.world pid op = some (a, s'.world) := by
  unfold playOne at h
  split at h
  · rename_i task trace op next hp
    obtain ⟨⟨a, w⟩, hw, heq⟩ := Option.map_eq_some_iff.1 h
    cases heq
    exact ⟨.run s pid _ op next a w hp rfl (hanswer _ _ _ _ _ hw), op, a, rfl, hw⟩
  · cases h

/-- What holds at the start of a play and is carried along by its moves holds at its end. -/
theorem play_induction
    (hanswer : ∀ w pid op a w', answer w pid op = some (a, w') → M.exec w pid op a w')
    {P : List (Move Op Ans Task) → Sys Op Ans World Task Reply → Prop}
    {pids : List ℕ} (hstep : ∀ moves s s' pid op a, pid ∈ pids → P moves s →
      Step M s (.run pid ⟨op, a⟩) s' → answer s.world pid op = some (a, s'.world) →
      P (moves ++ [.run pid ⟨op, a⟩]) s')
    {moves : List (Move Op Ans Task)} (h : play M answer s pids = some (moves, s'))
    (before : List (Move Op Ans Task)) (h0 : P before s) : P (before ++ moves) s' := by
  induction pids generalizing s before moves with
  | nil =>
      cases h
      simpa using h0
  | cons pid rest ih =>
      simp only [play, Option.bind_eq_bind, Option.bind_eq_some_iff, Prod.exists, Option.pure_def,
        Option.some.injEq, Prod.mk.injEq] at h
      obtain ⟨m, s₁, hone, moves', s₂, hrest, rfl, rfl⟩ := h
      obtain ⟨hs, op, a, rfl, hw⟩ := playOne_step hanswer hone
      have := ih (fun moves s s' pid op a hmem => hstep moves s s' pid op a
        (List.mem_cons_of_mem _ hmem)) hrest _ (hstep _ _ _ _ _ _ List.mem_cons_self h0 hs hw)
      simpa using this

theorem Reach.play (h : Reach M init C s)
    (hC : ∀ s pid op a w', answer s.world pid op = some (a, w') → C s (.run pid ⟨op, a⟩))
    (hanswer : ∀ w pid op a w', answer w pid op = some (a, w') → M.exec w pid op a w')
    {pids : List ℕ} {moves : List (Move Op Ans Task)}
    (hplay : play M answer s pids = some (moves, s')) : Reach M init C s' :=
  play_induction (P := fun _ s => Reach M init C s) hanswer
    (fun _ s _ pid op a _ h hs ha => .step _ h (hC s pid op a _ ha) hs) hplay [] h

/-- Let processes perform their next operations as scheduled, each with the answers of its moment,
as long as `c` is met before every move. -/
def playWhile {T : Type} (M : Machine Op Ans World Task Reply)
    (answers : T → World → ℕ → (op : Op) → Option (Ans op × World))
    (c : Sys Op Ans World Task Reply → Move Op Ans Task → Bool)
    (s : Sys Op Ans World Task Reply) :
    List (T × ℕ) → Option (List (T × Move Op Ans Task) × Sys Op Ans World Task Reply)
  | [] => some ([], s)
  | (t, pid) :: rest => do
      let (m, s₁) ← playOne M (answers t) s pid
      guard (c s m)
      let (later, s₂) ← playWhile M answers c s₁ rest
      return ((t, m) :: later, s₂)

section

variable {T : Type} {answers : T → World → ℕ → (op : Op) → Option (Ans op × World)}
variable {c : Sys Op Ans World Task Reply → Move Op Ans Task → Bool}

/-- The first move of a schedule that was played to its end, and the rest of it. -/
theorem playWhile_cons {t : T} {pid : ℕ} {rest : List (T × ℕ)} {moves : List (T × Move Op Ans Task)}
    (hanswer : ∀ t w pid op a w', answers t w pid op = some (a, w') → M.exec w pid op a w')
    (h : playWhile M answers c s ((t, pid) :: rest) = some (moves, s')) :
    ∃ op a s₁ later, moves = (t, .run pid ⟨op, a⟩) :: later ∧
      Step M s (.run pid ⟨op, a⟩) s₁ ∧ answers t s.world pid op = some (a, s₁.world) ∧
      c s (.run pid ⟨op, a⟩) = true ∧ playWhile M answers c s₁ rest = some (later, s') := by
  simp only [playWhile, Option.bind_eq_bind, Option.bind_eq_some_iff, Prod.exists,
    Option.pure_def, Option.some.injEq, Prod.mk.injEq, Option.guard_eq_some'] at h
  obtain ⟨m, s₁, hone, -, hmet, later, s₂, hrest, rfl, rfl⟩ := h
  obtain ⟨hs, op, a, rfl, ha⟩ := playOne_step (hanswer t) hone
  exact ⟨op, a, s₁, later, rfl, hs, ha, hmet, hrest⟩

theorem Reach.playWhile (h : Reach M init C s) (hc : ∀ s m, c s m = true → C s m)
    (hanswer : ∀ t w pid op a w', answers t w pid op = some (a, w') → M.exec w pid op a w')
    {schedule : List (T × ℕ)} {moves : List (T × Move Op Ans Task)}
    (hplay : playWhile M answers c s schedule = some (moves, s')) : Reach M init C s' := by
  induction schedule generalizing s moves with
  | nil =>
      cases hplay
      exact h
  | cons x rest ih =>
      obtain ⟨op, a, s₁, later, -, hs, -, hmet, hrest⟩ := playWhile_cons hanswer hplay
      exact ih (.step _ h (hc _ _ hmet) hs) hrest

end

theorem Reach.arrivals {w : World} (h : init ⟨w, []⟩) (hC : ∀ s task, C s (.arrive task))
    {tasks : List Task} (hext : ∀ task ∈ tasks, M.external task) :
    Reach M init C ⟨w, tasks.map M.fresh⟩ := by
  induction tasks using List.reverseRecOn with
  | nil => exact .init _ h
  | append_singleton tasks task ih =>
      have hbefore := ih fun t ht => hext t (List.mem_append_left _ ht)
      rw [List.map_append]
      exact .step _ hbefore (hC _ task) (.arrive _ task (hext task (by simp)))

end Play

end Sys

end

end Strkd
