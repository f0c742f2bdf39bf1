import Strkd.Service.Prompts
import Strkd.Service.Runs

/-!
# Guesses at the passphrase

The delay after wrong passphrases, over runs of the service.  `unlock` and the seed's reveal check
it, evaluate a guess and record the outcome in three steps; a run in which no check falls between
the check and the record of another command evaluates no guess ahead of time.
-/

namespace Strkd.Service

open Wallet Prover Rpc PassphraseBackoff

/-! ## Runs with times -/

/-- A move with the instant it happened at. -/
abbrev Timed := ℕ × Act

/-- A run from `w` with its history, oldest move first: time does not run backwards, a reading of
the monotonic clock is exact, and every move meets `C` in the state before it. -/
inductive Clocked (K : Crates) (S : Setup) (C : State → Act → Prop) (w : World) :
    State → List Timed → Prop
  | start : Clocked K S C w ⟨w, []⟩ []
  | step {s s' : State} {past : List Timed} {m : Act} {t : ℕ} (h : Clocked K S C w s past)
      (hc : C s m) (hs : Sys.Step (service K S) s m s') (ht : ∀ x ∈ past, x.1 ≤ t)
      (hread : ∀ pid now, m = .run pid ⟨.instant, now⟩ → now = t) :
      Clocked K S C w s' (past ++ [(t, m)])

/-- The guess a move evaluates: when, and whether it was right. -/
def guessIn : Timed → Option (ℕ × Bool)
  | (t, .run _ ⟨op, a⟩) => (guessOf op a).map fun right => (t, right)
  | _ => none

/-- The guesses of a history. -/
def guesses (past : List Timed) : List (ℕ × Bool) := past.filterMap guessIn

/-- A passphrase command passes the check of the delay only when no command is between its own
check and the record of its guess. -/
def InTurn (s : State) (m : Act) : Prop :=
  ∀ pid now, m = .run pid ⟨.backoffCheck now, none⟩ →
    ∀ i, stage (s.traceAt i) = .idle

variable {K : Crates} {S : Setup} {C : State → Act → Prop} {w : World} {s s' : State}
variable {past : List Timed}

theorem Clocked.reach (h : Clocked K S C w s past) :
    Sys.Reach (service K S) (Starts w) C s := by
  induction h with
  | start => exact .init _ rfl
  | step _ hc hs _ _ ih => exact .step _ ih hc hs

theorem Clocked.safe (h : Clocked K S C w s past) : s.Safe (taskRules K S) Finished :=
  safe_reach h.reach fun _ => Starts.procs

theorem guesses_append (past : List Timed) (x : Timed) :
    guesses (past ++ [x]) = guesses past ++ (guessIn x).toList := by
  unfold guesses
  rw [List.filterMap_append]
  cases hx : guessIn x with
  | none => rw [List.filterMap_cons_none hx]; rfl
  | some g => rw [List.filterMap_cons_some hx]; rfl

/-! ## The operations that matter -/

/-- The operations that move a command between its stages. -/
def guessing : Op → Bool
  | .backoffCheck _ | .loadVault | .unlockSession _ _ | .reveal _ _ | .backoffFailure _
  | .backoffSuccess => true
  | _ => false

theorem stageAfter_of_not_guessing {op : Op} (h : guessing op = false) (st : Stage) (a : Ans op) :
    stageAfter st ⟨op, a⟩ = st := by
  cases op <;> first | rfl | cases h

theorem guessOf_of_not_guessing {op : Op} (h : guessing op = false) (a : Ans op) :
    guessOf op a = none := by
  cases op <;> first | rfl | cases h

/-- The delay after an operation. -/
def backoffAfter (b : PassphraseBackoff) : Op → PassphraseBackoff
  | .backoffFailure now => b.recordFailure now
  | .backoffSuccess => .recordSuccess
  | _ => b

theorem backoff_of_exec {w w' : World} {pid : ℕ} {op : Op} {a : Ans op}
    (h : World.Exec K w pid op a w') : w'.backoff = backoffAfter w.backoff op := by
  cases h with
  | failedWrite vault e left h => rfl
  | tornSettings s a h => rfl
  | effect h =>
      cases op with
      | record entry => cases a <;> rfl
      | createAgentAccount id label => rcases a with e | account <;> rfl
      | createUserAccount label => rcases a with e | account <;> rfl
      | reattach name kind => rcases a with _ | ⟨id, token⟩ <;> rfl
      | unlockSession vault passphrase =>
          simp only [World.effect, backoffAfter]
          split <;> rfl
      | writeTmp vault => rcases a with e | _ <;> rfl
      | renameTmp => rcases a with e | _ <;> rfl
      | renameToBackup name => rcases a with e | _ <;> rfl
      | createSettings => rcases a with e | _ <;> rfl
      | writeSettings s => rcases a with e | _ <;> rfl
      | _ => rfl

/-- Only the commands of the window guess, and they keep their rules. -/
theorem permitted_of_guessing {task : Task} {tr : Trace} {op : Op} (hop : guessing op = true)
    (h : (taskRules K S task).allows tr op) : CommandPermitted K S tr op := by
  cases task with
  | command c => exact h
  | request token req => cases op <;> first | exact absurd h id | cases hop
  | proving task => cases op <;> first | (cases h; done) | cases hop

/-! ## What runs keep -/

/-- Where the guess of a process stands: what the delay `b` and the delay `v`, which counts a guess
the moment it is evaluated, are to each other then. -/
def Standing (past : List Timed) (b v : PassphraseBackoff) (tr : Trace) : Prop :=
  match stage tr with
  | .idle => True
  | .checked => Covers b v ∧ ∃ x ∈ past, b.check x.1 = none
  | .missed => ∃ v₀, ∃ x ∈ past, Covers b v₀ ∧ v = v₀.recordFailure x.1 ∧
      ∀ tr' now, tr = tr' ++ [⟨.instant, now⟩] → stage tr' = .missed → x.1 ≤ now
  | .hit => v = .recordSuccess

structure InOrder (s : State) (past : List Timed) : Prop where
  /-- A reading of the clock is in the history. -/
  read : ∀ i now, (⟨.instant, now⟩ : Event Op Ans) ∈ s.traceAt i → ∃ x ∈ past, x.1 = now
  one : ∀ i j, stage (s.traceAt i) ≠ .idle → stage (s.traceAt j) ≠ .idle → i = j
  idle : (∀ i, stage (s.traceAt i) = .idle) → Covers s.world.backoff (.after (guesses past))
  standing : ∀ i, Standing past s.world.backoff (.after (guesses past)) (s.traceAt i)

theorem inOrder_start (hw : w.backoff = {}) : InOrder ⟨w, []⟩ [] where
  read i now h := by cases h
  one i j hi := absurd rfl hi
  idle _ := by
    show Covers w.backoff {}
    rw [hw]
    exact .refl _
  standing i := trivial

theorem Standing.mono {past past' : List Timed} {b v : PassphraseBackoff} {tr : Trace}
    (h : Standing past b v tr) (hp : ∀ x ∈ past, x ∈ past') : Standing past' b v tr := by
  unfold Standing at *
  split at h
  · trivial
  · obtain ⟨hc, x, hx, hb⟩ := h
    exact ⟨hc, x, hp x hx, hb⟩
  · obtain ⟨v₀, x, hx, h⟩ := h
    exact ⟨v₀, x, hp x hx, h⟩
  · exact h

theorem guesses_quiet {m : Act} {t : ℕ} (h : guessIn (t, m) = none) :
    guesses (past ++ [(t, m)]) = guesses past := by
  rw [guesses_append, h]
  exact List.append_nil _

/-- A move that runs no process changes nothing about the guesses. -/
theorem InOrder.still {m : Act} {t : ℕ} (h : InOrder s past)
    (hs : Sys.Step (service K S) s m s') (hm : ∀ pid e, m ≠ .run pid e) :
    InOrder s' (past ++ [(t, m)]) := by
  obtain ⟨hw, htrace⟩ := hs.of_still hm
  have hguess : guesses (past ++ [(t, m)]) = guesses past := by
    refine guesses_quiet ?_
    cases m with
    | run pid e => exact absurd rfl (hm pid e)
    | _ => rfl
  have hpast : ∀ x ∈ past, x ∈ past ++ [(t, m)] := fun x hx => List.mem_append_left _ hx
  constructor
  · intro i now hmem
    rw [htrace] at hmem
    obtain ⟨x, hx, hnow⟩ := h.read i now hmem
    exact ⟨x, hpast x hx, hnow⟩
  · intro i j hi hj
    rw [htrace] at hi hj
    exact h.one i j hi hj
  · intro hall
    rw [hw, hguess]
    exact h.idle fun i => htrace i ▸ hall i
  · intro i
    rw [hw, hguess, htrace]
    exact (h.standing i).mono hpast

/-- What a move of the process `pid` has to settle: its own standing, and the delay if nobody is at
a guess afterwards. -/
theorem InOrder.run {pid : ℕ} {op : Op} {a : Ans op} {t : ℕ} (h : InOrder s past)
    (hs : Sys.Step (service K S) s (.run pid ⟨op, a⟩) s')
    (hread : ∀ now, (⟨op, a⟩ : Event Op Ans) = ⟨.instant, now⟩ → now = t)
    (hone : stage (s'.traceAt pid) ≠ .idle → ∀ i, i ≠ pid → stage (s.traceAt i) = .idle)
    (hidle : stage (s'.traceAt pid) = .idle → (∀ i, i ≠ pid → stage (s.traceAt i) = .idle) →
      Covers s'.world.backoff (.after (guesses (past ++ [(t, .run pid ⟨op, a⟩)]))))
    (hstanding : Standing (past ++ [(t, .run pid ⟨op, a⟩)]) s'.world.backoff
      (.after (guesses (past ++ [(t, .run pid ⟨op, a⟩)]))) (s'.traceAt pid))
    (hothers : ∀ i, i ≠ pid → stage (s.traceAt i) ≠ .idle →
      s'.world.backoff = s.world.backoff ∧
        guesses (past ++ [(t, .run pid ⟨op, a⟩)]) = guesses past) :
    InOrder s' (past ++ [(t, .run pid ⟨op, a⟩)]) := by
  obtain ⟨-, -, hpid, hrest⟩ := hs.of_run
  constructor
  · intro i now hmem
    by_cases hi : i = pid
    · subst hi
      rw [hpid] at hmem
      rcases List.mem_append.1 hmem with hmem | hmem
      · obtain ⟨x, hx, hnow⟩ := h.read i now hmem
        exact ⟨x, List.mem_append_left _ hx, hnow⟩
      · refine ⟨_, List.mem_append_right _ List.mem_cons_self, ?_⟩
        exact (hread now (List.mem_singleton.1 hmem).symm).symm
    · rw [hrest i hi] at hmem
      obtain ⟨x, hx, hnow⟩ := h.read i now hmem
      exact ⟨x, List.mem_append_left _ hx, hnow⟩
  · intro i j hi hj
    by_cases hip : i = pid <;> by_cases hjp : j = pid
    · rw [hip, hjp]
    · rw [hip] at hi
      rw [hrest j hjp] at hj
      exact absurd (hone hi j hjp) hj
    · rw [hjp] at hj
      rw [hrest i hip] at hi
      exact absurd (hone hj i hip) hi
    · rw [hrest i hip] at hi
      rw [hrest j hjp] at hj
      exact h.one i j hi hj
  · intro hall
    exact hidle (hall pid) fun i hi => hrest i hi ▸ hall i
  · intro i
    by_cases hi : i = pid
    · rw [hi]
      exact hstanding
    · rw [hrest i hi]
      by_cases hst : stage (s.traceAt i) = .idle
      · unfold Standing
        rw [hst]
        trivial
      · obtain ⟨hb, hg⟩ := hothers i hi hst
        rw [hb, hg]
        exact (h.standing i).mono fun x hx => List.mem_append_left _ hx

/-! ## One operation -/

section Moves

variable {pid : ℕ} {op : Op} {a : Ans op} {t : ℕ}

theorem guesses_run (past : List Timed) (t pid : ℕ) (op : Op) (a : Ans op) :
    guesses (past ++ [(t, .run pid ⟨op, a⟩)]) =
      guesses past ++ ((guessOf op a).map fun right => (t, right)).toList :=
  guesses_append past _

/-- An operation that moves nobody between stages. -/
theorem InOrder.run_same (h : InOrder s past) (hs : Sys.Step (service K S) s (.run pid ⟨op, a⟩) s')
    (ht : ∀ x ∈ past, x.1 ≤ t) (hread : ∀ now, (⟨op, a⟩ : Event Op Ans) = ⟨.instant, now⟩ → now = t)
    (hstage : stageAfter (stage (s.traceAt pid)) ⟨op, a⟩ = stage (s.traceAt pid))
    (hguess : guessOf op a = none) (hback : ∀ b, backoffAfter b op = b) :
    InOrder s' (past ++ [(t, .run pid ⟨op, a⟩)]) := by
  obtain ⟨hx, -, hpid, -⟩ := hs.of_run
  have hb : s'.world.backoff = s.world.backoff := (backoff_of_exec hx).trans (hback _)
  have hg : guesses (past ++ [(t, .run pid ⟨op, a⟩)]) = guesses past := by
    rw [guesses_run, hguess]
    exact List.append_nil _
  have hst : stage (s'.traceAt pid) = stage (s.traceAt pid) := by rw [hpid, stage_append, hstage]
  refine h.run hs hread (fun hne i hi => ?_) (fun hid hrest => ?_) ?_ fun _ _ _ => ⟨hb, hg⟩
  · by_contra hi'
    exact hi (h.one i pid hi' (hst ▸ hne))
  · rw [hb, hg]
    refine h.idle fun i => ?_
    by_cases hi : i = pid
    · rw [hi, ← hst, hid]
    · exact hrest i hi
  · have hpast : ∀ x ∈ past, x ∈ past ++ [(t, (.run pid ⟨op, a⟩ : Act))] :=
      fun x hx => List.mem_append_left _ hx
    have hold := h.standing pid
    rw [hb, hg]
    unfold Standing at hold ⊢
    rw [hst]
    split at hold
    · trivial
    · obtain ⟨hc, x, hx, hb⟩ := hold
      exact ⟨hc, x, hpast x hx, hb⟩
    · obtain ⟨v₀, x, hx, hc, hv, hlast⟩ := hold
      refine ⟨v₀, x, hpast x hx, hc, hv, fun tr' now heq _ => ?_⟩
      rw [hpid] at heq
      obtain ⟨-, he⟩ := List.append_inj' heq rfl
      rw [hread now (List.singleton_inj.1 he)]
      exact ht x hx
    · exact hold

/-- An operation that ends a guess, or an attempt at one. -/
theorem InOrder.run_idle (h : InOrder s past) (hs : Sys.Step (service K S) s (.run pid ⟨op, a⟩) s')
    (hread : ∀ now, (⟨op, a⟩ : Event Op Ans) = ⟨.instant, now⟩ → now = t)
    (hne : stage (s.traceAt pid) ≠ .idle)
    (hstage : stageAfter (stage (s.traceAt pid)) ⟨op, a⟩ = .idle) (hguess : guessOf op a = none)
    (hc : Covers (backoffAfter s.world.backoff op) (.after (guesses past))) :
    InOrder s' (past ++ [(t, .run pid ⟨op, a⟩)]) := by
  obtain ⟨hx, -, hpid, -⟩ := hs.of_run
  have hg : guesses (past ++ [(t, .run pid ⟨op, a⟩)]) = guesses past := by
    rw [guesses_run, hguess]
    exact List.append_nil _
  have hst : stage (s'.traceAt pid) = .idle := by rw [hpid, stage_append, hstage]
  refine h.run hs hread (fun hne => absurd hst hne) (fun _ _ => ?_) ?_ fun i hi hne' => ?_
  · rw [hg, backoff_of_exec hx]
    exact hc
  · unfold Standing
    rw [hst]
    trivial
  · exact absurd (h.one i pid hne' hne) hi

theorem InOrder.covers (h : InOrder s past) (hchecked : stage (s.traceAt pid) = .checked) :
    Covers s.world.backoff (.after (guesses past)) := by
  have hstanding := h.standing pid
  unfold Standing at hstanding
  rw [hchecked] at hstanding
  exact hstanding.1

/-- A command evaluates a guess. -/
theorem InOrder.run_guess (h : InOrder s past)
    (hs : Sys.Step (service K S) s (.run pid ⟨op, a⟩) s')
    (hread : ∀ now, (⟨op, a⟩ : Event Op Ans) = ⟨.instant, now⟩ → now = t)
    (hchecked : stage (s.traceAt pid) = .checked) {right : Bool} (hguess : guessOf op a = some right)
    (hstage : stageAfter .checked ⟨op, a⟩ = .ofGuess (some right))
    (hback : ∀ b, backoffAfter b op = b) : InOrder s' (past ++ [(t, .run pid ⟨op, a⟩)]) := by
  obtain ⟨hx, -, hpid, -⟩ := hs.of_run
  have hb : s'.world.backoff = s.world.backoff := (backoff_of_exec hx).trans (hback _)
  have hg : PassphraseBackoff.after (guesses (past ++ [(t, .run pid ⟨op, a⟩)])) =
      (PassphraseBackoff.after (guesses past)).count (t, right) := by
    rw [guesses_run, hguess]
    exact after_append _ _
  have hst : stage (s'.traceAt pid) = .ofGuess (some right) := by
    rw [hpid, stage_append, hchecked, hstage]
  have hne : stage (s.traceAt pid) ≠ .idle := by
    rw [hchecked]
    decide
  have hothers : ∀ i, i ≠ pid → stage (s.traceAt i) = .idle := by
    intro i hi
    by_contra hi'
    exact hi (h.one i pid hi' hne)
  have hcovers : Covers s.world.backoff (.after (guesses past)) := h.covers hchecked
  refine h.run hs hread (fun _ => hothers) (fun hid _ => ?_) ?_ fun i hi hne' =>
    absurd (hothers i hi) hne'
  · rw [hst] at hid
    cases right <;> cases hid
  · unfold Standing
    rw [hst, hb, hg]
    cases right with
    | true => rfl
    | false =>
        refine ⟨_, (t, .run pid ⟨op, a⟩), List.mem_append_right _ List.mem_cons_self, hcovers, rfl,
          fun tr' now heq hmissed => ?_⟩
        -- the guess itself is the last event
        rw [hpid] at heq
        obtain ⟨rfl, -⟩ := List.append_inj' heq rfl
        rw [hchecked] at hmissed
        cases hmissed

/-- A command tries the vault. -/
theorem InOrder.run_try (h : InOrder s past) (hs : Sys.Step (service K S) s (.run pid ⟨op, a⟩) s')
    (hread : ∀ now, (⟨op, a⟩ : Event Op Ans) = ⟨.instant, now⟩ → now = t)
    (hchecked : stage (s.traceAt pid) = .checked)
    (hstage : stageAfter .checked ⟨op, a⟩ = .ofGuess (guessOf op a))
    (hback : ∀ b, backoffAfter b op = b) : InOrder s' (past ++ [(t, .run pid ⟨op, a⟩)]) := by
  cases hguess : guessOf op a with
  | some right =>
      rw [hguess] at hstage
      exact h.run_guess hs hread hchecked hguess hstage hback
  | none =>
      rw [hguess] at hstage
      refine h.run_idle hs hread (by rw [hchecked]; decide) (by rw [hchecked]; exact hstage) hguess ?_
      rw [hback]
      exact h.covers hchecked

/-- A command passes the check. -/
theorem InOrder.run_check {now : ℕ} (h : InOrder s past)
    (hs : Sys.Step (service K S) s (.run pid ⟨.backoffCheck now, none⟩) s')
    (hall : ∀ i, stage (s.traceAt i) = .idle)
    (hnow : (⟨.instant, now⟩ : Event Op Ans) ∈ s.traceAt pid) :
    InOrder s' (past ++ [(t, .run pid ⟨.backoffCheck now, none⟩)]) := by
  obtain ⟨hx, -, hpid, -⟩ := hs.of_run
  have hpass : s.world.backoff.check now = none := hx.answers.symm
  have hst : stage (s'.traceAt pid) = .checked := by rw [hpid, stage_append, hall pid]; rfl
  have hg : guesses (past ++ [(t, .run pid ⟨.backoffCheck now, none⟩)]) = guesses past := by
    rw [guesses_run]
    exact List.append_nil _
  obtain ⟨x, hpast, rfl⟩ := h.read pid now hnow
  refine h.run hs (fun now heq => by cases heq) (fun _ i _ => hall i) (fun hid _ => ?_) ?_
    fun i _ hne => absurd (hall i) hne
  · rw [hst] at hid
    cases hid
  · unfold Standing
    rw [hst, hg, backoff_of_exec hx]
    exact ⟨h.idle hall, x, List.mem_append_left _ hpast, hpass⟩

theorem InOrder.step {m : Act} (h : InOrder s past) (hs : Sys.Step (service K S) s m s')
    (hsafe : s.Safe (taskRules K S) Finished) (hc : InTurn s m) (ht : ∀ x ∈ past, x.1 ≤ t)
    (hread : ∀ pid now, m = .run pid ⟨.instant, now⟩ → now = t) : InOrder s' (past ++ [(t, m)]) := by
  cases m with
  | arrive task => exact h.still hs fun _ _ => by simp
  | drop pid => exact h.still hs fun _ _ => by simp
  | run pid e =>
      obtain ⟨op, a⟩ := e
      have hread' : ∀ now, (⟨op, a⟩ : Event Op Ans) = ⟨.instant, now⟩ → now = t :=
        fun now heq => hread pid now (by rw [heq])
      obtain ⟨-, ⟨p, next, hp, hr⟩, -, -⟩ := hs.of_run
      have hallows := hsafe.allows hp hr
      rw [← Sys.traceAt_eq hp] at hallows
      by_cases hg : guessing op = false
      · refine h.run_same hs ht hread' (stageAfter_of_not_guessing hg _ a)
          (guessOf_of_not_guessing hg a) fun b => ?_
        cases op <;> first | rfl | cases hg
      have hrule := permitted_of_guessing (Bool.eq_true_of_not_eq_false hg) hallows
      cases op with
      | backoffCheck now =>
          cases a with
          | some wait => exact h.run_same hs ht hread' rfl rfl fun _ => rfl
          | none =>
              obtain ⟨-, tr', htr'⟩ := hrule
              refine h.run_check hs (hc pid now rfl) ?_
              rw [htr']
              exact List.mem_append_right _ List.mem_cons_self
      | loadVault =>
          by_cases hchecked : stage (s.traceAt pid) = .checked
          · rcases a with e | _ | vault
            · exact h.run_idle hs hread' (by rw [hchecked]; decide) (if_pos hchecked) rfl
                (h.covers hchecked)
            · exact h.run_idle hs hread' (by rw [hchecked]; decide) (if_pos hchecked) rfl
                (h.covers hchecked)
            · exact h.run_same hs ht hread' rfl rfl fun _ => rfl
          · refine h.run_same hs ht hread' ?_ rfl fun _ => rfl
            rcases a with e | _ | vault
            · exact if_neg hchecked
            · exact if_neg hchecked
            · rfl
      | unlockSession vault passphrase => exact h.run_try hs hread' hrule.1 rfl fun _ => rfl
      | reveal vault passphrase => exact h.run_try hs hread' hrule.1 rfl fun _ => rfl
      | backoffFailure now =>
          obtain ⟨tr', htr', hmissed⟩ := hrule
          have hst : stage (s.traceAt pid) = .missed := by
            rw [htr', stage_append, hmissed]
            rfl
          refine h.run_idle hs hread' (by rw [hst]; decide) rfl rfl ?_
          have hstanding := h.standing pid
          unfold Standing at hstanding
          rw [hst] at hstanding
          obtain ⟨v₀, x, -, hcovers, hv, hlast⟩ := hstanding
          rw [hv]
          exact hcovers.recordFailure (hlast tr' now htr' hmissed)
      | backoffSuccess =>
          have hst : stage (s.traceAt pid) = .hit := hrule
          refine h.run_idle hs hread' (by rw [hst]; decide) rfl rfl ?_
          have hstanding := h.standing pid
          unfold Standing at hstanding
          rw [hst] at hstanding
          rw [hstanding]
          exact .refl _
      | _ => exact absurd rfl hg

end Moves

theorem Clocked.inOrder (h : Clocked K S InTurn w s past) (hw : w.backoff = {}) :
    InOrder s past := by
  induction h with
  | start => exact inOrder_start hw
  | step h hc hs ht hread ih => exact ih.step hs h.safe hc ht hread

/-! ## The delay is kept -/

/-- Every guess was evaluated when the delay after the guesses before it had passed. -/
def Waited (gs : List (ℕ × Bool)) : Prop :=
  ∀ earlier g later, gs = earlier ++ g :: later → (PassphraseBackoff.after earlier).check g.1 = none

theorem Waited.append {gs : List (ℕ × Bool)} {g : ℕ × Bool} (h : Waited gs)
    (hg : (PassphraseBackoff.after gs).check g.1 = none) : Waited (gs ++ [g]) := by
  intro earlier g' later heq
  rcases List.eq_nil_or_concat later with rfl | ⟨later, x, rfl⟩
  · obtain ⟨rfl, hlast⟩ := List.append_inj' heq rfl
    rw [← List.singleton_inj.1 hlast]
    exact hg
  · have heq' : gs ++ [g] = (earlier ++ g' :: later) ++ [x] := by simpa using heq
    exact h earlier g' later (List.append_inj' heq' rfl).1

theorem Clocked.waited (h : Clocked K S InTurn w s past) (hw : w.backoff = {}) :
    Waited (guesses past) := by
  induction h with
  | start => exact fun earlier g later heq => by cases earlier <;> cases heq
  | @step s s' past m t h hc hs ht hread ih =>
      rw [guesses_append]
      cases hg : guessIn (t, m) with
      | none => simpa using ih
      | some g =>
          refine ih.append ?_
          cases m with
          | arrive task => cases hg
          | drop pid => cases hg
          | run pid e =>
              obtain ⟨op, a⟩ := e
              obtain ⟨right, hright, rfl⟩ := Option.map_eq_some_iff.1 hg
              obtain ⟨-, ⟨p, next, hp, hr⟩, -, -⟩ := hs.of_run
              have hallows := h.safe.allows hp hr
              rw [← Sys.traceAt_eq hp] at hallows
              have hchecked : stage (s.traceAt pid) = .checked := by
                cases op with
                | unlockSession vault passphrase => exact (permitted_of_guessing rfl hallows).1
                | reveal vault passphrase => exact (permitted_of_guessing rfl hallows).1
                | _ => cases hright
              have hinv := h.inOrder hw
              have hstanding := hinv.standing pid
              unfold Standing at hstanding
              rw [hchecked] at hstanding
              obtain ⟨hcovers, x, hx, hpass⟩ := hstanding
              exact hcovers.check (check_mono hpass (ht x hx))

/-- Where no passphrase command checks the delay between the check and the record of another, every
guess is evaluated after the delay that the guesses evaluated before it lead to; after `k` misses in
a row, `k > 3`, that is `min (5 s * 2 ^ (k - 4)) (300 s)` after the last of them. -/
theorem guesses_waited (hw : w.backoff = {}) (h : Clocked K S InTurn w s past) :
    Waited (guesses past) ∧
    ∀ earlier misses last g later, guesses past = earlier ++ (misses ++ [last]) ++ g :: later →
      (∀ m ∈ misses ++ [last], m.2 = false) → freeAttempts < (misses ++ [last]).length →
      last.1 + min (baseDelay * 2 ^ ((misses ++ [last]).length - 4)) maxDelay ≤ g.1 := by
  have hwaited := h.waited hw
  refine ⟨hwaited, fun earlier misses last g later heq hm hk => ?_⟩
  exact le_of_misses hm hk (hwaited _ g later heq)

/-! ## Runs of the lock screen -/

/-- The answers at an instant of the monotonic clock. -/
def answeringAt (K : Crates) (oracle : (op : Op) → Option (Ans op)) (t : ℕ) (w : World) (pid : ℕ) :
    (op : Op) → Option (Ans op × World)
  | .instant => if w.instant ≤ t then some (t, { w with instant := t }) else none
  | op => answering K oracle w pid op

section Played

variable {oracle : (op : Op) → Option (Ans op)} {c : State → Act → Bool}

theorem exec_answeringAt (t : ℕ) (w : World) (pid : ℕ) (op : Op) (a : Ans op) (w' : World)
    (h : answeringAt K oracle t w pid op = some (a, w')) : (service K S).exec w pid op a w' := by
  cases op with
  | instant =>
      simp only [answeringAt] at h
      split_ifs at h with hle
      cases h
      exact .effect w pid .instant t hle
  | _ => exact exec_answering w pid _ a w' h

theorem clocked_arrivals (hC : ∀ s task, C s (.arrive task)) (tasks : List Task)
    (hext : ∀ task ∈ tasks, external task) :
    Clocked K S C w ⟨w, tasks.map (service K S).fresh⟩ (tasks.map fun task => (0, .arrive task)) := by
  induction tasks using List.reverseRecOn with
  | nil => exact .start
  | append_singleton tasks task ih =>
      have h := ih fun t ht => hext t (List.mem_append_left _ ht)
      simp only [List.map_append, List.map_cons, List.map_nil]
      refine h.step (hC _ task) (.arrive _ task (hext task (by simp))) (fun x hx => ?_)
        fun pid now heq => by cases heq
      obtain ⟨t, -, rfl⟩ := List.mem_map.1 hx
      exact le_refl 0

/-- A play at instants that do not go back is a run with times. -/
theorem Clocked.playWhile {schedule : List (ℕ × ℕ)} {later : List Timed}
    (hc : ∀ s m, c s m = true → C s m) (h : Clocked K S C w s past)
    (hpast : ∀ x ∈ past, ∀ y ∈ schedule, x.1 ≤ y.1)
    (hsorted : schedule.Pairwise fun x y => x.1 ≤ y.1)
    (hplay : Sys.playWhile (service K S) (answeringAt K oracle) c s schedule = some (later, s')) :
    Clocked K S C w s' (past ++ later) := by
  induction schedule generalizing s past later with
  | nil =>
      cases hplay
      rwa [List.append_nil]
  | cons y rest ih =>
      obtain ⟨t, pid⟩ := y
      obtain ⟨op, a, s₁, later', rfl, hs, hanswer, hmet, hrest⟩ :=
        Sys.playWhile_cons exec_answeringAt hplay
      have hread : ∀ pid' now, (.run pid ⟨op, a⟩ : Act) = .run pid' ⟨.instant, now⟩ → now = t := by
        intro pid' now heq
        cases heq
        simp only [answeringAt] at hanswer
        split_ifs at hanswer
        exact (Prod.mk.inj (Option.some.inj hanswer)).1.symm
      have hnext := h.step (hc s _ hmet) hs (fun x hx => hpast x hx _ List.mem_cons_self) hread
      obtain ⟨hfirst, hsorted⟩ := List.pairwise_cons.1 hsorted
      have hrun := ih hnext (fun x hx y hy => ?_) hsorted hrest
      · rwa [List.append_assoc] at hrun
      · rcases List.mem_append.1 hx with hx | hx
        · exact hpast x hx y (List.mem_cons_of_mem _ hy)
        · rw [List.mem_singleton.1 hx]
          exact hfirst y hy

end Played

/-- A wallet that is locked, with a vault that "right" opens. -/
def lockedWorld : World where
  session := ⟨.sepolia, none⟩
  vault := some (some (plainVault "right" ⟨"test", .empty⟩))

/-- The clock of the lock screen's commands shows 0. -/
def lockScreen : (op : Op) → Option (Ans op)
  | .touchActivity | .clock _ => some 0
  | _ => none

/-- The commands that have arrived at the lock screen, then played as scheduled. -/
def atLockScreen (c : State → Act → Bool) (tasks : List Task) (schedule : List (ℕ × ℕ)) :
    Option (List Timed × State) :=
  (Sys.playWhile (service plainCrates plainSetup) (answeringAt plainCrates lockScreen) c
    ⟨lockedWorld, tasks.map (service plainCrates plainSetup).fresh⟩ schedule).map
    fun (later, s) => (tasks.map (fun task => (0, .arrive task)) ++ later, s)

theorem clocked_atLockScreen {c : State → Act → Bool} {tasks : List Task}
    {schedule : List (ℕ × ℕ)} (harr : ∀ s task, C s (.arrive task))
    (hext : ∀ task ∈ tasks, external task) (hc : ∀ s m, c s m = true → C s m)
    (hsorted : schedule.Pairwise fun x y => x.1 ≤ y.1)
    (h : atLockScreen c tasks schedule = some (past, s)) :
    Clocked plainCrates plainSetup C lockedWorld s past := by
  obtain ⟨⟨later, s⟩, hplay, heq⟩ := Option.map_eq_some_iff.1 h
  cases heq
  refine Clocked.playWhile hc (clocked_arrivals harr tasks hext) (fun x hx y _ => ?_) hsorted hplay
  obtain ⟨task, -, rfl⟩ := List.mem_map.1 hx
  exact Nat.zero_le _

/-- Whether no task is at a guess where a move passes the check of the delay. -/
def inTurn (s : State) : Act → Bool
  | .run _ ⟨.backoffCheck _, none⟩ => s.procs.all fun p => stage p.trace = .idle
  | _ => true

theorem inTurn_of_check {m : Act} (h : inTurn s m = true) : InTurn s m := by
  rintro pid now rfl i
  have h : ∀ p ∈ s.procs, stage p.trace = .idle := by simpa [inTurn] using h
  cases hp : s.procs[i]? with
  | none =>
      rw [Sys.traceAt, hp]
      rfl
  | some p =>
      rw [Sys.traceAt_eq hp]
      exact h p (List.mem_of_getElem? hp)

/-- Five wrong passphrases, the right one, and a wrong one for the seed. -/
def lockScreenTasks : List Task :=
  List.replicate 5 (.command (.unlock "wrong")) ++
    [.command (.unlock "right"), .command (.revealSeed "wrong")]

/-- The first four unlocks have read the clock before any of them goes on, and miss one after the
other; the fifth is told to wait. Five seconds after the fourth miss the sixth gets in, and while it
does the seed is asked for. -/
def lockScreenTurns : List (ℕ × ℕ) :=
  [(0, 0), (0, 1), (0, 2), (0, 3)] ++
    (List.range 4).flatMap (fun pid => List.replicate 7 (pid, pid)) ++ [(4, 4), (4, 4)] ++
    List.replicate 3 (3 + baseDelay, 5) ++ [(3 + baseDelay, 6)] ++
    List.replicate 4 (3 + baseDelay, 5) ++ List.replicate 6 (4 + baseDelay, 6)

/-- Four misses in turn and the delay they lead to, the right passphrase at its end, and a command
beside it. -/
theorem guesses_waited_turns : ∃ s past,
    Clocked plainCrates plainSetup InTurn lockedWorld s past ∧
      guesses past = [(0, false), (1, false), (2, false), (3, false), (3 + baseDelay, true),
        (4 + baseDelay, false)] ∧
      Waited (guesses past) ∧
      ∀ earlier misses last g later, guesses past = earlier ++ (misses ++ [last]) ++ g :: later →
        (∀ m ∈ misses ++ [last], m.2 = false) → freeAttempts < (misses ++ [last]).length →
        last.1 + min (baseDelay * 2 ^ ((misses ++ [last]).length - 4)) maxDelay ≤ g.1 := by
  have hguesses : (atLockScreen inTurn lockScreenTasks lockScreenTurns).map
      (fun r => guesses r.1) = some [(0, false), (1, false), (2, false), (3, false),
        (3 + baseDelay, true), (4 + baseDelay, false)] := by
    decide +kernel
  obtain ⟨⟨past, s⟩, h, hpast⟩ := Option.map_eq_some_iff.1 hguesses
  have hext : ∀ task ∈ lockScreenTasks, external task := by
    simp [lockScreenTasks, external]
  have hrun := clocked_atLockScreen (C := InTurn) (fun s task pid now heq => by cases heq) hext
    (fun s m => inTurn_of_check) (by decide) h
  exact ⟨s, past, hrun, hpast, guesses_waited rfl hrun⟩

/-- Unlock commands that all check the delay before any of them tries its passphrase. -/
def rush (n : ℕ) : List (ℕ × ℕ) :=
  ((List.range n).flatMap fun pid => [(0, pid), (0, pid)]) ++
    (List.range n).flatMap fun pid => List.replicate 6 (0, pid)

/-- Five wrong passphrases, all evaluated at once. -/
theorem guesses_rushed : ∃ s past,
    Clocked plainCrates plainSetup (fun _ _ => True) lockedWorld s past ∧ lockedWorld.backoff = {} ∧
      guesses past = List.replicate 5 (0, false) ∧ ¬ Waited (guesses past) := by
  have hguesses : (atLockScreen (fun _ _ => true) (List.replicate 5 (.command (.unlock "wrong")))
      (rush 5)).map (fun r => guesses r.1) = some (List.replicate 5 (0, false)) := by
    decide +kernel
  obtain ⟨⟨past, s⟩, h, hpast⟩ := Option.map_eq_some_iff.1 hguesses
  have hrun := clocked_atLockScreen (C := fun _ _ => True) (fun _ _ => trivial)
    (fun task ht => by rw [List.eq_of_mem_replicate ht]; trivial) (fun _ _ _ => trivial) (by decide) h
  refine ⟨s, past, hrun, rfl, hpast, fun hwaited => ?_⟩
  have hfifth := hwaited (List.replicate 4 (0, false)) (0, false) [] hpast
  exact absurd hfifth (by decide)

end Strkd.Service
