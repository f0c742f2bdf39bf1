import Strkd.Service.Commands
import Strkd.Service.Requests

/-!
# The service as a whole

Every task keeps its rule book in every run: the requests that of their method, the commands of the
window theirs, and the proving tasks, which touch nothing but the job store.
-/

namespace Strkd.Service

open Wallet Prover Rpc

variable {K : Crates} {S : Setup}

/-- What a proving task may do. -/
def provingRules : Rules Op Ans where
  allows _ op := quiet op = true
  legal _ _ _ := True

def taskRules (K : Crates) (S : Setup) : Task → Rules Op Ans
  | .request _ req => requestRules K req.method
  | .command _ => commandRules K S
  | .proving _ => provingRules

/-- How a task ends: a request with its record. -/
def Finished : Task → Trace → Reply → Prop
  | .request _ req, tr, _ => Recorded req tr
  | _, _, _ => True

theorem legal_taskRules (task : Task) (tr : Trace) (op : Op) (a : Ans op) :
    (taskRules K S task).legal tr op a := by
  cases task <;> trivial

theorem safe_proveInBackground {task : ProveTask} {tr : Trace} :
    Safe provingRules tr (proveInBackground task) fun _ _ => True := by
  refine ⟨rfl, fun _ _ => ⟨rfl, fun _ _ => ⟨rfl, fun res _ => ⟨rfl, fun _ _ => ?_⟩⟩⟩⟩
  cases res with
  | ok proof => exact ⟨rfl, fun _ _ => ⟨rfl, fun _ _ => trivial⟩⟩
  | error e => exact ⟨rfl, fun _ _ => ⟨rfl, fun _ _ => trivial⟩⟩

theorem safe_start (task : Task) :
    Safe (taskRules K S task) [] (task.start K S) (Finished task) := by
  cases task with
  | request token req => exact Safe.bind safe_dispatch fun _ _ _ h => h
  | command c =>
      exact Safe.bind (p := (c.run K S).run) (done_run c rfl rfl) fun _ _ _ _ => trivial
  | proving task => exact Safe.bind safe_proveInBackground fun _ _ _ _ => trivial

/-- A service that has just started, in world `w`. -/
def Starts (w : World) (s : State) : Prop := s = ⟨w, []⟩

theorem Starts.procs {w : World} {s : State} (h : Starts w s) : s.procs = [] := by rw [h]

variable {init : State → Prop} {C : State → Act → Prop} {s : State}

/-- In every state reached every task keeps its rule book. -/
theorem safe_reach (h : Sys.Reach (service K S) init C s) (hinit : ∀ s, init s → s.procs = []) :
    s.Safe (taskRules K S) Finished :=
  h.safe hinit safe_start legal_taskRules

/-- No rules at all. -/
def noRules : Rules Op Ans := ⟨fun _ _ => True, fun _ _ _ => True⟩

theorem safe_noRules {α : Type} {tr : Trace} {p : Prog Op Ans α} {Q : Trace → α → Prop}
    (hQ : ∀ tr a, Q tr a) : Safe noRules tr p Q := by
  induction p generalizing tr with
  | pure a => exact hQ tr a
  | step op next ih => exact ⟨trivial, fun a _ => ih a⟩

/-! ## Playing the service -/

/-- The answer the world determines, where it does, and else the oracle's. The monotonic clock
stands still. -/
def respond (K : Crates) (oracle : (op : Op) → Option (Ans op)) (w : World) (pid : ℕ) :
    (op : Op) → Option (Ans op)
  | .verify token => some (w.clients.verify K token)
  | .findId name kind => some (w.clients.findId name kind)
  | .reattach _ _ | .pair _ _ => none
  | .grant id _ | .revokeGrant id | .revoke id => some (w.clients.has id)
  | .session => if w.free pid then some w.session else none
  | .acquireSession => if w.holder = none then some () else none
  | .releaseSession => if w.holder = some pid then some () else none
  | .setChain _ | .rollbackAccount _ | .lockSession | .installSession _ =>
      if w.free pid then some () else none
  | .signTypedData a doc => if w.free pid then some (w.session.signTypedDataFor K a doc) else none
  | .signInvoke a calls chain p =>
      if w.free pid then some (w.session.signInvokeFor K a calls chain p) else none
  | .signDeclare a classHash compiled chain p =>
      if w.free pid then some (w.session.signDeclareFor K a classHash compiled chain p) else none
  | .signDeployAccount a chain p =>
      if w.free pid then some (w.session.signDeployAccountFor K a chain p) else none
  | .signHash a hash => if w.free pid then some (w.session.signHashFor K a hash) else none
  | .viewingKey a chain pool =>
      if w.free pid then some (w.session.strk20ViewingKeyFor K a chain pool) else none
  | .createAgentAccount id label =>
      if w.free pid then some ((w.session.createAgentAccount K id label).map Prod.fst) else none
  | .createUserAccount label =>
      if w.free pid then some ((w.session.createUserAccount K label).map Prod.fst) else none
  | .unlockSession vault passphrase =>
      if w.free pid then some ((w.session.unlock K vault passphrase).map fun _ => ()) else none
  | .reveal vault passphrase =>
      if w.free pid then some (w.session.revealForSession K vault passphrase) else none
  | .takeMnemonic => some w.onboarding
  | .loadVault => some w.loaded
  | .renameTmp => if w.tmp = none then none else some (.ok ())
  | .renameToBackup _ => if w.vault = none then none else some (.ok ())
  | .instant => some w.instant
  | .backoffCheck now => some (w.backoff.check now)
  | .lastActivity => some w.lastActivity
  | .readSettings => some w.settings
  | .createJob label now => some (w.jobs.create label now).1
  | .getJob id => some (w.jobs.get id)
  | .recentActivity => some w.jobs.recentActivity
  | .addWatchedAsset _ | .stageMnemonic _ | .backoffFailure _ | .backoffSuccess | .setJobStatus _ _
  | .succeedJob _ _ | .failJob _ _ | .spawnProve _ | .saveProof _ => some ()
  | .record _ => some true
  | op => oracle op

theorem answers_of_respond {oracle : (op : Op) → Option (Ans op)} {w : World} {pid : ℕ} {op : Op}
    {a : Ans op} (h : respond K oracle w pid op = some a) : w.Answers K pid op a := by
  have hsome : ∀ {α : Type} {x y : α}, some x = some y → y = x := fun h => (Option.some.inj h).symm
  have hfree : ∀ {α : Type} {p : Prop} [Decidable p] {x y : α},
      (if p then some x else none) = some y → p ∧ y = x := by
    intro α p _ x y h
    split_ifs at h with hp
    exact ⟨hp, hsome h⟩
  cases op with
  | reattach name kind => cases h
  | pair label kind => cases h
  | acquireSession => exact (hfree h).1
  | releaseSession => exact (hfree h).1
  | setChain chain => exact (hfree h).1
  | rollbackAccount address => exact (hfree h).1
  | lockSession => exact (hfree h).1
  | installSession s => exact (hfree h).1
  | loadVault => exact Or.inl (hsome h)
  | readSettings => exact Or.inl (hsome h)
  | renameTmp =>
      simp only [respond] at h
      split_ifs at h with htmp
      exact fun _ => htmp
  | renameToBackup name =>
      simp only [respond] at h
      split_ifs at h with hvault
      exact fun _ => hvault
  | instant => exact le_of_eq (hsome h).symm
  | _ => first | exact hsome h | exact hfree h | trivial

/-- Answer, and have the effect. -/
def answering (K : Crates) (oracle : (op : Op) → Option (Ans op)) (w : World) (pid : ℕ) (op : Op) :
    Option (Ans op × World) :=
  (respond K oracle w pid op).map fun a => (a, w.effect K pid op a)

theorem exec_answering {oracle : (op : Op) → Option (Ans op)} (w : World) (pid : ℕ) (op : Op)
    (a : Ans op) (w' : World) (h : answering K oracle w pid op = some (a, w')) :
    (service K S).exec w pid op a w' := by
  obtain ⟨b, hb, heq⟩ := Option.map_eq_some_iff.1 h
  cases heq
  exact .effect w pid op _ (answers_of_respond hb)

/-- A play of tasks that arrived one after the other is a run. -/
theorem reach_tasks {oracle : (op : Op) → Option (Ans op)} {w : World} {tasks : List Task}
    {pids : List ℕ} {moves : List Act} (harr : ∀ s task, C s (.arrive task))
    (hrun : ∀ s pid op a, respond K oracle s.world pid op = some a → C s (.run pid ⟨op, a⟩))
    (hext : ∀ task ∈ tasks, external task)
    (h : Sys.play (service K S) (answering K oracle) ⟨w, tasks.map (service K S).fresh⟩ pids =
      some (moves, s)) : Sys.Reach (service K S) (Starts w) C s := by
  have hbegin : Starts w ⟨w, []⟩ := rfl
  have hstart : Sys.Reach (service K S) (Starts w) C ⟨w, tasks.map (service K S).fresh⟩ :=
    .arrivals hbegin harr hext
  refine hstart.play (fun s pid op a w' ha => ?_) exec_answering h
  obtain ⟨b, hb, heq⟩ := Option.map_eq_some_iff.1 ha
  cases heq
  exact hrun s pid op _ hb

end Strkd.Service
