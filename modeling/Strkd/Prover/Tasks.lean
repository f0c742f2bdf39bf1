import Strkd.Lib.System
import Strkd.Prover.Storage

/-!
# Proving tasks

Everything that runs on the shared state of the prover: jobs that are enqueued and proved in the
background, jobs that are proved without a record, and the clearing of the storage.  A step of a task
is one access to the shared state or to the world outside, so taking a job's number and storing the
job are two of them.
-/

namespace Strkd.Prover

open Rpc

/-- An access of a task. -/
inductive TaskOp where
  /-- `self.seq.fetch_add(1)` -/
  | takeSeq
  | nowMs
  /-- The store is locked, the job put in and logged. -/
  | insertJob (job : Job)
  | setStatus (jobId : String) (status : JobStatus)
  | succeed (jobId : String) (result : Json)
  | fail (jobId error : String)
  /-- The backend proves a payload. -/
  | prove (payload : Json) (label : Option String) (network : String)
  | elapsedMs
  | spawn (task : ProveTask)
  | save (record : ProofRecord)
  /-- The names in the storage directory; none when it cannot be read. -/
  | readDir
  | removeFile (name : String)

@[reducible] def TaskAns : TaskOp → Type
  | .takeSeq => U64
  | .nowMs => U128
  | .insertJob _ => Unit
  | .setStatus _ _ => Unit
  | .succeed _ _ => Unit
  | .fail _ _ => Unit
  | .prove _ _ _ => Except String Json
  | .elapsedMs => U128
  | .spawn _ => Unit
  | .save _ => Unit
  | .readDir => List String
  | .removeFile _ => Bool

abbrev Run := Prog TaskOp TaskAns

def act (op : TaskOp) : Run (TaskAns op) := Prog.perform op

/-! ## The code -/

/-- Create a job in `Queued` and return its id. -/
def create (label : Option String) : Run String := do
  let n ← act .takeSeq
  let now ← act .nowMs
  act (.insertJob ⟨jobIdOf n, .queued, now.toNat, label, none, none⟩)
  return jobIdOf n

/-- Enqueue a payload and prove it in the background. -/
def enqueueProve (payload : Json) (label : Option String) (network : String) : Run String := do
  let jobId ← create label
  act (.spawn ⟨jobId, payload, label, network⟩)
  return jobId

/-- The background task: prove, update the job, keep a record. -/
def proveTask (task : ProveTask) : Run Unit := do
  act (.setStatus task.jobId .proving)
  let createdAtMs ← act .nowMs
  let res ← act (.prove task.payload task.label task.network)
  let proveMs ← act .elapsedMs
  let rec' : ProofRecord := {
    jobId := task.jobId
    label := task.label
    network := task.network
    createdAtMs
    proveMs
    status := ""
    payload := task.payload
    proof := none
    error := none }
  match res with
  | .ok proof => do
      act (.succeed task.jobId proof)
      act (.save { rec' with status := "succeeded", proof := some proof })
  | .error e => do
      act (.fail task.jobId e)
      act (.save { rec' with status := "failed", error := some e })

/-- Prove and wait, without persisting anything. -/
def proveUnrecorded (payload : Json) (label : Option String) (network : String) :
    Run (Except String Json) := do
  let jobId ← create label
  act (.setStatus jobId .proving)
  let res ← act (.prove payload label network)
  match res with
  | .ok proof => act (.succeed jobId proof)
  | .error e => act (.fail jobId e)
  return res

/-- Remove the files with the given names; how many were removed. -/
def removeAll (removed : ℕ) : List String → Run ℕ
  | [] => return removed
  | name :: rest => do
      let gone ← act (.removeFile name)
      removeAll (if gone then removed + 1 else removed) rest

/-- Whether a file's extension is `json`; a name that is nothing else has none. -/
def hasJsonExtension (name : String) : Bool :=
  match stripSuffix ".json" name with
  | some stem => stem ≠ ""
  | none => false

/-- Delete all stored records; returns how many were removed. -/
def clear : Run ℕ := do
  let found ← act .readDir
  removeAll 0 (found.filter hasJsonExtension)

/-! ## The prover as a machine -/

inductive ProverTask where
  | enqueue (payload : Json) (label : Option String) (network : String)
  | unrecorded (payload : Json) (label : Option String) (network : String)
  | clear
  /-- A job that was enqueued. -/
  | background (task : ProveTask)

inductive Answered where
  | jobId (id : String)
  | proved (r : Except String Json)
  | removed (n : ℕ)
  | none

def ProverTask.start : ProverTask → Run Answered
  | enqueue payload label network => do return .jobId (← enqueueProve payload label network)
  | unrecorded payload label network => do return .proved (← proveUnrecorded payload label network)
  | clear => do return .removed (← Prover.clear)
  | background task => do
      proveTask task
      return .none

/-- The shared state of a running prover, and its storage directory. -/
structure Shared where
  jobs : Jobs
  dir : Dir

/-- What an access does.  A record may be written in full, in part or not at all; a file that is to
be removed may stay; a directory may be read in part. -/
inductive Access : Shared → (op : TaskOp) → TaskAns op → Shared → Prop
  | takeSeq (w : Shared) : Access w .takeSeq w.jobs.seq { w with jobs := w.jobs.takeSeq.2 }
  | nowMs (w : Shared) (now : U128) : Access w .nowMs now w
  | insertJob (w : Shared) (job : Job) :
      Access w (.insertJob job) () { w with jobs := w.jobs.insert job }
  | setStatus (w : Shared) (jobId : String) (status : JobStatus) :
      Access w (.setStatus jobId status) () { w with jobs := w.jobs.setStatus jobId status }
  | succeed (w : Shared) (jobId : String) (result : Json) :
      Access w (.succeed jobId result) () { w with jobs := w.jobs.succeed jobId result }
  | fail (w : Shared) (jobId error : String) :
      Access w (.fail jobId error) () { w with jobs := w.jobs.fail jobId error }
  | prove (w : Shared) (payload : Json) (label : Option String) (network : String)
      (res : Except String Json) : Access w (.prove payload label network) res w
  | elapsedMs (w : Shared) (ms : U128) : Access w .elapsedMs ms w
  | spawn (w : Shared) (task : ProveTask) : Access w (.spawn task) () w
  | save (w : Shared) (record : ProofRecord) (dir : Dir)
      (h : dir ∈ [w.dir, w.dir.write (fileName record.jobId) none,
        w.dir.write (fileName record.jobId) (some record)]) :
      Access w (.save record) () { w with dir }
  | readDir (w : Shared) (found : List String) (h : found ⊆ w.dir.names) : Access w .readDir found w
  | removeFile (w : Shared) (name : String) (gone : Bool) :
      Access w (.removeFile name) gone { w with dir := if gone then w.dir.remove name else w.dir }

/-- The background task an access leaves behind. -/
def spawned : TaskOp → Option ProverTask
  | .spawn task => some (.background task)
  | _ => none

/-- Jobs arrive from outside, background tasks from jobs.  Any task may be dropped anywhere. -/
def prover : Machine TaskOp TaskAns Shared ProverTask Answered where
  external
    | .background _ => False
    | _ => True
  start := ProverTask.start
  exec w _ op a w' := Access w op a w'
  spawns := spawned
  drops _ _ _ _ := True

abbrev Running := Sys TaskOp TaskAns Shared ProverTask Answered

/-- `build_prover_state`, when `found` was read of the storage directory. -/
def buildProverState (d : Dir) (found : List String) (w : Shared) : Prop :=
  found ⊆ d.names ∧ w = ⟨{ seq := nextSeq found }, d⟩

/-! ## Which job a task holds -/

/-- The job a task holds, and what it has done with it. -/
inductive Hold where
  | nothing
  | taken (jobId : String)
  | queued (jobId : String)
  | proving (jobId : String)
  | ended (jobId : String)
  deriving DecidableEq

def Hold.job : Hold → Option String
  | nothing => none
  | taken jobId | queued jobId | proving jobId | ended jobId => some jobId

def Hold.after (h : Hold) : Event TaskOp TaskAns → Hold
  | ⟨.takeSeq, n⟩ => .taken (jobIdOf n)
  | ⟨.insertJob job, _⟩ => .queued job.jobId
  | ⟨.setStatus jobId _, _⟩ => .proving jobId
  | ⟨.succeed jobId _, _⟩ => .ended jobId
  | ⟨.fail jobId _, _⟩ => .ended jobId
  | ⟨.spawn _, _⟩ => .nothing
  | ⟨.save _, _⟩ => .nothing
  | _ => h

/-- A background task starts with its queued job. -/
def ProverTask.hold : ProverTask → Hold
  | .background task => .queued task.jobId
  | _ => .nothing

def held (task : ProverTask) (tr : List (Event TaskOp TaskAns)) : Hold := tr.foldl Hold.after task.hold

theorem held_append (task : ProverTask) (tr : List (Event TaskOp TaskAns))
    (e : Event TaskOp TaskAns) : held task (tr ++ [e]) = (held task tr).after e := by
  rw [held, held, List.foldl_append]
  rfl

/-- A task works on the job it holds, one step after the other. -/
def Hold.Allows (h : Hold) : TaskOp → Prop
  | .takeSeq => h = .nothing
  | .insertJob job => h = .taken job.jobId ∧ job.status = .queued ∧ job.result = none ∧
      job.error = none
  | .setStatus jobId status => h = .queued jobId ∧ status = .proving
  | .succeed jobId _ => h = .proving jobId
  | .fail jobId _ => h = .proving jobId
  | .spawn task => h = .queued task.jobId
  | .save record => h = .ended record.jobId
  | _ => True

def taskRules (task : ProverTask) : Rules TaskOp TaskAns where
  allows tr op := (held task tr).Allows op
  legal _ _ _ := True

section

variable {task : ProverTask} {tr : List (Event TaskOp TaskAns)} {h : Hold} {α β : Type}

/-- A task that may do an access with what it holds, and goes on with what it holds then. -/
theorem safe_act {op : TaskOp} {f : TaskAns op → Run α}
    {Q : List (Event TaskOp TaskAns) → α → Prop} (htr : held task tr = h) (hop : h.Allows op)
    (hf : ∀ a tr', held task tr' = h.after ⟨op, a⟩ → Safe (taskRules task) tr' (f a) Q) :
    Safe (taskRules task) tr (act op >>= f) Q := by
  refine ⟨?_, fun a _ => hf a _ ?_⟩
  · show (held task tr).Allows op
    rwa [htr]
  · rw [held_append, htr]

/-- What becomes of what a task holds is all that is asked of it in the end. -/
def Leaves (task : ProverTask) (Q : Hold → α → Prop) (tr : List (Event TaskOp TaskAns)) (a : α) :
    Prop := Q (held task tr) a

theorem safe_pure {a : α} {Q : Hold → α → Prop} (htr : held task tr = h) (hq : Q h a) :
    Safe (taskRules task) tr (pure a) (Leaves task Q) := by
  show Q (held task tr) a
  rwa [htr]

theorem safe_create {label : Option String} (htr : held task tr = .nothing) :
    Safe (taskRules task) tr (create label) (Leaves task fun h jobId => h = .queued jobId) :=
  safe_act htr rfl fun _ _ h₁ => safe_act h₁ trivial fun _ _ h₂ =>
    safe_act h₂ ⟨rfl, rfl, rfl, rfl⟩ fun _ _ h₃ => safe_pure h₃ rfl

theorem safe_bind {p : Run α} {f : α → Run β} {P : Hold → α → Prop} {Q : Hold → β → Prop}
    (hp : Safe (taskRules task) tr p (Leaves task P))
    (hf : ∀ a tr' h, held task tr' = h → P h a → Safe (taskRules task) tr' (f a) (Leaves task Q)) :
    Safe (taskRules task) tr (p >>= f) (Leaves task Q) :=
  hp.bind fun tr' a _ ha => hf a tr' _ rfl ha

theorem safe_enqueueProve {payload : Json} {label : Option String} {network : String}
    (htr : held task tr = .nothing) :
    Safe (taskRules task) tr (enqueueProve payload label network) (Leaves task fun _ _ => True) := by
  refine safe_bind (safe_create htr) fun jobId tr' h htr hqueued => ?_
  exact safe_act htr hqueued fun _ _ h₁ => safe_pure h₁ trivial

theorem safe_proveUnrecorded {payload : Json} {label : Option String} {network : String}
    (htr : held task tr = .nothing) :
    Safe (taskRules task) tr (proveUnrecorded payload label network)
      (Leaves task fun _ _ => True) := by
  refine safe_bind (safe_create htr) fun jobId tr' h htr hqueued => ?_
  subst hqueued
  refine safe_act htr ⟨rfl, rfl⟩ fun _ _ h₁ => safe_act h₁ trivial fun res _ h₂ => ?_
  cases res with
  | ok proof => exact safe_act h₂ rfl fun _ _ h₃ => safe_pure h₃ trivial
  | error e => exact safe_act h₂ rfl fun _ _ h₃ => safe_pure h₃ trivial

theorem safe_proveTask {job : ProveTask} (htr : held task tr = .queued job.jobId) :
    Safe (taskRules task) tr (proveTask job) (Leaves task fun _ _ => True) := by
  refine safe_act htr ⟨rfl, rfl⟩ fun _ _ h₁ => safe_act h₁ trivial fun _ _ h₂ =>
    safe_act h₂ trivial fun res _ h₃ => safe_act h₃ trivial fun _ _ h₄ => ?_
  cases res with
  | ok proof => exact safe_act h₄ rfl fun _ _ h₅ => safe_act h₅ rfl fun _ _ h₆ => safe_pure h₆ trivial
  | error e => exact safe_act h₄ rfl fun _ _ h₅ => safe_act h₅ rfl fun _ _ h₆ => safe_pure h₆ trivial

theorem safe_removeAll {removed : ℕ} {names : List String} (htr : held task tr = .nothing) :
    Safe (taskRules task) tr (removeAll removed names) (Leaves task fun _ _ => True) := by
  induction names generalizing removed tr with
  | nil => exact safe_pure htr trivial
  | cons name rest ih => exact safe_act htr trivial fun _ _ h₁ => ih h₁

theorem safe_clear (htr : held task tr = .nothing) :
    Safe (taskRules task) tr clear (Leaves task fun _ _ => True) :=
  safe_act htr trivial fun _ _ h₁ => safe_removeAll h₁

end

/-- Every task keeps to the job it holds. -/
theorem safe_start (task : ProverTask) :
    Safe (taskRules task) [] (prover.start task) (Leaves task fun _ _ => True) := by
  cases task with
  | enqueue payload label network =>
      exact safe_bind (safe_enqueueProve rfl) fun _ _ _ h _ => safe_pure h trivial
  | unrecorded payload label network =>
      exact safe_bind (safe_proveUnrecorded rfl) fun _ _ _ h _ => safe_pure h trivial
  | clear => exact safe_bind (safe_clear rfl) fun _ _ _ h _ => safe_pure h trivial
  | background job => exact safe_bind (safe_proveTask rfl) fun _ _ _ h _ => safe_pure h trivial

end Strkd.Prover
