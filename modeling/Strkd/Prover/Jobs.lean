import Strkd.Core.Felt
import Strkd.Lib.Json

/-!
# Proving jobs

The in-memory store behind the asynchronous prove flow: every job with its status, and the activity
feed.
-/

namespace Strkd.Prover

/-- Lifecycle of a proving job. -/
inductive JobStatus where
  | queued
  | proving
  | succeeded
  | failed
  deriving DecidableEq, Repr

def JobStatus.wireName : JobStatus → String
  | .queued => "queued"
  | .proving => "proving"
  | .succeeded => "succeeded"
  | .failed => "failed"

structure Job where
  jobId : String
  status : JobStatus
  startedAtMs : ℕ
  label : Option String
  /-- The opaque proof, present once succeeded. -/
  result : Option Json
  error : Option String

/-- One entry of the activity feed. -/
structure Activity where
  seq : U64
  jobId : String
  status : JobStatus
  startedAtMs : ℕ
  label : Option String

def optField (key : String) : Option Json → List (String × Json)
  | some v => [(key, v)]
  | none => []

def Job.toJson (j : Job) : Json := .obj <| [
  ("job_id", .str j.jobId), ("status", .str j.status.wireName),
  ("started_at_ms", .int j.startedAtMs)]
  ++ optField "label" (j.label.map .str) ++ optField "result" j.result
  ++ optField "error" (j.error.map .str)

def Activity.toJson (a : Activity) : Json := .obj <| [
  ("seq", .int a.seq.toNat), ("job_id", .str a.jobId), ("status", .str a.status.wireName),
  ("started_at_ms", .int a.startedAtMs)]
  ++ optField "label" (a.label.map .str)

def activityCap : ℕ := 100

/-- The id of the job with a number. -/
def jobIdOf (n : U64) : String := "p" ++ toString n.toNat

/-- The job store. -/
structure Jobs where
  jobs : List Job := []
  activity : List Activity := []
  /-- The counter the next job id is taken from. -/
  seq : U64 := 0

namespace Jobs

/-- Append a job's state to the feed, dropping the oldest entries over the cap. -/
def pushActivity (g : Jobs) (job : Job) : Jobs :=
  let seq := match g.activity.getLast? with
    | some a => a.seq + 1
    | none => 0
  let feed := g.activity ++ [⟨seq, job.jobId, job.status, job.startedAtMs, job.label⟩]
  { g with activity := feed.drop (feed.length - activityCap) }

/-- `self.seq.fetch_add(1)` -/
def takeSeq (g : Jobs) : U64 × Jobs := (g.seq, { g with seq := g.seq + 1 })

/-- Put a new job in the store and log it. -/
def insert (g : Jobs) (job : Job) : Jobs :=
  pushActivity { g with jobs := (g.jobs.filter fun j => j.jobId ≠ job.jobId) ++ [job] } job

/-- Create a queued job; its id is `p` and the counter. -/
def create (g : Jobs) (label : Option String) (nowMs : ℕ) : String × Jobs :=
  let jobId := "p" ++ toString g.seq.toNat
  let job : Job := ⟨jobId, .queued, nowMs, label, none, none⟩
  let others := g.jobs.filter fun j => j.jobId ≠ jobId
  (jobId, pushActivity { g with jobs := others ++ [job], seq := g.seq + 1 } job)

/-- Change a job and log its new state, if it exists. -/
def update (g : Jobs) (jobId : String) (f : Job → Job) : Jobs :=
  match g.jobs.find? fun j => j.jobId = jobId with
  | none => g
  | some job =>
      let jobs := g.jobs.map fun j => if j.jobId = jobId then f j else j
      pushActivity { g with jobs } (f job)

def setStatus (g : Jobs) (jobId : String) (status : JobStatus) : Jobs :=
  g.update jobId fun j => { j with status }

def succeed (g : Jobs) (jobId : String) (result : Json) : Jobs :=
  g.update jobId fun j => { j with status := .succeeded, result := some result }

def fail (g : Jobs) (jobId error : String) : Jobs :=
  g.update jobId fun j => { j with status := .failed, error := some error }

def get (g : Jobs) (jobId : String) : Option Job := g.jobs.find? fun j => j.jobId = jobId

/-- A job is created by taking a number and then, under the lock, storing the job. -/
theorem create_eq (g : Jobs) (label : Option String) (nowMs : ℕ) :
    g.create label nowMs =
      (jobIdOf g.seq, g.takeSeq.2.insert ⟨jobIdOf g.seq, .queued, nowMs, label, none, none⟩) :=
  rfl

/-- The feed, most recent first. -/
def recentActivity (g : Jobs) : List Activity := g.activity.reverse

end Jobs

/-- Per-network STRK20 settings; an empty string means the default. -/
structure Strk20Config where
  pool : String := ""
  starkscanApiKey : String := ""
  depositProverUrl : String := ""
  avnuApiKey : String := ""
  paymasterUrl : String := ""
  deriving DecidableEq, Repr

end Strkd.Prover
