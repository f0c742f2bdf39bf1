import Strkd.Lib.Window
import Strkd.Prover.Tasks

/-!
# Jobs over whole runs

Each job goes through its statuses once, and the feed is the end of the list of all status changes,
however the tasks interleave and wherever they are dropped.  The invariant is `Sound`: it relates the
store to the jobs the tasks hold and to the changes seen so far.
-/

namespace Strkd.Prover

open Rpc

/-! ## The store -/

namespace Jobs

variable {g : Jobs} {id : String} {j : Job}

theorem get_eq_some (h : g.get id = some j) : j ∈ g.jobs ∧ j.jobId = id :=
  ⟨List.mem_of_find?_eq_some h, by simpa using List.find?_some h⟩

theorem get_of_mem (hd : (g.jobs.map Job.jobId).Nodup) (hj : j ∈ g.jobs) :
    g.get j.jobId = some j := by
  cases hg : g.get j.jobId with
  | none =>
      have := List.find?_eq_none.1 hg j hj
      simp at this
  | some k =>
      obtain ⟨hk, hid⟩ := get_eq_some hg
      exact congrArg some (List.inj_on_of_nodup_map hd hk hj hid)

@[simp] theorem jobs_pushActivity (job : Job) : (g.pushActivity job).jobs = g.jobs := by
  simp only [pushActivity]

@[simp] theorem seq_pushActivity (job : Job) : (g.pushActivity job).seq = g.seq := by
  simp only [pushActivity]

theorem jobs_insert (job : Job) :
    (g.insert job).jobs = (g.jobs.filter fun k => k.jobId ≠ job.jobId) ++ [job] := by
  rw [insert, jobs_pushActivity]

@[simp] theorem seq_insert (job : Job) : (g.insert job).seq = g.seq := by
  rw [insert, seq_pushActivity]

theorem find?_filter_ne (jobs : List Job) (id' : String) :
    ((jobs.filter fun k => k.jobId ≠ id').find? fun k => k.jobId = id) =
      if id = id' then none else jobs.find? fun k => k.jobId = id := by
  induction jobs with
  | nil => simp
  | cons k jobs ih =>
      by_cases hk : k.jobId = id'
      · rw [List.filter_cons_of_neg (by simp [hk]), ih, List.find?_cons]
        by_cases hid : id = id'
        · simp [hid]
        · simp [hid, hk, Ne.symm hid]
      · rw [List.filter_cons_of_pos (by simp [hk]), List.find?_cons, List.find?_cons, ih]
        by_cases hid : id = id'
        · subst hid
          simp [hk]
        · simp [hid]

theorem get_insert (job : Job) :
    (g.insert job).get id = if id = job.jobId then some job else g.get id := by
  unfold get
  rw [jobs_insert, List.find?_append, find?_filter_ne]
  by_cases hid : id = job.jobId
  · simp [hid]
  · simp [hid, Ne.symm hid]

theorem nodup_insert (hd : (g.jobs.map Job.jobId).Nodup) (job : Job) :
    ((g.insert job).jobs.map Job.jobId).Nodup := by
  rw [jobs_insert, List.map_append, List.nodup_append]
  refine ⟨?_, List.nodup_singleton _, ?_⟩
  · exact hd.sublist (List.filter_sublist.map Job.jobId)
  · intro x hx y hy
    obtain ⟨k, hk, rfl⟩ := List.mem_map.1 hx
    have hne := (List.mem_filter.1 hk).2
    rw [List.map_singleton, List.mem_singleton] at hy
    rw [hy]
    simpa using hne

section

variable {f : Job → Job}

theorem update_of_none (h : g.get id = none) : g.update id f = g := by
  unfold get at h
  rw [update, h]

theorem update_of_get (h : g.get id = some j) : g.update id f =
    pushActivity { g with jobs := g.jobs.map fun k => if k.jobId = id then f k else k } (f j) := by
  unfold get at h
  rw [update, h]

theorem find?_map_update (hf : ∀ k, (f k).jobId = k.jobId) (jobs : List Job) (id' : String) :
    ((jobs.map fun k => if k.jobId = id then f k else k).find? fun k => k.jobId = id') =
      if id' = id then (jobs.find? fun k => k.jobId = id).map f
      else jobs.find? fun k => k.jobId = id' := by
  induction jobs with
  | nil => simp
  | cons k jobs ih =>
      rw [List.map_cons, List.find?_cons, List.find?_cons, List.find?_cons, ih]
      by_cases hk : k.jobId = id <;> by_cases hid : id' = id
      · simp [hk, hid, hf]
      · simp [hk, hid, hf, Ne.symm hid]
      · simp [hk, hid]
      · simp [hk, hid]

theorem get_update (h : g.get id = some j) (hf : ∀ k, (f k).jobId = k.jobId) (id' : String) :
    (g.update id f).get id' = if id' = id then some (f j) else g.get id' := by
  rw [update_of_get h]
  show List.find? _ _ = _
  rw [jobs_pushActivity, find?_map_update hf]
  unfold get at h ⊢
  rw [h, Option.map_some]

theorem nodup_update (hd : (g.jobs.map Job.jobId).Nodup) (h : g.get id = some j)
    (hf : ∀ k, (f k).jobId = k.jobId) : ((g.update id f).jobs.map Job.jobId).Nodup := by
  rw [update_of_get h, jobs_pushActivity, List.map_map]
  convert hd using 2
  funext k
  show (if k.jobId = id then f k else k).jobId = k.jobId
  split_ifs with hk
  · exact hf k
  · rfl

end

end Jobs

/-! ## Status changes -/

/-- A job with the status it got. -/
abbrev Change := String × JobStatus

/-- The jobs of a store that are new or have another status than before, with that status. -/
def changes (g g' : Jobs) : List Change :=
  (g'.jobs.filter fun j => (g.get j.jobId).map Job.status ≠ some j.status).map fun j =>
    (j.jobId, j.status)

/-- The statuses a job got, in order. -/
def statuses (h : List Change) (id : String) : List JobStatus :=
  (h.filter fun c => c.1 = id).map Prod.snd

theorem statuses_append (h h' : List Change) (id : String) :
    statuses (h ++ h') id = statuses h id ++ statuses h' id := by
  rw [statuses, List.filter_append, List.map_append]
  rfl

theorem statuses_singleton (id id' : String) (status : JobStatus) :
    statuses [(id, status)] id' = if id' = id then [status] else [] := by
  by_cases h : id' = id
  · simp [statuses, h]
  · simp [statuses, h, Ne.symm h]

theorem filter_id {jobs : List Job} (hd : (jobs.map Job.jobId).Nodup) {j : Job} (hj : j ∈ jobs) :
    (jobs.filter fun k => k.jobId = j.jobId) = [j] := by
  induction jobs with
  | nil => cases hj
  | cons k jobs ih =>
      rw [List.map_cons, List.nodup_cons] at hd
      obtain ⟨hk, hd⟩ := hd
      rcases List.mem_cons.1 hj with rfl | hj
      · rw [List.filter_cons_of_pos (by simp)]
        congr 1
        rw [List.filter_eq_nil_iff]
        intro l hl hid
        simp only [decide_eq_true_eq] at hid
        exact hk (hid ▸ List.mem_map_of_mem hl)
      · rw [List.filter_cons_of_neg, ih hd hj]
        simp only [decide_eq_true_eq]
        intro hid
        exact hk (hid ▸ List.mem_map_of_mem hj)

/-- Where one job changes, that is the change. -/
theorem changes_one {g g' : Jobs} (hd : (g'.jobs.map Job.jobId).Nodup) {j : Job}
    (hj : g'.get j.jobId = some j) (hnew : (g.get j.jobId).map Job.status ≠ some j.status)
    (hothers : ∀ id, id ≠ j.jobId → g'.get id = g.get id) :
    changes g g' = [(j.jobId, j.status)] := by
  have hfilter : (g'.jobs.filter fun k => (g.get k.jobId).map Job.status ≠ some k.status) =
      g'.jobs.filter fun k => k.jobId = j.jobId := by
    apply List.filter_congr
    intro k hk
    by_cases hid : k.jobId = j.jobId
    · obtain rfl : k = j := by
        have hget := Jobs.get_of_mem hd hk
        rw [hid, hj] at hget
        exact (Option.some.inj hget).symm
      simpa using hnew
    · rw [← hothers _ hid, Jobs.get_of_mem hd hk]
      simp [hid]
  rw [changes, hfilter, filter_id hd (Jobs.get_eq_some hj).1]
  rfl

theorem changes_none {g g' : Jobs} (hd : (g.jobs.map Job.jobId).Nodup) (h : g'.jobs = g.jobs) :
    changes g g' = [] := by
  rw [changes, h, List.filter_eq_nil_iff.2]
  · rfl
  · intro j hj
    rw [Jobs.get_of_mem hd hj]
    simp

/-! ## The feed -/

/-- The changes with their places in the list. -/
def numbered (h : List Change) : List (ℕ × String × JobStatus) := h.zipIdx.map fun c => (c.2, c.1)

theorem numbered_append_singleton (h : List Change) (c : Change) :
    numbered (h ++ [c]) = numbered h ++ [(h.length, c)] := by
  rw [numbered, List.zipIdx_append, List.map_append]
  simp [numbered]

/-- The feed is the end of the list of changes, each numbered by its place. -/
def Told (feed : List Activity) (h : List Change) : Prop :=
  feed.map (fun a => (a.seq.toNat, a.jobId, a.status)) = lastN activityCap (numbered h)

/-- The number of the newest entry leaves room for one more. -/
def FeedRoom (g : Jobs) : Prop := ∀ a, g.activity.getLast? = some a → a.seq.toNat + 1 < 2 ^ 64

theorem Told.last {feed : List Activity} {h : List Change} (ht : Told feed h) :
    (feed.getLast?).map (fun a => a.seq.toNat) = (numbered h).getLast?.map Prod.fst := by
  have hlast := congrArg List.getLast? ht
  rw [getLast?_lastN (by decide), List.getLast?_map] at hlast
  rw [← hlast, Option.map_map]
  rfl

theorem Told.push {g : Jobs} {h : List Change} (ht : Told g.activity h) (hroom : FeedRoom g)
    (job : Job) : Told (g.pushActivity job).activity (h ++ [(job.jobId, job.status)]) := by
  have hlast := ht.last
  have hseq : (g.activity.getLast?.elim (0 : U64) fun a => a.seq + 1).toNat = h.length := by
    cases hg : g.activity.getLast? with
    | none =>
        rw [hg] at hlast
        cases h using List.reverseRecOn with
        | nil => rfl
        | append_singleton h c =>
            rw [numbered_append_singleton, List.getLast?_concat] at hlast
            cases hlast
    | some a =>
        have hlt := hroom a hg
        rw [hg] at hlast
        cases h using List.reverseRecOn with
        | nil => cases hlast
        | append_singleton h c =>
            rw [numbered_append_singleton, List.getLast?_concat] at hlast
            have hn : a.seq.toNat = h.length := Option.some.inj hlast
            show (a.seq + 1).toNat = _
            rw [BitVec.toNat_add, List.length_append, List.length_singleton, ← hn]
            exact Nat.mod_eq_of_lt hlt
  have hpush : (g.pushActivity job).activity = lastN activityCap (g.activity ++
      [⟨g.activity.getLast?.elim 0 fun a => a.seq + 1, job.jobId, job.status, job.startedAtMs,
        job.label⟩]) := by
    unfold Jobs.pushActivity
    cases g.activity.getLast? <;> rfl
  rw [Told, hpush, map_lastN, List.map_append, ht, lastN_append, numbered_append_singleton]
  rw [List.map_singleton, hseq]

/-! ## The invariant -/

/-- The statuses a job goes through to get where it is. -/
def JobStatus.path : JobStatus → List JobStatus
  | .queued => [.queued]
  | .proving => [.queued, .proving]
  | .succeeded => [.queued, .proving, .succeeded]
  | .failed => [.queued, .proving, .failed]

/-- A result comes with success, an error with failure. -/
structure Job.HasOutcome (j : Job) : Prop where
  result : j.result.isSome ↔ j.status = .succeeded
  error : j.error.isSome ↔ j.status = .failed

/-- The id of a number the counter has passed. -/
def Jobs.Used (g : Jobs) (id : String) : Prop := ∃ n : U64, id = jobIdOf n ∧ n.toNat < g.seq.toNat

/-- What the store says of the job a task holds. -/
def Hold.Agrees (g : Jobs) : Hold → Prop
  | .nothing => True
  | .taken id => g.get id = none
  | .queued id => ∃ j, g.get id = some j ∧ j.status = .queued
  | .proving id => ∃ j, g.get id = some j ∧ j.status = .proving
  | .ended id => ∃ j, g.get id = some j

/-- The store, the jobs the tasks hold and the changes so far fit together. -/
structure Sound (g : Jobs) (own : ℕ → Hold) (h : List Change) : Prop where
  distinct : (g.jobs.map Job.jobId).Nodup
  told : ∀ id, statuses h id = ((g.get id).map fun j => j.status.path).getD []
  outcome : ∀ id j, g.get id = some j → j.HasOutcome
  stored : ∀ id j, g.get id = some j → g.Used id
  apart : ∀ i k id, (own i).job = some id → (own k).job = some id → i = k
  used : ∀ i id, (own i).job = some id → g.Used id
  agrees : ∀ i, (own i).Agrees g

theorem Hold.Agrees.congr {g g' : Jobs} {H : Hold} (ha : H.Agrees g)
    (hget : ∀ id, H.job = some id → g'.get id = g.get id) : H.Agrees g' := by
  cases H with
  | nothing => trivial
  | taken id => exact (hget id rfl).trans ha
  | queued id =>
      obtain ⟨j, hj, hstatus⟩ := ha
      exact ⟨j, (hget id rfl).trans hj, hstatus⟩
  | proving id =>
      obtain ⟨j, hj, hstatus⟩ := ha
      exact ⟨j, (hget id rfl).trans hj, hstatus⟩
  | ended id =>
      obtain ⟨j, hj⟩ := ha
      exact ⟨j, (hget id rfl).trans hj⟩

namespace Sound

variable {g g' : Jobs} {own : ℕ → Hold} {h : List Change} {pid : ℕ} {id : String} {H : Hold}

/-- The number the counter stands at is no job's yet. -/
theorem not_used : ¬ g.Used (jobIdOf g.seq) := by
  rintro ⟨n, hn, hlt⟩
  rw [← jobIdOf_inj hn] at hlt
  exact absurd hlt (Nat.lt_irrefl _)

theorem get_seq (hs : Sound g own h) : g.get (jobIdOf g.seq) = none := by
  cases hj : g.get (jobIdOf g.seq) with
  | none => rfl
  | some j => exact absurd (hs.stored _ j hj) not_used

theorem used_takeSeq (hroom : g.seq.toNat + 1 < 2 ^ 64) (hu : g.Used id) : g.takeSeq.2.Used id := by
  obtain ⟨n, hn, hlt⟩ := hu
  refine ⟨n, hn, ?_⟩
  have hseq : (g.seq + 1).toNat = g.seq.toNat + 1 := by
    rw [BitVec.toNat_add]
    exact Nat.mod_eq_of_lt hroom
  show n.toNat < (g.seq + 1).toNat
  omega

/-- A task that holds nothing takes the next number. -/
theorem takeSeq (hs : Sound g own h) (hroom : g.seq.toNat + 1 < 2 ^ 64) :
    Sound g.takeSeq.2 (Function.update own pid (.taken (jobIdOf g.seq))) h := by
  have hnew : g.takeSeq.2.Used (jobIdOf g.seq) := by
    refine ⟨g.seq, rfl, ?_⟩
    show g.seq.toNat < (g.seq + 1).toNat
    rw [BitVec.toNat_add]
    have : (g.seq.toNat + 1) % 2 ^ 64 = g.seq.toNat + 1 := Nat.mod_eq_of_lt hroom
    show g.seq.toNat < (g.seq.toNat + 1) % 2 ^ 64
    omega
  refine ⟨hs.distinct, hs.told, hs.outcome, fun id j hj => used_takeSeq hroom (hs.stored id j hj),
    fun i k id hi hk => ?_, fun i id hi => ?_, fun i => ?_⟩
  · by_cases hip : i = pid <;> by_cases hkp : k = pid
    · rw [hip, hkp]
    · rw [hip, Function.update_self] at hi
      rw [Function.update_of_ne hkp] at hk
      rw [← Option.some.inj hi] at hk
      exact absurd (hs.used k _ hk) not_used
    · rw [hkp, Function.update_self] at hk
      rw [Function.update_of_ne hip] at hi
      rw [← Option.some.inj hk] at hi
      exact absurd (hs.used i _ hi) not_used
    · rw [Function.update_of_ne hip] at hi
      rw [Function.update_of_ne hkp] at hk
      exact hs.apart i k id hi hk
  · by_cases hip : i = pid
    · rw [hip, Function.update_self] at hi
      rw [← Option.some.inj hi]
      exact hnew
    · rw [Function.update_of_ne hip] at hi
      exact used_takeSeq hroom (hs.used i id hi)
  · by_cases hip : i = pid
    · rw [hip, Function.update_self]
      exact hs.get_seq
    · rw [Function.update_of_ne hip]
      exact (hs.agrees i).congr fun _ _ => rfl

/-- What a task holds changes, but not which job it is: nobody else holds it. -/
theorem apart_update (hs : Sound g own h) (hjob : ∀ id, H.job = some id → (own pid).job = some id)
    {i k : ℕ} (hi : (Function.update own pid H i).job = some id)
    (hk : (Function.update own pid H k).job = some id) : i = k := by
  have hback : ∀ i, (Function.update own pid H i).job = some id → (own i).job = some id := by
    intro i hi
    by_cases hip : i = pid
    · rw [hip, Function.update_self] at hi
      rw [hip]
      exact hjob id hi
    · rwa [Function.update_of_ne hip] at hi
  exact hs.apart i k id (hback i hi) (hback k hk)

/-- The task that holds a job moves it one status on. -/
theorem advance (hs : Sound g own h) (hown : (own pid).job = some id) (hH : H.job = some id)
    {j : Job} (hget : ∀ id', g'.get id' = if id' = id then some j else g.get id')
    (hseq : g'.seq = g.seq) (hd : (g'.jobs.map Job.jobId).Nodup)
    (hpath : j.status.path = ((g.get id).map fun j => j.status.path).getD [] ++ [j.status])
    (hout : j.HasOutcome) (hagrees : H.Agrees g') :
    Sound g' (Function.update own pid H) (h ++ [(id, j.status)]) := by
  have hsame : ∀ id', g.Used id' → g'.Used id' := by
    rintro id' ⟨n, hn, hlt⟩
    exact ⟨n, hn, hseq ▸ hlt⟩
  have hjob : ∀ id', H.job = some id' → (own pid).job = some id' := by
    intro id' hid
    rw [hown, ← hH, hid]
  refine ⟨hd, fun id' => ?_, fun id' j' hj' => ?_, fun id' j' hj' => ?_,
    fun i k id' hi hk => hs.apart_update hjob hi hk, fun i id' hi => ?_, fun i => ?_⟩
  · rw [statuses_append, statuses_singleton, hget, hs.told]
    by_cases hid : id' = id
    · rw [if_pos hid, if_pos hid, hid, Option.map_some, Option.getD_some, hpath]
    · rw [if_neg hid, if_neg hid, List.append_nil]
  · rw [hget] at hj'
    split_ifs at hj' with hid
    · rw [← Option.some.inj hj']
      exact hout
    · exact hs.outcome id' j' hj'
  · rw [hget] at hj'
    split_ifs at hj' with hid
    · rw [hid]
      exact hsame id (hs.used pid id hown)
    · exact hsame id' (hs.stored id' j' hj')
  · by_cases hip : i = pid
    · rw [hip, Function.update_self] at hi
      exact hsame id' (hs.used pid id' (hjob id' hi))
    · rw [Function.update_of_ne hip] at hi
      exact hsame id' (hs.used i id' hi)
  · by_cases hip : i = pid
    · rwa [hip, Function.update_self]
    · rw [Function.update_of_ne hip]
      refine (hs.agrees i).congr fun id' hi => ?_
      have hid : id' ≠ id := by
        rintro rfl
        exact hip (hs.apart i pid id' hi hown)
      rw [hget, if_neg hid]

/-- A task lets go of its job, and another task may take it over. -/
theorem hand (hs : Sound g own h) {k : ℕ} (hH : H.Agrees g)
    (hjob : ∀ id, H.job = some id → (own pid).job = some id) :
    Sound g (Function.update (Function.update own pid .nothing) k H) h := by
  have hback : ∀ i id, (Function.update (Function.update own pid .nothing) k H i).job = some id →
      (i = k ∧ (own pid).job = some id) ∨ (i ≠ k ∧ i ≠ pid ∧ (own i).job = some id) := by
    intro i id hi
    by_cases hik : i = k
    · rw [hik, Function.update_self] at hi
      exact Or.inl ⟨hik, hjob id hi⟩
    · rw [Function.update_of_ne hik] at hi
      by_cases hip : i = pid
      · rw [hip, Function.update_self] at hi
        cases hi
      · rw [Function.update_of_ne hip] at hi
        exact Or.inr ⟨hik, hip, hi⟩
  refine ⟨hs.distinct, hs.told, hs.outcome, hs.stored, fun i l id hi hl => ?_, fun i id hi => ?_,
    fun i => ?_⟩
  · rcases hback i id hi with ⟨hik, hi⟩ | ⟨-, hip, hi⟩ <;>
      rcases hback l id hl with ⟨hlk, hl⟩ | ⟨-, hlp, hl⟩
    · rw [hik, hlk]
    · exact absurd (hs.apart l pid id hl hi) hlp
    · exact absurd (hs.apart i pid id hi hl) hip
    · exact hs.apart i l id hi hl
  · rcases hback i id hi with ⟨-, hi⟩ | ⟨-, -, hi⟩
    · exact hs.used pid id hi
    · exact hs.used i id hi
  · by_cases hik : i = k
    · rwa [hik, Function.update_self]
    · rw [Function.update_of_ne hik]
      by_cases hip : i = pid
      · rw [hip, Function.update_self]
        trivial
      · rw [Function.update_of_ne hip]
        exact hs.agrees i

/-- A task lets go of its job. -/
theorem release (hs : Sound g own h) : Sound g (Function.update own pid .nothing) h := by
  have hjob : ∀ id, Hold.nothing.job = some id → (own pid).job = some id :=
    fun _ hid => absurd hid (by simp [Hold.job])
  refine ⟨hs.distinct, hs.told, hs.outcome, hs.stored,
    fun i k id hi hk => hs.apart_update hjob hi hk, fun i id hi => ?_, fun i => ?_⟩
  · by_cases hip : i = pid
    · rw [hip, Function.update_self] at hi
      cases hi
    · rw [Function.update_of_ne hip] at hi
      exact hs.used i id hi
  · by_cases hip : i = pid
    · rw [hip, Function.update_self]
      trivial
    · rw [Function.update_of_ne hip]
      exact hs.agrees i

end Sound

/-! ## The system -/

def holdOf (p : Process TaskOp TaskAns ProverTask Answered) : Hold := held p.task p.trace

/-- The job each task holds, by the task's number. -/
def holds (s : Running) (i : ℕ) : Hold := ((s.procs[i]?).map holdOf).getD .nothing

theorem holds_eq {s : Running} {i : ℕ} {p : Process TaskOp TaskAns ProverTask Answered}
    (h : s.procs[i]? = some p) : holds s i = holdOf p := by
  rw [holds, h]
  rfl

theorem holds_length (s : Running) : holds s s.procs.length = .nothing := by
  rw [holds, List.getElem?_eq_none (Nat.le_refl _)]
  rfl

theorem holds_append (w w' : Shared) (ps : List (Process TaskOp TaskAns ProverTask Answered))
    (q : Process TaskOp TaskAns ProverTask Answered) :
    holds ⟨w, ps ++ [q]⟩ = Function.update (holds ⟨w', ps⟩) ps.length (holdOf q) := by
  funext i
  unfold holds
  rcases Nat.lt_trichotomy i ps.length with hi | rfl | hi
  · rw [Function.update_of_ne (Nat.ne_of_lt hi), List.getElem?_append_left hi]
  · rw [Function.update_self, List.getElem?_concat_length]
    rfl
  · rw [Function.update_of_ne (Nat.ne_of_gt hi), List.getElem?_eq_none (by simp; omega),
      List.getElem?_eq_none (Nat.le_of_lt hi)]

theorem holds_set (w w' : Shared) {ps : List (Process TaskOp TaskAns ProverTask Answered)} {pid : ℕ}
    {p q : Process TaskOp TaskAns ProverTask Answered} (hp : ps[pid]? = some p) :
    holds ⟨w, ps.set pid q⟩ = Function.update (holds ⟨w', ps⟩) pid (holdOf q) := by
  funext i
  unfold holds
  by_cases hi : i = pid
  · subst hi
    rw [Function.update_self, List.getElem?_set_self (List.getElem?_eq_some_iff.1 hp).1]
    rfl
  · rw [Function.update_of_ne hi, List.getElem?_set_ne (Ne.symm hi)]

theorem holdOf_after (p : Process TaskOp TaskAns ProverTask Answered) (op : TaskOp) (a : TaskAns op)
    (rest : Run Answered) : holdOf (p.after op a rest) = (holdOf p).after ⟨op, a⟩ :=
  held_append p.task p.trace ⟨op, a⟩

/-- A step that runs no task changes nothing that is held. -/
theorem holds_of_still {s s' : Running} {m : Move TaskOp TaskAns ProverTask}
    (hs : Sys.Step prover s m s') (hm : ∀ pid e, m ≠ .run pid e) : holds s' = holds s := by
  cases hs with
  | arrive task ht =>
      rw [holds_append s.world s.world]
      have hnothing : holdOf (prover.fresh task) = holds s s.procs.length := by
        rw [holds_length]
        cases task with
        | background job => exact absurd ht id
        | _ => rfl
      rw [hnothing]
      exact Function.update_eq_self _ _
  | run pid p op next a w hp hr hx => exact absurd rfl (hm pid ⟨op, a⟩)
  | drop pid p op next hp hr hd =>
      rw [holds_set s.world s.world hp]
      have hsame : holdOf p.dropped = holds s pid := (holds_eq hp).symm
      rw [hsame]
      exact Function.update_eq_self _ _

/-- A step that runs a task: what the task holds changes, and a background task takes over. -/
theorem holds_of_run {s s' : Running} {pid : ℕ} {op : TaskOp} {a : TaskAns op}
    (hs : Sys.Step prover s (.run pid ⟨op, a⟩) s') :
    pid < s.procs.length ∧ holds s' = match spawned op with
      | none => Function.update (holds s) pid ((holds s pid).after ⟨op, a⟩)
      | some task => Function.update (Function.update (holds s) pid ((holds s pid).after ⟨op, a⟩))
          s.procs.length task.hold := by
  cases hs with
  | run _ p _ next _ w hp hr hx =>
      refine ⟨(List.getElem?_eq_some_iff.1 hp).1, ?_⟩
      have hset : holds ⟨w, s.procs.set pid (p.after op a (next a))⟩ =
          Function.update (holds s) pid ((holds s pid).after ⟨op, a⟩) := by
        rw [holds_set w s.world hp, holdOf_after, holds_eq hp]
      cases hop : spawned op with
      | none =>
          have hnil : prover.spawned op = [] := by
            show (spawned op).toList.map prover.fresh = []
            rw [hop]
            rfl
          rw [hnil, List.append_nil, hset]
      | some task =>
          have hone : prover.spawned op = [prover.fresh task] := by
            show (spawned op).toList.map prover.fresh = _
            rw [hop]
            rfl
          rw [hone, holds_append w w, hset, List.length_set]
          rfl

/-! ## One step -/

/-- The invariant, with the feed where it is followed. -/
structure Ledger (followed : Prop) (g : Jobs) (own : ℕ → Hold) (h : List Change) : Prop where
  sound : Sound g own h
  feed : followed → Told g.activity h

/-- Both counters, of the jobs and of the feed, have room for one more. -/
structure Room (g : Jobs) : Prop where
  seq : g.seq.toNat + 1 < 2 ^ 64
  feed : FeedRoom g

instance (g : Jobs) : Decidable (Room g) :=
  decidable_of_iff
    (g.seq.toNat + 1 < 2 ^ 64 ∧ g.activity.getLast?.all fun a => a.seq.toNat + 1 < 2 ^ 64)
    ⟨fun h => ⟨h.1, fun a ha => by simpa [ha] using h.2⟩,
      fun h => ⟨h.seq, by simpa [Option.all_eq_true, FeedRoom] using h.feed⟩⟩

namespace Ledger

variable {followed : Prop} {g : Jobs} {own : ℕ → Hold} {h : List Change} {pid : ℕ} {id : String} {H : Hold}

/-- A job is put in the store by the task that took its number. -/
theorem insertJob (hl : Ledger followed g own h) (hroom : followed → FeedRoom g) {job : Job}
    (hown : own pid = .taken job.jobId) (hstatus : job.status = .queued) (hresult : job.result = none)
    (herror : job.error = none) :
    Ledger followed (g.insert job) (Function.update own pid (.queued job.jobId))
      (h ++ changes g (g.insert job)) := by
  have hnone : g.get job.jobId = none := by
    have := hl.sound.agrees pid
    rwa [hown] at this
  have hd := Jobs.nodup_insert hl.sound.distinct job
  have hself : (g.insert job).get job.jobId = some job := by
    rw [Jobs.get_insert, if_pos rfl]
  have hchange : changes g (g.insert job) = [(job.jobId, job.status)] := by
    refine changes_one hd hself ?_ fun id hid => ?_
    · rw [hnone]
      exact nofun
    · rw [Jobs.get_insert, if_neg hid]
  have hout : job.HasOutcome :=
    ⟨by rw [hresult, hstatus]; simp, by rw [herror, hstatus]; simp⟩
  rw [hchange]
  constructor
  · refine hl.sound.advance (by rw [hown]; rfl) rfl (fun id' => Jobs.get_insert job)
      (Jobs.seq_insert job) hd ?_ hout ⟨job, hself, hstatus⟩
    rw [hnone, hstatus]
    rfl
  · exact fun hf => (hl.feed hf).push (hroom hf) job

/-- A job is changed by the task that holds it. -/
theorem update (hl : Ledger followed g own h) (hroom : followed → FeedRoom g) (hown : (own pid).job = some id)
    (hH : H.job = some id) {j : Job} (hj : g.get id = some j) {f : Job → Job}
    (hf : ∀ k, (f k).jobId = k.jobId) (hpath : (f j).status.path = j.status.path ++ [(f j).status])
    (hout : (f j).HasOutcome) (hagrees : H.Agrees (g.update id f)) :
    Ledger followed (g.update id f) (Function.update own pid H) (h ++ changes g (g.update id f)) := by
  have hd := Jobs.nodup_update hl.sound.distinct hj hf
  have hid : (f j).jobId = id := (hf j).trans (Jobs.get_eq_some hj).2
  have hself : (g.update id f).get (f j).jobId = some (f j) := by
    rw [Jobs.get_update hj hf, hid, if_pos rfl]
  have hne : j.status ≠ (f j).status := by
    intro heq
    rw [heq] at hpath
    exact absurd (congrArg List.length hpath) (by simp)
  have hchange : changes g (g.update id f) = [(id, (f j).status)] := by
    have hone := changes_one (g := g) hd hself ?_ fun id' hid' => ?_
    · rwa [hid] at hone
    · rw [hid, hj]
      exact fun heq => hne (Option.some.inj heq)
    · rw [Jobs.get_update hj hf, if_neg (hid ▸ hid')]
  have hseq : (g.update id f).seq = g.seq := by
    rw [Jobs.update_of_get hj, Jobs.seq_pushActivity]
  rw [hchange]
  constructor
  · refine hl.sound.advance hown hH (fun id' => Jobs.get_update hj hf id') hseq hd ?_ hout hagrees
    rw [hj, Option.map_some, Option.getD_some, hpath]
  · rw [Jobs.update_of_get hj, ← hid]
    exact fun hf => Told.push (g := { g with jobs := _ }) (hl.feed hf) (hroom hf) (f j)

theorem setStatus (hl : Ledger followed g own h) (hroom : followed → FeedRoom g) (hown : own pid = .queued id) :
    Ledger followed (g.setStatus id .proving) (Function.update own pid (.proving id))
      (h ++ changes g (g.setStatus id .proving)) := by
  have hagrees := hl.sound.agrees pid
  rw [hown] at hagrees
  obtain ⟨j, hj, hstatus⟩ := hagrees
  have hout := hl.sound.outcome id j hj
  have hf : ∀ k : Job, ({ k with status := .proving } : Job).jobId = k.jobId := fun _ => rfl
  refine hl.update hroom (by rw [hown]; rfl) rfl hj hf ?_ ?_ ?_
  · rw [hstatus]
    rfl
  · have hresult := hout.result
    have herror := hout.error
    rw [hstatus] at hresult herror
    exact ⟨by simpa using hresult, by simpa using herror⟩
  · refine ⟨{ j with status := .proving }, ?_, rfl⟩
    rw [Jobs.get_update hj hf, if_pos rfl]

theorem succeed (hl : Ledger followed g own h) (hroom : followed → FeedRoom g) (hown : own pid = .proving id)
    (result : Json) : Ledger followed (g.succeed id result) (Function.update own pid (.ended id))
      (h ++ changes g (g.succeed id result)) := by
  have hagrees := hl.sound.agrees pid
  rw [hown] at hagrees
  obtain ⟨j, hj, hstatus⟩ := hagrees
  have herror := (hl.sound.outcome id j hj).error
  rw [hstatus] at herror
  have hf : ∀ k : Job,
      ({ k with status := .succeeded, result := some result } : Job).jobId = k.jobId := fun _ => rfl
  refine hl.update hroom (by rw [hown]; rfl) rfl hj hf ?_ ?_ ?_
  · rw [hstatus]
    rfl
  · exact ⟨by simp, by simpa using herror⟩
  · refine ⟨{ j with status := .succeeded, result := some result }, ?_⟩
    rw [Jobs.get_update hj hf, if_pos rfl]

theorem fail (hl : Ledger followed g own h) (hroom : followed → FeedRoom g) (hown : own pid = .proving id)
    (error : String) : Ledger followed (g.fail id error) (Function.update own pid (.ended id))
      (h ++ changes g (g.fail id error)) := by
  have hagrees := hl.sound.agrees pid
  rw [hown] at hagrees
  obtain ⟨j, hj, hstatus⟩ := hagrees
  have hresult := (hl.sound.outcome id j hj).result
  rw [hstatus] at hresult
  have hf : ∀ k : Job,
      ({ k with status := .failed, error := some error } : Job).jobId = k.jobId := fun _ => rfl
  refine hl.update hroom (by rw [hown]; rfl) rfl hj hf ?_ ?_ ?_
  · rw [hstatus]
    rfl
  · exact ⟨by simpa using hresult, by simp⟩
  · refine ⟨{ j with status := .failed, error := some error }, ?_⟩
    rw [Jobs.get_update hj hf, if_pos rfl]

end Ledger

/-- What a step shows of the jobs. -/
def seeChanges (s s' : Running) : List Change := changes s.world.jobs s'.world.jobs

/-- A step that leaves the store alone, and what is held too. -/
theorem Ledger.same {followed : Prop} {g g' : Jobs} {own own' : ℕ → Hold} {h : List Change} (hl : Ledger followed g own h)
    (hg : g' = g) (hown : Sound g own' h) : Ledger followed g' own' (h ++ changes g g') := by
  rw [hg, changes_none hl.sound.distinct rfl, List.append_nil]
  exact ⟨hown, hl.feed⟩

theorem Ledger.step {followed : Prop} {s s' : Running} {m : Move TaskOp TaskAns ProverTask} {h : List Change}
    (hsafe : s.Safe taskRules fun task => Leaves task fun _ _ => True)
    (hl : Ledger followed s.world.jobs (holds s) h) (hseq : s.world.jobs.seq.toNat + 1 < 2 ^ 64)
    (hroom : followed → FeedRoom s.world.jobs) (hs : Sys.Step prover s m s') :
    Ledger followed s'.world.jobs (holds s') (h ++ seeChanges s s') := by
  by_cases hm : ∃ pid e, m = .run pid e
  · obtain ⟨pid, ⟨op, a⟩, rfl⟩ := hm
    obtain ⟨hx, ⟨p, next, hp, hr⟩, -, -⟩ := hs.of_run
    obtain ⟨hlt, hholds⟩ := holds_of_run hs
    have hallows : (holds s pid).Allows op := by
      rw [holds_eq hp]
      exact hsafe.allows hp hr
    have hx : Access s.world op a s'.world := hx
    rw [hholds]
    unfold seeChanges
    generalize s'.world = w' at hx
    have hkeep : Function.update (holds s) pid (holds s pid) = holds s :=
      Function.update_eq_self _ _
    cases hx with
    | takeSeq =>
        have hsame : changes s.world.jobs s.world.jobs.takeSeq.2 = [] :=
          changes_none hl.sound.distinct rfl
        have htake : Ledger followed s.world.jobs.takeSeq.2
            (Function.update (holds s) pid (.taken (jobIdOf s.world.jobs.seq))) (h ++ []) := by
          rw [List.append_nil]
          exact ⟨hl.sound.takeSeq hseq, hl.feed⟩
        rw [← hsame] at htake
        exact htake
    | insertJob job =>
        obtain ⟨hown, hstatus, hresult, herror⟩ := hallows
        exact hl.insertJob hroom hown hstatus hresult herror
    | setStatus jobId status =>
        obtain ⟨hown, rfl⟩ := hallows
        exact hl.setStatus hroom hown
    | succeed jobId result => exact hl.succeed hroom hallows result
    | fail jobId error => exact hl.fail hroom hallows error
    | spawn task =>
        have hown : holds s pid = .queued task.jobId := hallows
        refine hl.same rfl (hl.sound.hand ?_ fun id hid => ?_)
        · have := hl.sound.agrees pid
          rwa [hown] at this
        · rw [hown]
          exact hid
    | save record dir hdir => exact hl.same rfl hl.sound.release
    | nowMs now => exact hl.same rfl (hkeep.symm ▸ hl.sound)
    | prove payload label network res => exact hl.same rfl (hkeep.symm ▸ hl.sound)
    | elapsedMs ms => exact hl.same rfl (hkeep.symm ▸ hl.sound)
    | readDir found hfound => exact hl.same rfl (hkeep.symm ▸ hl.sound)
    | removeFile name gone => exact hl.same rfl (hkeep.symm ▸ hl.sound)
  · have hm : ∀ pid e, m ≠ .run pid e := fun pid e heq => hm ⟨pid, e, heq⟩
    have hw := (hs.of_still hm).1
    rw [holds_of_still hs hm]
    exact hl.same (congrArg Shared.jobs hw) hl.sound

/-- A prover that has just started, with its counter anywhere. -/
def JustBuilt (s : Running) : Prop := s.procs = [] ∧ ∃ start dir, s.world = ⟨{ seq := start }, dir⟩

/-- Every step is taken with room in both counters. -/
def Roomy (s : Running) (_ : Move TaskOp TaskAns ProverTask) : Prop := Room s.world.jobs

theorem ledger_justBuilt {followed : Prop} {s : Running} (hs : JustBuilt s) : Ledger followed s.world.jobs (holds s) [] := by
  obtain ⟨hprocs, start, dir, hw⟩ := hs
  have hnothing : ∀ i, holds s i = .nothing := by
    intro i
    rw [holds, hprocs]
    rfl
  rw [hw]
  refine ⟨⟨List.nodup_nil, fun _ => rfl, nofun, nofun, fun i k id hi => ?_, fun i id hi => ?_,
    fun i => ?_⟩, fun _ => rfl⟩
  · rw [hnothing] at hi
    cases hi
  · rw [hnothing] at hi
    cases hi
  · rw [hnothing]
    trivial

theorem safe_reach {init : Running → Prop} {C : Running → Move TaskOp TaskAns ProverTask → Prop}
    {s : Running} (hinit : ∀ s, init s → s.procs = []) (h : Sys.Reach prover init C s) :
    s.Safe taskRules fun task => Leaves task fun _ _ => True :=
  h.safe hinit safe_start fun _ _ _ _ => trivial

theorem ledger_of_observed {s : Running} {h : List Change}
    (ho : Sys.Observed prover JustBuilt Roomy seeChanges s h) :
    Ledger True s.world.jobs (holds s) h := by
  refine ho.invariant (I := fun s h => Ledger True s.world.jobs (holds s) h)
    (fun _ hs => ledger_justBuilt hs) fun s h m s' hreach hl hroom hs => ?_
  exact hl.step (safe_reach (fun _ h => h.1) hreach) hroom.seq (fun _ => hroom.feed) hs

/-! ## What the store tells -/

/-- A job is queued, then proved, and ends once, in success or in failure. -/
def Lifecycle (l : List JobStatus) : Prop :=
  l <+: [.queued, .proving, .succeeded] ∨ l <+: [.queued, .proving, .failed]

/-- The store and the feed tell of every job what happened to it. -/
structure Faithful (g : Jobs) (h : List Change) : Prop where
  /-- The statuses of each job, in order. -/
  lifecycle : ∀ id, Lifecycle (statuses h id)
  current : ∀ id j, g.get id = some j → (statuses h id).getLast? = some j.status
  known : ∀ id, statuses h id ≠ [] → (g.get id).isSome
  outcome : ∀ id j, g.get id = some j → j.HasOutcome
  capped : g.activity.length ≤ activityCap
  consecutive : g.activity.IsChain fun a b => b.seq.toNat = a.seq.toNat + 1
  feed : g.activity.map (fun a => (a.jobId, a.status)) = lastN activityCap h
  /-- The newest entry of a job in the feed. -/
  newest : ∀ id a, (g.activity.reverse.find? fun a => a.jobId = id) = some a →
    ∃ j, g.get id = some j ∧ j.status = a.status

theorem lifecycle_path (status : JobStatus) : Lifecycle status.path := by
  cases status <;> simp [Lifecycle, JobStatus.path, List.prefix_iff_eq_take]

theorem getLast?_path (status : JobStatus) : status.path.getLast? = some status := by
  cases status <;> rfl

theorem fst_numbered (h : List Change) : (numbered h).map Prod.fst = List.range h.length := by
  rw [numbered, List.map_map]
  show h.zipIdx.map Prod.snd = _
  rw [List.zipIdx_map_snd, List.range_eq_range']

theorem snd_numbered (h : List Change) : (numbered h).map Prod.snd = h := by
  rw [numbered, List.map_map]
  exact List.zipIdx_map_fst 0 h

theorem Told.consecutive {feed : List Activity} {h : List Change} (ht : Told feed h) :
    feed.IsChain fun a b => b.seq.toNat = a.seq.toNat + 1 := by
  have hseqs := congrArg (List.map Prod.fst) ht
  rw [List.map_map, map_lastN, fst_numbered] at hseqs
  have hchain : ((List.range h.length).drop (h.length - activityCap)).IsChain
      fun m n => n = m + 1 := by
    rw [List.range_eq_range']
    exact (List.isChain_range' _ _ _).drop _
  rw [lastN, List.length_range] at hseqs
  rw [← hseqs, List.isChain_map] at hchain
  exact hchain

theorem Told.changes {feed : List Activity} {h : List Change} (ht : Told feed h) :
    feed.map (fun a => (a.jobId, a.status)) = lastN activityCap h := by
  have hchanges := congrArg (List.map Prod.snd) ht
  rwa [List.map_map, map_lastN, snd_numbered] at hchanges

/-- The last entry of a job in the kept end of a list is its last entry in the list. -/
theorem getLast?_statuses {h : List Change} {n : ℕ} {id : String} {c : Change}
    (hc : ((lastN n h).reverse.find? fun c => c.1 = id) = some c) :
    (statuses h id).getLast? = some c.2 := by
  obtain ⟨before, hbefore⟩ := lastN_suffix n h
  have hfind : (h.reverse.find? fun c => c.1 = id) = some c := by
    rw [← hbefore, List.reverse_append, List.find?_append, hc, Option.some_or]
  rw [statuses, List.getLast?_map, List.getLast?_eq_head?_reverse, ← List.filter_reverse,
    List.head?_filter, hfind]
  rfl

theorem Ledger.faithful {g : Jobs} {own : ℕ → Hold} {h : List Change}
    (hl : Ledger True g own h) :
    Faithful g h := by
  have hfeed := hl.feed trivial
  have hcurrent : ∀ id j, g.get id = some j → (statuses h id).getLast? = some j.status := by
    intro id j hj
    rw [hl.sound.told, hj, Option.map_some, Option.getD_some]
    exact getLast?_path j.status
  have hknown : ∀ id, statuses h id ≠ [] → ∃ j, g.get id = some j := by
    intro id hne
    cases hj : g.get id with
    | some j => exact ⟨j, rfl⟩
    | none =>
        rw [hl.sound.told, hj] at hne
        exact absurd rfl hne
  refine ⟨fun id => ?_, hcurrent, fun id hne => ?_, hl.sound.outcome, ?_, hfeed.consecutive,
    hfeed.changes, fun id a ha => ?_⟩
  · rw [hl.sound.told]
    cases g.get id with
    | none => exact Or.inl (List.nil_prefix)
    | some j => exact lifecycle_path j.status
  · obtain ⟨j, hj⟩ := hknown id hne
    rw [hj]
    rfl
  · have hlength := congrArg List.length hfeed
    rw [List.length_map, length_lastN] at hlength
    omega
  · have hlast : (statuses h id).getLast? = some a.status := by
      apply getLast?_statuses (n := activityCap) (c := (a.jobId, a.status))
      rw [← hfeed.changes, ← List.map_reverse, List.find?_map]
      show Option.map _ (g.activity.reverse.find? fun a => a.jobId = id) = _
      rw [ha]
      rfl
    obtain ⟨j, hj⟩ := hknown id (by rintro h0; rw [h0] at hlast; cases hlast)
    rw [hcurrent id j hj] at hlast
    exact ⟨j, hj, Option.some.inj hlast⟩

/-- In every run that leaves room in both counters, however its tasks interleave and wherever they
are dropped, the store and the feed tell of every job what happened to it. -/
theorem jobs_faithful {s : Running} {h : List Change}
    (ho : Sys.Observed prover JustBuilt Roomy seeChanges s h) : Faithful s.world.jobs h :=
  (ledger_of_observed ho).faithful

/-! ### When the counter comes round again -/

section

variable {init : Running → Prop} {C : Running → Move TaskOp TaskAns ProverTask → Prop}
variable {w w' : Shared} {ps : List (Process TaskOp TaskAns ProverTask Answered)} {h : List Change}

/-- The task that came last makes an access. -/
theorem step_last {p : Process TaskOp TaskAns ProverTask Answered} {op : TaskOp}
    {next : TaskAns op → Run Answered} {a : TaskAns op} (hr : p.rest = some (.step op next))
    (hx : Access w op a w') : Sys.Step prover ⟨w, ps ++ [p]⟩ (.run ps.length ⟨op, a⟩)
      ⟨w', ps ++ [p.after op a (next a)] ++ prover.spawned op⟩ := by
  have hstep := Sys.Step.run (M := prover) ⟨w, ps ++ [p]⟩ ps.length p op next a w'
    (List.getElem?_concat_length) hr hx
  have hset : (ps ++ [p]).set ps.length (p.after op a (next a)) = ps ++ [p.after op a (next a)] := by
    rw [List.set_append_right _ _ (Nat.le_refl _), Nat.sub_self, List.set_cons_zero]
  rwa [hset] at hstep

/-- The task that came last makes an access that leaves nothing behind. -/
theorem observed_run {p : Process TaskOp TaskAns ProverTask Answered} {op : TaskOp}
    {next : TaskAns op → Run Answered} {a : TaskAns op}
    (ho : Sys.Observed prover init C seeChanges ⟨w, ps ++ [p]⟩ h)
    (hr : p.rest = some (.step op next)) (hx : Access w op a w') (hop : spawned op = none)
    (hc : C ⟨w, ps ++ [p]⟩ (.run ps.length ⟨op, a⟩)) :
    Sys.Observed prover init C seeChanges ⟨w', ps ++ [p.after op a (next a)]⟩
      (h ++ changes w.jobs w'.jobs) := by
  have hnil : prover.spawned op = [] := by
    show (spawned op).toList.map prover.fresh = []
    rw [hop]
    rfl
  have hstep := Sys.Observed.step _ ho hc (step_last hr hx)
  rwa [hnil, List.append_nil] at hstep

theorem observed_arrive (task : ProverTask) (ho : Sys.Observed prover init C seeChanges ⟨w, ps⟩ h)
    (ht : prover.external task) (hd : (w.jobs.jobs.map Job.jobId).Nodup)
    (hc : C ⟨w, ps⟩ (.arrive task)) :
    Sys.Observed prover init C seeChanges ⟨w, ps ++ [prover.fresh task]⟩ h := by
  have harrive := Sys.Observed.step _ ho hc (Sys.Step.arrive ⟨w, ps⟩ task ht)
  rwa [seeChanges, changes_none hd rfl, List.append_nil] at harrive

/-- A number may be taken for a job that is dropped before it is stored. -/
theorem observed_waste (ho : Sys.Observed prover init (fun _ _ => True) seeChanges ⟨w, ps⟩ h)
    (hd : (w.jobs.jobs.map Job.jobId).Nodup) :
    ∃ ps', Sys.Observed prover init (fun _ _ => True) seeChanges
      ⟨{ w with jobs := w.jobs.takeSeq.2 }, ps'⟩ h := by
  have harrive := observed_arrive (.unrecorded .null none "") ho trivial hd trivial
  have htake := observed_run harrive rfl (.takeSeq w) rfl trivial
  have hsame : changes w.jobs w.jobs.takeSeq.2 = [] := changes_none hd rfl
  rw [show ({ w with jobs := w.jobs.takeSeq.2 } : Shared).jobs = w.jobs.takeSeq.2 from rfl, hsame,
    List.append_nil] at htake
  exact ⟨_, htake⟩

theorem observed_wasteMany (n : ℕ)
    (ho : Sys.Observed prover init (fun _ _ => True) seeChanges ⟨w, ps⟩ h)
    (hd : (w.jobs.jobs.map Job.jobId).Nodup) :
    ∃ ps', Sys.Observed prover init (fun _ _ => True) seeChanges
      ⟨{ w with jobs := { w.jobs with seq := w.jobs.seq + BitVec.ofNat 64 n } }, ps'⟩ h := by
  induction n with
  | zero =>
      refine ⟨ps, ?_⟩
      have hzero : w.jobs.seq + BitVec.ofNat 64 0 = w.jobs.seq := BitVec.add_zero _
      rw [hzero]
      exact ho
  | succ n ih =>
      obtain ⟨ps₁, ho₁⟩ := ih
      obtain ⟨ps₂, ho₂⟩ := observed_waste ho₁ hd
      refine ⟨ps₂, ?_⟩
      have hsucc : w.jobs.seq + BitVec.ofNat 64 (n + 1) = w.jobs.seq + BitVec.ofNat 64 n + 1 := by
        rw [BitVec.ofNat_add, ← BitVec.add_assoc]
        rfl
      rw [hsucc]
      exact ho₂

end

/-- A job that is proved without a record, in a prover of its own. -/
theorem jobs_faithful_oneJob : ∃ s h, Sys.Observed prover JustBuilt Roomy seeChanges s h ∧
    statuses h "p0" = [.queued, .proving, .succeeded] ∧ Faithful s.world.jobs h := by
  have hstart : Sys.Observed prover JustBuilt Roomy seeChanges ⟨⟨{}, []⟩, []⟩ [] :=
    .init _ ⟨rfl, 0, [], rfl⟩
  have hroom : Room {} := by decide
  have h₀ := observed_arrive (.unrecorded .null none "") hstart trivial List.nodup_nil hroom
  have h₁ := observed_run h₀ rfl (.takeSeq _) rfl hroom
  have h₂ := observed_run h₁ rfl (.nowMs _ 0) rfl (by unfold Roomy; decide)
  have h₃ := observed_run h₂ rfl (.insertJob _ _) rfl (by unfold Roomy; decide)
  have h₄ := observed_run h₃ rfl (.setStatus _ _ _) rfl (by unfold Roomy; decide)
  have h₅ := observed_run h₄ rfl (.prove _ _ _ _ (.ok .null)) rfl (by unfold Roomy; decide)
  have h₆ := observed_run h₅ rfl (.succeed _ _ _) rfl (by unfold Roomy; decide)
  exact ⟨_, _, h₆, by decide, jobs_faithful h₆⟩

/-- After 2^64 jobs a number is given out again: a job that was being proved is queued again. -/
theorem jobs_unfaithful : ∃ s h, Sys.Observed prover JustBuilt (fun _ _ => True) seeChanges s h ∧
    ¬ Faithful s.world.jobs h := by
  have hstart : Sys.Observed prover JustBuilt (fun _ _ => True) seeChanges ⟨⟨{}, []⟩, []⟩ [] :=
    .init _ ⟨rfl, 0, [], rfl⟩
  -- a job gets to `Proving`
  have h₀ := observed_arrive (.unrecorded .null none "") hstart trivial List.nodup_nil trivial
  have h₁ := observed_run h₀ rfl (.takeSeq _) rfl trivial
  have h₂ := observed_run h₁ rfl (.nowMs _ 0) rfl trivial
  have h₃ := observed_run h₂ rfl (.insertJob _ _) rfl trivial
  have h₄ := observed_run h₃ rfl (.setStatus _ _ _) rfl trivial
  -- the counter comes round to 0
  obtain ⟨ps, h₅⟩ := observed_wasteMany (2 ^ 64 - 1) h₄ (by decide)
  -- and the next job takes its place
  have h₆ := observed_arrive (.unrecorded .null none "") h₅ trivial (by decide) trivial
  have h₇ := observed_run h₆ rfl (.takeSeq _) rfl trivial
  have h₈ := observed_run h₇ rfl (.nowMs _ 0) rfl trivial
  have h₉ := observed_run h₈ rfl (.insertJob _ _) rfl trivial
  refine ⟨_, _, h₉, fun hf => ?_⟩
  have hlife := hf.lifecycle "p0"
  revert hlife
  unfold Lifecycle
  decide

end Strkd.Prover
