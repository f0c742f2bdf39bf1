import Strkd.Strk20.Remote

/-!
# The relay's outcome is safe to act on

A run against the relay ends with an outcome that the caller may retry under a fresh key
(`Unavailable`, `Other`) or not.  A retry is safe when every job the relay accepted was later
reported as failed or unavailable.  The runs that get this right are those in which no poll fails
or is refused, and none reports a success with a `result` field that holds no result.
-/

namespace Strkd.Strk20.Remote

/-! ## What the exchanges say about the jobs -/

/-- The body of a successful response. -/
def Answer.body? : Answer → Option Json
  | .failure _ => none
  | .response status body => if isSuccess status then some (body.getD .null) else none

/-- The answer to a submission accepts a job. -/
def Answer.jobId (a : Answer) : Option String :=
  a.body?.bind fun v => (v.get? "jobId").bind Json.asStr

/-- The status an answer to a poll reports. -/
def Answer.status (a : Answer) : Option String :=
  a.body?.bind fun v => (v.get? "status").bind Json.asStr

/-- The `result` field of the answer to a poll. -/
def Answer.result (a : Answer) : Option Json := a.body?.bind fun v => v.get? "result"

/-- A field that is there and not null. -/
def given : Option Json → Bool
  | none | some .null => false
  | some _ => true

/-- The answer to a poll carries a result: it is not null, and not declared unavailable. -/
def Answer.hasResult (a : Answer) : Bool :=
  given a.result && !given (a.body?.bind fun v => v.get? "resultUnavailableReason")

/-- A reported success that carries no result although it has the field for it. -/
def Answer.hollow (a : Answer) : Prop :=
  a.status = some "succeeded" ∧ a.result ≠ none ∧ a.hasResult = false

/-- The answer to a poll has a success status, and is not hollow. -/
structure Answer.Tells (a : Answer) : Prop where
  answered : a.body? ≠ none
  full : ¬ a.hollow

def Request.isSubmit : Request → Bool
  | .submit .. => true
  | .poll .. => false

/-- An exchange in which the relay accepts a job. -/
def accepts (x : Request × Answer) (job : String) : Prop :=
  x.1.isSubmit = true ∧ x.2.jobId = some job

/-- An exchange in which a job is reported as failed or unavailable. -/
def settles (c : Call) (x : Request × Answer) (job : String) : Prop :=
  (∃ after, x.1 = .poll after (root c ++ "/" ++ job) c.apiKey) ∧
    (x.2.status = some "failed" ∨ x.2.status = some "unavailable")

/-- A poll after which the job may still have been proved, debited or delivered: it failed, was
answered a non-success status, reported the delivery as unknown, or a success without a result. -/
def lost (x : Request × Answer) : Prop :=
  x.1.isSubmit = false ∧ (x.2.body? = none ∨ x.2.status = some "unknown_delivery" ∨
    x.2.status = some "succeeded" ∧ x.2.hasResult = false)

/-- Outcomes the caller may retry with a fresh key. -/
def retryable : Except RemoteError Json → Prop
  | .error (.unavailable _) => True
  | .error (.other _) => True
  | _ => False

def isDeliveryUnknown : Except RemoteError Json → Prop
  | .error (.deliveryUnknown _) => True
  | _ => False

/-- The outcome of a run is safe to act on, given all that happened in it. -/
structure SafeOutcome (c : Call) (log : List (Request × Answer))
    (outcome : Except RemoteError Json) : Prop where
  retry : retryable outcome → ∀ pre x post job, log = pre ++ x :: post → accepts x job →
    ∃ y ∈ post, settles c y job
  lost : (∃ x ∈ log, lost x) → isDeliveryUnknown outcome

/-- The answer to every poll tells what became of the job. -/
def PollsTell (log : List (Request × Answer)) : Prop :=
  ∀ x ∈ log, x.1.isSubmit = false → x.2.Tells

/-! ## Submissions -/

/-- How many submissions a state has left. -/
def submissionsLeft : State → ℕ
  | .submitting left => left + 1
  | .polling left _ _ => left
  | .done _ => 0

variable {c : Call}

theorem submissionsLeft_step {s : State} {r : Request} (a : Answer) (h : request c s = some r) :
    submissionsLeft (step c s a) + (if r.isSubmit then 1 else 0) ≤ submissionsLeft s := by
  cases s with
  | submitting left =>
    cases h
    show submissionsLeft (submitted c left a) + 1 ≤ left + 1
    unfold submitted
    cases a with
    | failure e => exact Nat.succ_le_succ (Nat.zero_le _)
    | response status body =>
      dsimp only
      split_ifs
      · split <;> simp [submissionsLeft]
      · exact Nat.succ_le_succ (Nat.zero_le _)
  | polling left job wait =>
    cases h
    show submissionsLeft (polled c left job a) ≤ left
    have hre : submissionsLeft (resubmit left) ≤ left := by cases left <;> simp [resubmit, submissionsLeft]
    unfold polled
    cases a with
    | failure e => exact Nat.zero_le _
    | response status body =>
      dsimp only
      split_ifs
      · split
        · split <;> exact Nat.zero_le _
        · exact Nat.zero_le _
        · exact hre
        · exact Nat.zero_le _
        · exact le_rfl
      · exact Nat.zero_le _
  | done outcome => cases h

/-- A run submits no more often than its state allows. -/
theorem length_submits_le (s : State) (answers : List Answer) :
    ((run c s answers).1.filter fun x => x.1.isSubmit).length ≤ submissionsLeft s := by
  induction answers generalizing s with
  | nil => exact Nat.zero_le _
  | cons a answers ih =>
    unfold run
    cases hr : request c s with
    | none => exact Nat.zero_le _
    | some r =>
      have hstep := submissionsLeft_step a hr
      have hrest := ih (step c s a)
      simp only [List.filter_cons]
      split_ifs at hstep ⊢ with hsub
      · rw [List.length_cons]
        omega
      · omega

/-- Every submission carries the call's key and body. -/
theorem submit_eq {s : State} {answers : List Answer} {x : Request × Answer}
    (hx : x ∈ (run c s answers).1) (hsub : x.1.isSubmit = true) :
    x.1 = .submit (root c) c.apiKey c.idempotencyKey (submission c) := by
  induction answers generalizing s with
  | nil => cases hx
  | cons a answers ih =>
    unfold run at hx
    cases hr : request c s with
    | none =>
      rw [hr] at hx
      cases hx
    | some r =>
      rw [hr] at hx
      rcases List.mem_cons.1 hx with rfl | hx
      · cases s with
        | submitting left => exact (Option.some.inj hr).symm
        | polling left job wait =>
          cases hr
          cases hsub
        | done outcome => cases hr
      · exact ih hx

/-! ## The outcome -/

/-- The job a state waits for. -/
def waitsFor : State → Option String
  | .polling _ job _ => some job
  | _ => none

/-- What the caller may rely on at the end of a run from a state: its outcome is safe, and the job
the state waits for was settled if the outcome allows a retry. -/
structure EndsWell (c : Call) (s : State) (log : List (Request × Answer))
    (outcome : Except RemoteError Json) : Prop where
  safe : SafeOutcome c log outcome
  settled : retryable outcome → ∀ job, waitsFor s = some job → ∃ y ∈ log, settles c y job

theorem not_isDeliveryUnknown_starkscanHttpError (status : ℕ) (body : Json) :
    ¬ isDeliveryUnknown (.error (starkscanHttpError c status body)) := by
  unfold starkscanHttpError
  dsimp only
  split_ifs <;> exact id

@[simp] theorem run_done (outcome : Except RemoteError Json) (answers : List Answer) :
    run c (.done outcome) answers = ([], .done outcome) := by
  cases answers <;> rfl

theorem run_cons {s : State} {r : Request} (h : request c s = some r) (a : Answer)
    (answers : List Answer) : run c s (a :: answers) =
      ((r, a) :: (run c (step c s a) answers).1, (run c (step c s a) answers).2) := by
  rw [run, h]

/-- A job the relay accepts is waited for. -/
theorem waitsFor_of_accepts {s : State} {r : Request} {a : Answer} {job : String}
    (h : request c s = some r) (ha : accepts (r, a) job) : waitsFor (step c s a) = some job := by
  obtain ⟨hsub, hjob⟩ := ha
  cases s with
  | submitting left =>
    show waitsFor (submitted c left a) = some job
    unfold submitted
    cases a with
    | failure e => cases hjob
    | response status body =>
      unfold Answer.jobId Answer.body? at hjob
      dsimp only at hjob ⊢
      split_ifs at hjob ⊢
      · rw [Option.bind_some] at hjob
        rw [hjob]
        rfl
      · cases hjob
  | polling left job wait =>
    cases h
    cases hsub
  | done outcome => cases h

/-- After an answered poll the job is still waited for, is settled, or cannot be retried. -/
theorem settled_or_waitsFor {left wait : ℕ} {job : String} {r : Request} {a : Answer}
    (h : request c (.polling left job wait) = some r) (ha : a.body? ≠ none) :
    waitsFor (polled c left job a) = some job ∨ settles c (r, a) job ∨
      ∃ outcome, polled c left job a = .done outcome ∧ ¬ retryable outcome := by
  cases a with
  | failure e => exact absurd rfl ha
  | response status body =>
    by_cases hs : isSuccess status = true
    · have hbody : Answer.body? (.response status body) = some (body.getD .null) := if_pos hs
      have hstatus : Answer.status (.response status body) =
          ((body.getD .null).get? "status").bind Json.asStr := by
        rw [Answer.status, hbody, Option.bind_some]
      unfold polled settles
      dsimp only
      rw [if_pos hs, hstatus]
      split
      · refine .inr (.inr ?_)
        split
        · exact ⟨_, rfl, id⟩
        · exact ⟨_, rfl, id⟩
      · rename_i hst
        cases h
        exact .inr (.inl ⟨⟨_, rfl⟩, .inl hst⟩)
      · rename_i hst
        cases h
        exact .inr (.inl ⟨⟨_, rfl⟩, .inr hst⟩)
      · exact .inr (.inr ⟨_, rfl, id⟩)
      · exact .inl rfl
    · exact absurd (if_neg hs) ha

/-- A poll that tells that the result is lost ends the run as such. -/
theorem deliveryUnknown_of_lost {s : State} {r : Request} {a : Answer}
    (h : request c s = some r) (hl : lost (r, a)) (ha : a.Tells) :
    ∃ m, step c s a = .done (.error (.deliveryUnknown m)) := by
  obtain ⟨hsub, hl⟩ := hl
  cases s with
  | submitting left =>
    cases h
    cases hsub
  | polling left job wait =>
    cases a with
    | failure e => exact absurd rfl ha.answered
    | response status body =>
      by_cases hs : isSuccess status = true
      · have hbody : Answer.body? (.response status body) = some (body.getD .null) := if_pos hs
        have hlost : Answer.status (.response status body) = some "unknown_delivery" ∨
            Answer.status (.response status body) = some "succeeded" ∧
              Answer.result (.response status body) = none := by
          rcases hl with hnone | hst | ⟨hst, hres⟩
          · exact absurd hnone ha.answered
          · exact .inl hst
          · exact .inr ⟨hst, by_contra fun hfield => ha.full ⟨hst, hfield, hres⟩⟩
        unfold Answer.status Answer.result at hlost
        rw [hbody, Option.bind_some, Option.bind_some] at hlost
        unfold step polled
        dsimp only
        rw [if_pos hs]
        rcases hlost with hst | ⟨hst, hnone⟩
        · rw [hst]
          exact ⟨_, rfl⟩
        · rw [hst, hnone]
          exact ⟨_, rfl⟩
      · exact absurd (if_neg hs) ha.answered
  | done outcome => cases h

/-- What one exchange adds to a run that ends well. -/
theorem EndsWell.cons {s : State} {r : Request} {a : Answer} {answers : List Answer}
    {log : List (Request × Answer)} {outcome : Except RemoteError Json}
    (hr : request c s = some r) (ha : r.isSubmit = false → a.Tells)
    (hrun : run c (step c s a) answers = (log, .done outcome))
    (h : EndsWell c (step c s a) log outcome) : EndsWell c s ((r, a) :: log) outcome := by
  have hdone : ∀ o, step c s a = .done o → o = outcome := fun o ho => by
    rw [ho, run_done, Prod.mk.injEq, State.done.injEq] at hrun
    exact hrun.2
  refine ⟨⟨fun hretry pre x post job hlog hacc => ?_, ?_⟩, fun hretry job hjob => ?_⟩
  · cases pre with
    | nil =>
      cases hlog
      exact h.settled hretry job (waitsFor_of_accepts hr hacc)
    | cons y pre =>
      cases hlog
      exact h.safe.retry hretry pre x post job rfl hacc
  · rintro ⟨x, hx, hl⟩
    rcases List.mem_cons.1 hx with rfl | hx
    · obtain ⟨m, hm⟩ := deliveryUnknown_of_lost hr hl (ha hl.1)
      rw [← hdone _ hm]
      exact trivial
    · exact h.safe.lost ⟨x, hx, hl⟩
  · cases s with
    | polling left job' wait =>
      cases hjob
      have hpoll : r.isSubmit = false := by
        cases hr
        rfl
      rcases settled_or_waitsFor hr (ha hpoll).answered with hw | hs | ⟨o, ho, hno⟩
      · obtain ⟨y, hy, hset⟩ := h.settled hretry job hw
        exact ⟨y, .tail _ hy, hset⟩
      · exact ⟨_, .head _, hs⟩
      · exact absurd (hdone o ho ▸ hretry) hno
    | submitting left => cases hjob
    | done o => cases hjob

/-- Every run whose polls tell what became of the job ends well. -/
theorem endsWell_of_pollsTell {s : State} {answers : List Answer}
    {log : List (Request × Answer)} {outcome : Except RemoteError Json}
    (hrun : run c s answers = (log, .done outcome)) (hpolls : PollsTell log) :
    EndsWell c s log outcome := by
  have hnil : ∀ s, waitsFor s = none → EndsWell c s [] outcome := fun s hs =>
    ⟨⟨fun _ pre x post job h => by simp at h, fun ⟨x, hx, _⟩ => by cases hx⟩,
      fun _ job hjob => by rw [hs] at hjob; cases hjob⟩
  induction answers generalizing s log with
  | nil =>
    cases hrun
    exact hnil _ rfl
  | cons a answers ih =>
    cases hr : request c s with
    | none =>
      cases s with
      | done o =>
        rw [run_done] at hrun
        cases hrun
        exact hnil _ rfl
      | submitting left => cases hr
      | polling left job wait => cases hr
    | some r =>
      rw [run_cons hr] at hrun
      obtain ⟨hlog, hend⟩ := Prod.mk.inj hrun
      subst hlog
      have hrest : run c (step c s a) answers =
          ((run c (step c s a) answers).1, .done outcome) := Prod.ext rfl hend
      refine EndsWell.cons hr (hpolls (r, a) (.head _)) hrest (ih hrest fun x hx => ?_)
      exact hpolls x (.tail _ hx)

/-- A poll that does not tell ends the run, and not as a delivery that is unknown. -/
theorem polled_of_not_tells {left : ℕ} {job : String} {a : Answer} (ha : ¬ a.Tells) :
    ∃ o, polled c left job a = .done o ∧ ¬ isDeliveryUnknown o := by
  cases a with
  | failure e => exact ⟨_, rfl, id⟩
  | response status body =>
    by_cases hs : isSuccess status = true
    · have hbody : Answer.body? (.response status body) = some (body.getD .null) := if_pos hs
      have hhollow : Answer.hollow (.response status body) :=
        by_contra fun hfull => ha ⟨by rw [hbody]; exact Option.some_ne_none _, hfull⟩
      obtain ⟨hst, hfield, -⟩ := hhollow
      obtain ⟨result, hresult⟩ := Option.ne_none_iff_exists'.1 hfield
      unfold Answer.status at hst
      unfold Answer.result at hresult
      rw [hbody, Option.bind_some] at hst hresult
      refine ⟨.ok result, ?_, id⟩
      unfold polled
      dsimp only
      rw [if_pos hs, hst, hresult]
      rfl
    · exact ⟨_, if_neg hs, not_isDeliveryUnknown_starkscanHttpError status _⟩

/-- A run in which a poll does not tell ends with another outcome than an unknown delivery. -/
theorem not_isDeliveryUnknown_of_not_tells {s : State} {answers : List Answer}
    {log : List (Request × Answer)} {outcome : Except RemoteError Json}
    (hrun : run c s answers = (log, .done outcome)) {x : Request × Answer} (hx : x ∈ log)
    (hpoll : x.1.isSubmit = false) (htells : ¬ x.2.Tells) : ¬ isDeliveryUnknown outcome := by
  induction answers generalizing s log with
  | nil =>
    cases hrun
    cases hx
  | cons a answers ih =>
    cases hr : request c s with
    | none =>
      rw [run, hr] at hrun
      cases hrun
      cases hx
    | some r =>
      rw [run_cons hr] at hrun
      obtain ⟨hlog, hend⟩ := Prod.mk.inj hrun
      subst hlog
      rcases List.mem_cons.1 hx with rfl | hx
      · cases s with
        | submitting left =>
          cases hr
          cases hpoll
        | polling left job wait =>
          obtain ⟨o, ho, hknown⟩ : ∃ o, polled c left job a = .done o ∧ ¬ isDeliveryUnknown o :=
            polled_of_not_tells htells
          have hrest : run c (polled c left job a) answers = ([], .done o) := by rw [ho, run_done]
          have : State.done o = .done outcome := by
            rw [← hend]
            exact (congrArg Prod.snd hrest).symm
          cases this
          exact hknown
        | done o => cases hr
      · exact ih (Prod.ext rfl hend) hx

/-- What does not tell loses the result. -/
theorem lost_of_not_tells {x : Request × Answer} (hpoll : x.1.isSubmit = false)
    (htells : ¬ x.2.Tells) : lost x := by
  refine ⟨hpoll, ?_⟩
  by_cases hbody : x.2.body? = none
  · exact .inl hbody
  · obtain ⟨hst, -, hres⟩ : x.2.hollow := by_contra fun hfull => htells ⟨hbody, hfull⟩
    exact .inr (.inr ⟨hst, hres⟩)

/-- Every run submits at most five times, always with the same key and body; and a run that ends
has an outcome that is safe to act on if and only if every poll was answered with a success
status, and none reported a success with a field for a result that it does not carry. -/
theorem prove_starkscan_safe (c : Call) (answers : List Answer) :
    ((run c (start c) answers).1.filter fun x => x.1.isSubmit).length ≤ 5 ∧
    (∀ x ∈ (run c (start c) answers).1, x.1.isSubmit = true →
      x.1 = .submit (root c) c.apiKey c.idempotencyKey (submission c)) ∧
    ∀ log outcome, run c (start c) answers = (log, .done outcome) →
      (SafeOutcome c log outcome ↔ PollsTell log) := by
  refine ⟨?_, fun x hx => submit_eq hx, fun log outcome hrun => ⟨fun hsafe x hx hpoll => ?_,
    fun hpolls => (endsWell_of_pollsTell hrun hpolls).safe⟩⟩
  · have hstart : submissionsLeft (start c) ≤ 5 := by
      unfold start
      split_ifs <;> simp [submissionsLeft]
    exact (length_submits_le _ answers).trans hstart
  · by_contra htells
    exact not_isDeliveryUnknown_of_not_tells hrun hx hpoll htells
      (hsafe.lost ⟨x, hx, lost_of_not_tells hpoll htells⟩)

/-- A call on mainnet. -/
def someCall : Call where
  base := "https://api.starkscan.co"
  apiKey := "k"
  chain := .mainnet
  blockNumber := 1
  transaction := .null
  idempotencyKey := "0f"
  statusText := fun status => toString status

/-- A proof, as the prover returns it. -/
def someProof : Json := .obj [("proof", .str "AA=="), ("proof_facts", .arr [.str "0x1"])]

/-- The relay accepts the job `j1`, which is unavailable once, then still runs and then succeeds. -/
def delivered : List Answer := [
  .response 200 (some (.obj [("jobId", .str "j1")])),
  .response 200 (some (.obj [("status", .str "unavailable")])),
  .response 200 (some (.obj [("jobId", .str "j1")])),
  .response 200 (some (.obj [("status", .str "running"), ("pollAfterSeconds", .int 7)])),
  .response 200 (some (.obj [("status", .str "succeeded"), ("result", someProof)]))]

theorem prove_starkscan_safe_delivered : ∃ log, run someCall (start someCall) delivered =
    (log, .done (.ok someProof)) ∧ SafeOutcome someCall log (.ok someProof) := by
  refine ⟨_, rfl, ((prove_starkscan_safe someCall delivered).2.2 _ _ rfl).2 fun x hx hpoll => ?_⟩
  rcases hx with _ | ⟨_, _ | ⟨_, _ | ⟨_, _ | ⟨_, _ | ⟨_, hx⟩⟩⟩⟩⟩
  · cases hpoll
  · exact ⟨Option.some_ne_none _, fun h => absurd h.1 (by decide)⟩
  · cases hpoll
  · exact ⟨Option.some_ne_none _, fun h => absurd h.1 (by decide)⟩
  · exact ⟨Option.some_ne_none _, fun h => absurd h.2.2 (by decide)⟩
  · cases hx

/-! ## A lost poll -/

/-- The relay accepts the job `j1`, and the first poll times out. -/
def lostPoll : List Answer :=
  [.response 200 (some (.obj [("jobId", .str "j1")])), .failure "operation timed out"]

/-- The accepted job is never heard of again, and the caller is told to try again later. -/
theorem lostPoll_unsafe : ∃ log, run someCall (start someCall) lostPoll =
    (log, .done (.error (.unavailable "operation timed out"))) ∧
      ¬ SafeOutcome someCall log (.error (.unavailable "operation timed out")) := by
  refine ⟨_, rfl, fun h => ?_⟩
  refine h.lost ⟨(.poll 5 (root someCall ++ "/" ++ "j1") "k", .failure "operation timed out"), ?_, rfl,
    .inl rfl⟩
  exact .tail _ (.head _)

end Strkd.Strk20.Remote
