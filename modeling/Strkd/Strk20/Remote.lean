import Strkd.Core.Felt
import Strkd.Lib.Json

/-!
# Proving deposits remotely

`prove_starkscan` submits the proof invocation to Starkscan's relay with an idempotency key, polls
the job the relay answers with, and resubmits when the relay reports it unavailable.  It is modelled
as a state machine over the answers of the relay: `request` is what it sends in a state and `step`
what it does with the answer.
-/

namespace Strkd.Strk20.Remote

/-- A deposit prover's failure. -/
inductive RemoteError where
  /-- The screener refused the depositor. Resubmitting unchanged won't help. -/
  | screeningRejected (message : String)
  /-- Screening or the prover is temporarily unavailable. -/
  | unavailable (message : String)
  /-- The relay may have proved it but the result is lost; don't resubmit. -/
  | deliveryUnknown (message : String)
  | other (message : String)
  deriving DecidableEq, Repr

def RemoteError.display : RemoteError → String
  | screeningRejected m => s!"deposit screening rejected the depositor: {m}"
  | unavailable m => s!"deposit prover unavailable, try again later: {m}"
  | deliveryUnknown m =>
      s!"the deposit prover's result was lost; do not resubmit before checking: {m}"
  | other m => s!"deposit prover error: {m}"

/-- Map a JSON-RPC prover error. Code 10000 is overloaded; only the proof interceptor's exact
reasons are verdicts. -/
def classifyRpcError (err : Json) : RemoteError :=
  let code := (err.get? "code").bind Json.asI64
  let data := ((err.get? "data").bind Json.asStr).getD ""
  let text := err.render
  if code = some 10000 ∧ data = "address_blocked" then .screeningRejected "address_blocked"
  else if code = some 10000 ∧
      (data = "screening_unavailable" ∨ data = "screening_policy_unavailable") then
    .unavailable data
  else if code = some (-32005) then .unavailable text
  else .other text

def chainSlug : ChainId → String
  | .mainnet => "SN_MAIN"
  | .sepolia => "SN_SEPOLIA"

/-! ## The relay -/

/-- What the run is started with; `statusText` is how the HTTP library prints a status code. -/
structure Call where
  base : String
  apiKey : String
  chain : ChainId
  blockNumber : ℕ
  transaction : Json
  idempotencyKey : String
  statusText : ℕ → String

/-- An answer of the relay: a transport failure, or a response whose body may not be JSON. -/
inductive Answer where
  | failure (error : String)
  | response (status : ℕ) (body : Option Json)

inductive Request where
  | submit (url apiKey idempotencyKey : String) (body : Json)
  /-- Poll a job, after a number of seconds. -/
  | poll (after : ℕ) (url apiKey : String)

inductive State where
  /-- About to submit, with `left` more submissions after this one. -/
  | submitting (left : ℕ)
  /-- About to poll `job`, after `wait` seconds. -/
  | polling (left : ℕ) (job : String) (wait : ℕ)
  | done (outcome : Except RemoteError Json)

variable (c : Call)

/-- `base.trim_end_matches('/')` and the relay's path. -/
def root : String :=
  String.ofList (c.base.toList.reverse.dropWhile (· = '/')).reverse ++ "/v1/" ++ chainSlug c.chain
    ++ "/prove"

def submission : Json := .obj [
  ("block_id", .obj [("block_number", .int c.blockNumber)]), ("transaction", c.transaction)]

/-- What is sent in a state, if it is not done. -/
def request : State → Option Request
  | .submitting _ => some (.submit (root c) c.apiKey c.idempotencyKey (submission c))
  | .polling _ job wait => some (.poll (max 1 (min wait 30)) (root c ++ "/" ++ job) c.apiKey)
  | .done _ => none

def isSuccess (status : ℕ) : Bool := 200 ≤ status ∧ status < 300

def starkscanHttpError (status : ℕ) (body : Json) : RemoteError :=
  let what := ((body.get? "error").getD body).render
  let text := c.statusText status
  if status = 401 then .other s!"Starkscan rejected the API key ({what})"
  else if status = 403 then .other ("the Starkscan API key lacks the `prove` scope (" ++ what ++ ")")
  else if status = 404 then .unavailable s!"Starkscan's STRK20 relay is not enabled ({what})"
  else if status = 429 ∨ status = 503 then .unavailable s!"HTTP {text}: {what}"
  else .other s!"HTTP {text}: {what}"

def pollAfter (body : Json) : ℕ := ((body.get? "pollAfterSeconds").bind Json.asU64).getD 5

/-- The answer to a submission. -/
def submitted (left : ℕ) : Answer → State
  | .failure e => .done (.error (.unavailable e))
  | .response status body =>
      let v := body.getD .null
      if isSuccess status then
        match (v.get? "jobId").bind Json.asStr with
        | some job => .polling left job (pollAfter v)
        | none => .done (.error (.other ("no jobId in " ++ v.render)))
      else .done (.error (starkscanHttpError c status v))

/-- The next submission, if one is left. -/
def resubmit : ℕ → State
  | 0 => .done (.error (.unavailable "Starkscan kept reporting the prover unavailable"))
  | left + 1 => .submitting left

/-- The answer to a poll of `job`. -/
def polled (left : ℕ) (job : String) : Answer → State
  | .failure e => .done (.error (.unavailable e))
  | .response status body =>
      let v := body.getD .null
      if isSuccess status then
        match (v.get? "status").bind Json.asStr with
        | some "succeeded" =>
            match v.get? "result" with
            | some result => .done (.ok result)
            | none =>
                let reason := ((v.get? "resultUnavailableReason").getD .null).render
                .done (.error (.deliveryUnknown s!"job {job} succeeded but carried no result ({reason})"))
        | some "failed" => .done (.error (classifyRpcError ((v.get? "error").getD .null)))
        | some "unavailable" => resubmit left
        | some "unknown_delivery" =>
            .done (.error (.deliveryUnknown s!"job {job}: prover_delivery_unknown"))
        | _ => .polling left job (pollAfter v)
      else .done (.error (starkscanHttpError c status v))

def step : State → Answer → State
  | .submitting left, a => submitted c left a
  | .polling left job _, a => polled c left job a
  | .done outcome, _ => .done outcome

/-- At most five submissions, on mainnet only. -/
def start : State :=
  if c.chain = .mainnet then .submitting 4
  else .done (.error (.other "Starkscan's STRK20 prover is mainnet-only"))

/-- The exchanges of a run from a state with the given answers, and the state it ends in. -/
def run : State → List Answer → List (Request × Answer) × State
  | s, [] => ([], s)
  | s, a :: answers =>
      match request c s with
      | none => ([], s)
      | some r => ((r, a) :: (run (step c s a) answers).1, (run (step c s a) answers).2)

end Strkd.Strk20.Remote
