import Strkd.Rpc.Error

/-!
# The approval bridge

`request_approval` sends a prompt through a bounded queue and waits on a one-shot channel.  The
bridge numbers each prompt it takes from the queue, files the sender under the number, shows the
prompt and starts its timer.  `respond_approval` and the timer both take the sender out of the map.
A step of the bridge is one access to what the parties share.
-/

namespace Strkd.Desktop

open Rpc

/-- A prompt handed to the UI: the request, and the call that waits at the other end of the
one-shot channel. -/
structure PendingApproval where
  request : ApprovalRequest
  respond : ℕ
  deriving DecidableEq, Repr

/-- Where a `request_approval` call stands. -/
inductive CallPhase where
  /-- The prompt is not in the queue yet. -/
  | sending
  /-- No decision was sent, and the sender is alive. -/
  | waiting
  /-- A decision was sent and is not read yet. -/
  | answered (decision : Decision)
  /-- The sender is gone, no decision was sent. -/
  | abandoned
  | returned (decision : Decision)
  /-- The request was dropped while it waited. -/
  | dropped
  deriving DecidableEq, Repr

namespace CallPhase

/-- `Sender::send`; the decision is lost if nobody waits for it. -/
def send (decision : Decision) : CallPhase → CallPhase
  | waiting => answered decision
  | phase => phase

/-- The sender is dropped without a decision. -/
def hangUp : CallPhase → CallPhase
  | waiting => abandoned
  | phase => phase

/-- What `answer.await.unwrap_or(Decision::Reject)` gives, once it completes. -/
def outcome : CallPhase → Option Decision
  | answered decision => some decision
  | abandoned => some .reject
  | _ => none

/-- What the call returns, or will return once it is polled. -/
def decision : CallPhase → Option Decision
  | answered decision => some decision
  | abandoned => some .reject
  | returned decision => some decision
  | _ => none

/-- The call is still there to be dropped. -/
def alive : CallPhase → Bool
  | returned _ => false
  | dropped => false
  | _ => true

end CallPhase

/-- A `request_approval` call. -/
structure Call where
  request : ApprovalRequest
  phase : CallPhase
  deriving DecidableEq, Repr

/-- Where the loop of the bridge stands. -/
inductive Bridge where
  /-- In `rx.recv()`. -/
  | idle
  | received (p : PendingApproval)
  /-- The prompt has its number and is not filed yet. -/
  | numbered (id : U64) (p : PendingApproval)
  /-- The prompt is filed and has no timer yet. -/
  | delivered (id : U64)
  /-- The receiver is gone. -/
  | stopped
  deriving DecidableEq, Repr

/-- The prompt the bridge holds. -/
def Bridge.hand : Bridge → List PendingApproval
  | received p => [p]
  | numbered _ p => [p]
  | _ => []

/-- The 60-second timer of a prompt: once it has fired, whether it found the prompt pending. -/
structure Timer where
  id : U64
  fired : Option Bool
  deriving DecidableEq, Repr

/-- Where a `respond_approval` command stands. -/
inductive CommandPhase where
  /-- The sender of a call is out of the map, the decision is not sent yet. -/
  | removed (tx : ℕ)
  | returned (r : Except String Unit)
  deriving Repr

/-- A `respond_approval` command. -/
structure RespondApproval where
  id : U64
  approved : Bool
  phase : CommandPhase
  deriving Repr

/-- The command found the prompt pending: it returned `Ok` or is about to. -/
def RespondApproval.found (c : RespondApproval) : Bool :=
  match c.phase with
  | .removed _ => true
  | .returned (.ok ()) => true
  | .returned (.error _) => false

/-- Who took a prompt out of the map. -/
inductive Answer where
  | responded (approved : Bool)
  | timedOut
  deriving DecidableEq, Repr

/-- The parties and what they share; the last three fields record what happened. -/
structure Approvals where
  calls : List Call := []
  queue : List PendingApproval := []
  bridge : Bridge := .idle
  nextId : U64 := 1
  /-- The senders filed under the numbers of their prompts. -/
  pending : U64 → Option ℕ := fun _ => none
  timers : List Timer := []
  commands : List RespondApproval := []
  /-- The prompts that got a number. -/
  prompts : List (U64 × PendingApproval) := []
  /-- The prompts that were filed. -/
  delivered : List (U64 × PendingApproval) := []
  /-- The prompts that were taken out of the map. -/
  answers : List (U64 × Answer) := []

/-- What can happen next. -/
inductive ApprovalMove where
  | call (request : ApprovalRequest)
  | send (n : ℕ)
  | finish (n : ℕ)
  | dropCall (n : ℕ)
  | receive
  | number
  | deliver
  | startTimer
  | fire (t : ℕ)
  | respond (id : U64) (approved : Bool)
  | resolve (c : ℕ)
  | shutdown
  deriving DecidableEq, Repr

def noPendingApproval : String := "no pending approval with that id (it may have timed out)"

namespace Approvals

/-- Change where a call stands. -/
def onCall (calls : List Call) (n : ℕ) (f : CallPhase → CallPhase) : List Call :=
  calls.modify n fun c => { c with phase := f c.phase }

/-- Drop the senders of prompts nobody will see. -/
def hangUp (calls : List Call) (ps : List PendingApproval) : List Call :=
  ps.foldl (fun calls p => onCall calls p.respond .hangUp) calls

variable (buffer : ℕ) (s : Approvals)

/-- `tx.send(pending).await`: it waits while the queue is full and fails once the receiver is
gone. -/
def send (n : ℕ) : Option Approvals :=
  match s.calls[n]? with
  | some ⟨request, .sending⟩ =>
      if s.bridge = .stopped then
        some { s with calls := onCall s.calls n fun _ => .returned .reject }
      else if s.queue.length < buffer then
        some { s with
          calls := onCall s.calls n fun _ => .waiting
          queue := s.queue ++ [⟨request, n⟩] }
      else none
  | _ => none

/-- `answer.await` completes. -/
def finish (n : ℕ) : Option Approvals :=
  match s.calls[n]? with
  | some c => c.phase.outcome.map fun d =>
      { s with calls := onCall s.calls n fun _ => .returned d }
  | none => none

def dropCall (n : ℕ) : Option Approvals :=
  match s.calls[n]? with
  | some c =>
      if c.phase.alive then some { s with calls := onCall s.calls n fun _ => .dropped } else none
  | none => none

/-- `rx.recv().await` -/
def receive : Option Approvals :=
  match s.bridge, s.queue with
  | .idle, p :: rest => some { s with bridge := .received p, queue := rest }
  | _, _ => none

/-- `next_id.fetch_add(1)`, which wraps. -/
def number : Option Approvals :=
  match s.bridge with
  | .received p => some { s with
      bridge := .numbered s.nextId p
      nextId := s.nextId + 1
      prompts := s.prompts ++ [(s.nextId, p)] }
  | _ => none

/-- `g.insert(id, respond)`; a sender filed under the same number would be dropped. -/
def deliver : Option Approvals :=
  match s.bridge with
  | .numbered id p => some { s with
      bridge := .delivered id
      pending := Function.update s.pending id (some p.respond)
      calls := match s.pending id with
        | some old => onCall s.calls old .hangUp
        | none => s.calls
      delivered := s.delivered ++ [(id, p)] }
  | _ => none

def startTimer : Option Approvals :=
  match s.bridge with
  | .delivered id => some { s with bridge := .idle, timers := s.timers ++ [⟨id, none⟩] }
  | _ => none

/-- A timer goes off: under the lock it removes its prompt, if it is there, and rejects it. -/
def fire (t : ℕ) : Option Approvals :=
  match s.timers[t]? with
  | some ⟨id, none⟩ =>
      match s.pending id with
      | some n => some { s with
          pending := Function.update s.pending id none
          calls := onCall s.calls n (.send .reject)
          timers := s.timers.set t ⟨id, some true⟩
          answers := s.answers ++ [(id, .timedOut)] }
      | none => some { s with timers := s.timers.set t ⟨id, some false⟩ }
  | _ => none

/-- `respond_approval`, as far as it holds the lock. -/
def respond (id : U64) (approved : Bool) : Approvals :=
  match s.pending id with
  | some n => { s with
      pending := Function.update s.pending id none
      commands := s.commands ++ [⟨id, approved, .removed n⟩]
      answers := s.answers ++ [(id, .responded approved)] }
  | none => { s with
      commands := s.commands ++ [⟨id, approved, .returned (.error noPendingApproval)⟩] }

/-- The rest of `respond_approval`: the decision is sent on the removed sender. -/
def resolve (c : ℕ) : Option Approvals :=
  match s.commands[c]? with
  | some ⟨id, approved, .removed n⟩ => some { s with
      calls := onCall s.calls n (.send (if approved then .approve else .reject))
      commands := s.commands.set c ⟨id, approved, .returned (.ok ())⟩ }
  | _ => none

/-- The receiver goes away, with the prompts that were not filed. -/
def shutdown : Approvals :=
  { s with
    bridge := .stopped
    queue := []
    calls := hangUp s.calls (s.bridge.hand ++ s.queue) }

def step : ApprovalMove → Option Approvals
  | .call request => some { s with calls := s.calls ++ [⟨request, .sending⟩] }
  | .send n => s.send buffer n
  | .finish n => s.finish n
  | .dropCall n => s.dropCall n
  | .receive => s.receive
  | .number => s.number
  | .deliver => s.deliver
  | .startTimer => s.startTimer
  | .fire t => s.fire t
  | .respond id approved => some (s.respond id approved)
  | .resolve c => s.resolve c
  | .shutdown => some s.shutdown

/-- Moves one after the other. -/
def run (s : Approvals) : List ApprovalMove → Option Approvals :=
  List.foldlM (step buffer) s

end Approvals

end Strkd.Desktop
