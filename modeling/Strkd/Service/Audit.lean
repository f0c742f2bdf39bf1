import Strkd.Service.Prompts
import Strkd.Service.Runs

/-!
# The record of what was broadcast

A request is recorded after its handler has finished.  A request whose caller goes away is dropped
where it waits, so one that is dropped after it handed a transaction on leaves no row; and a row
whose insert fails is lost without a word.
-/

namespace Strkd.Service

open Wallet Prover Rpc

/-- The operations that hand a transaction to a node, the relay or a prover. -/
def handsOver : Op → Bool
  | .nodeRpc _ method _ => method ∈ ["starknet_addInvokeTransaction",
      "starknet_addDeclareTransaction", "starknet_addDeployAccountTransaction"]
  | .paymasterRpc _ _ method _ => method = "paymaster_executeTransaction"
  | .remoteProve _ _ _ _ | .prove _ _ _ | .spawnProve _ => true
  | _ => false

/-- The process handed a transaction on. -/
def HandedOver (tr : Trace) : Prop := ∃ e ∈ tr, handsOver e.1 = true

/-- The process has answered, or was dropped. -/
def Stopped (p : Proc) : Prop := p.rest = none ∨ ∃ r, p.rest = some (.pure r)

/-- A request's row is in the log. -/
def Logged (s : State) (req : Request) (tr : Trace) : Prop :=
  ∃ entry, (⟨.record entry, true⟩ : Event Op Ans) ∈ tr ∧ entry.method = req.method ∧
    s.world.recorded entry ∈ s.world.log

/-- Every request that handed a transaction on and has stopped has its row in the log. -/
def Audited (s : State) : Prop :=
  ∀ (pid : ℕ) (p : Proc) (token : Option String) (req : Request), s.procs[pid]? = some p →
    p.task = .request token req → HandedOver p.trace → Stopped p → Logged s req p.trace

/-- No request is dropped, and no insert of its row fails, after it handed a transaction on. -/
structure NoLateLoss (s : State) (m : Act) : Prop where
  drop : ∀ pid, m = .drop pid → ¬ HandedOver (s.traceAt pid)
  row : ∀ pid entry, m = .run pid ⟨.record entry, false⟩ → ¬ HandedOver (s.traceAt pid)

variable {K : Crates} {S : Setup} {init : State → Prop} {C : State → Act → Prop} {s s' : State}

/-! ## The log grows -/

/-- The rows an operation has inserted into the log. -/
def rowsOf (w : World) : Op → List LogEntry
  | .record entry => [w.recorded entry]
  | _ => []

/-- The rows that are written: none where the insert fails. -/
def writtenRows (w : World) : Event Op Ans → List LogEntry
  | ⟨.record entry, written⟩ => if written then rowsOf w (.record entry) else []
  | _ => []

theorem log_of_exec {w w' : World} {pid : ℕ} {op : Op} {a : Ans op}
    (h : World.Exec K w pid op a w') :
    w'.log = w.log ++ writtenRows w ⟨op, a⟩ ∧ w'.fullPayloads = w.fullPayloads := by
  have hsame : ∀ {w' : World}, w'.log = w.log → w'.fullPayloads = w.fullPayloads →
      w'.log = w.log ++ [] ∧ w'.fullPayloads = w.fullPayloads := fun hl hf =>
    ⟨hl.trans (List.append_nil _).symm, hf⟩
  cases h
  case failedWrite => exact hsame rfl rfl
  case tornSettings => exact hsame rfl rfl
  case effect h =>
      cases op with
      | record entry =>
          cases a with
          | true => exact ⟨rfl, rfl⟩
          | false => exact hsame rfl rfl
      | createAgentAccount id label => rcases a with e | account <;> exact hsame rfl rfl
      | createUserAccount label => rcases a with e | account <;> exact hsame rfl rfl
      | reattach name kind => rcases a with _ | ⟨id, token⟩ <;> exact hsame rfl rfl
      | unlockSession vault passphrase =>
          simp only [World.effect]
          split <;> exact hsame rfl rfl
      | writeTmp vault => rcases a with e | _ <;> exact hsame rfl rfl
      | renameTmp => rcases a with e | _ <;> exact hsame rfl rfl
      | renameToBackup name => rcases a with e | _ <;> exact hsame rfl rfl
      | createSettings => rcases a with e | _ <;> exact hsame rfl rfl
      | writeSettings s => rcases a with e | _ <;> exact hsame rfl rfl
      | _ => exact hsame rfl rfl

/-- What was inserted is in the log. -/
def RowsKept (s : State) : Prop :=
  ∀ i entry, (⟨.record entry, true⟩ : Event Op Ans) ∈ s.traceAt i →
    s.world.recorded entry ∈ s.world.log

theorem recorded_eq {w w' : World} (h : w'.fullPayloads = w.fullPayloads) (entry : LogEntry) :
    w'.recorded entry = w.recorded entry := by
  unfold World.recorded
  rw [h]

theorem RowsKept.step {m : Act} (h : RowsKept s) (hs : Sys.Step (service K S) s m s') :
    RowsKept s' := by
  intro i entry hmem
  have hstill : (∀ pid e, m ≠ .run pid e) → s'.world.recorded entry ∈ s'.world.log := by
    intro hm
    obtain ⟨hw, htrace⟩ := hs.of_still hm
    rw [hw]
    rw [htrace] at hmem
    exact h i entry hmem
  cases m with
  | arrive task => exact hstill fun _ _ => by simp
  | drop pid => exact hstill fun _ _ => by simp
  | run pid e =>
      obtain ⟨op, a⟩ := e
      obtain ⟨hx, -, hpid, hrest⟩ := hs.of_run
      obtain ⟨hlog, hfull⟩ := log_of_exec hx
      rw [recorded_eq hfull, hlog]
      by_cases hi : i = pid
      · rw [hi, hpid] at hmem
        rcases List.mem_append.1 hmem with hmem | hmem
        · exact List.mem_append_left _ (h pid entry hmem)
        · cases List.mem_singleton.1 hmem
          exact List.mem_append_right _ List.mem_cons_self
      · rw [hrest i hi] at hmem
        exact List.mem_append_left _ (h i entry hmem)

theorem traceAt_start (h : s.procs = []) (i : ℕ) : s.traceAt i = [] := by
  rw [Sys.traceAt, h]
  rfl

theorem rowsKept_start (h : s.procs = []) : RowsKept s := fun i entry hmem => by
  rw [traceAt_start h] at hmem
  cases hmem

/-- In every run the log holds what was inserted. -/
theorem rowsKept_reach (h : Sys.Reach (service K S) init C s) (hinit : ∀ s, init s → s.procs = []) :
    RowsKept s :=
  h.invariant (fun s hs => rowsKept_start (hinit s hs)) fun _ _ _ _ hk _ hs => hk.step hs

/-- What runs keep: who was dropped, and who lost a row, had handed nothing on. -/
structure Auditable (s : State) : Prop where
  dropped : ∀ (i : ℕ) (p : Proc), s.procs[i]? = some p → p.rest = none → ¬ HandedOver p.trace
  lost : ∀ (i : ℕ) (before : Trace) (entry : LogEntry),
    before ++ [⟨.record entry, false⟩] <+: s.traceAt i → ¬ HandedOver before

theorem auditable_start (h : s.procs = []) : Auditable s := by
  refine ⟨fun i p hp => ?_, fun i before entry hpre => ?_⟩
  · rw [h] at hp
    cases hp
  · rw [traceAt_start h, List.prefix_nil] at hpre
    exact absurd hpre (List.append_ne_nil_of_right_ne_nil _ (List.cons_ne_nil _ _))

theorem Auditable.step {m : Act} (h : Auditable s) (hs : Sys.Step (service K S) s m s')
    (hc : NoLateLoss s m) : Auditable s' := by
  refine ⟨fun i q hq hrest => ?_, fun i before entry hpre => ?_⟩
  · rcases hs.process hq with hq | ⟨p, op, next, a, -, -, -, -, rfl⟩ | ⟨p, hp, rfl, rfl⟩ |
      ⟨-, task, rfl⟩
    · exact h.dropped i q hq hrest
    · cases hrest
    · have hno := hc.drop i rfl
      rw [Sys.traceAt_eq hp] at hno
      exact hno
    · cases hrest
  · by_cases hm : ∀ pid e, m ≠ .run pid e
    · rw [(hs.of_still hm).2] at hpre
      exact h.lost i before entry hpre
    · push Not at hm
      obtain ⟨pid, ⟨op, a⟩, rfl⟩ := hm
      obtain ⟨-, -, hself, hothers⟩ := hs.of_run
      by_cases hi : i = pid
      · rw [hi, hself, List.prefix_concat_iff] at hpre
        rcases hpre with heq | hpre
        · -- the insert that has just failed
          obtain ⟨rfl, he⟩ := List.append_inj' heq rfl
          cases he
          exact hc.row pid entry rfl
        · exact h.lost pid before entry hpre
      · rw [hothers i hi] at hpre
        exact h.lost i before entry hpre

theorem handedOver_of_recorded {before : Trace} {entry : LogEntry} {written : Bool}
    (h : HandedOver (before ++ [⟨.record entry, written⟩])) : HandedOver before := by
  obtain ⟨e, he, hover⟩ := h
  rcases List.mem_append.1 he with he | he
  · exact ⟨e, he, hover⟩
  · rw [List.mem_singleton.1 he] at hover
    cases hover

/-- Where no request is dropped, and no insert of its row fails, after it handed a transaction on,
every request that did and has stopped is in the log, whether the user approved it or a grant
did. -/
theorem audited_of_noLateLoss (h : Sys.Reach (service K S) init NoLateLoss s)
    (hinit : ∀ s, init s → s.procs = []) : Audited s := by
  have haudit : Auditable s := h.invariant (fun s hs => auditable_start (hinit s hs))
    fun s m s' _ hinv hc hs => hinv.step hs hc
  intro pid p token req hp htask hhanded hstopped
  rcases hstopped with hrest | ⟨r, hrest⟩
  · exact absurd hhanded (haudit.dropped pid p hp hrest)
  · have hdone := safe_reach h hinit pid p hp _ hrest
    rw [htask] at hdone
    obtain ⟨before, entry, written, htrace, hmethod⟩ := hdone
    rw [htrace] at hhanded
    have htraceAt : s.traceAt pid = before ++ [⟨.record entry, written⟩] := by
      rw [Sys.traceAt_eq hp, htrace]
    cases written with
    | false =>
        have hno := haudit.lost pid before entry (htraceAt ▸ List.prefix_refl _)
        exact absurd (handedOver_of_recorded hhanded) hno
    | true =>
        have hmem : (⟨.record entry, true⟩ : Event Op Ans) ∈ s.traceAt pid := by
          rw [htraceAt]
          exact List.mem_append_right _ List.mem_cons_self
        refine ⟨entry, ?_, hmethod, rowsKept_reach h hinit pid entry hmem⟩
        rwa [← Sys.traceAt_eq hp]

/-! ## A broadcast by a caller with a grant -/

/-- The wallet of an agent that holds a grant. -/
def grantedWorld : World where
  session := plainSession
  clients := [{ plainClient with tokenHash := "t", grantedUntil := some 1 }]

def broadcastRequest : Request where
  id := .int 1
  method := "wallet_addInvokeTransaction"
  params :=
    let bound := Json.obj [("max_amount", .int 1), ("max_price_per_unit", .int 1)]
    .obj [("account_address", .str "0x7"), ("submit", .bool true), ("nonce", .str "0x0"),
      ("calls", .arr [.obj [("to", .str "0x4"), ("selector", .str "0x5")]]),
      ("resource_bounds", .obj [("l1_gas", bound), ("l2_gas", bound), ("l1_data_gas", bound)])]

/-- A node that accepts a transaction, at time 0. -/
def accepting : (op : Op) → Option (Ans op)
  | .touchActivity | .clock _ | .elapsed => some 0
  | .nodeFor _ => some true
  | .nodeRpc _ _ _ => some (.body (.obj [("result", .obj [("transaction_hash", .str "0x1")])]))
  | _ => none

/-- The request served on its own for a number of operations. -/
def broadcast (n : ℕ) : Option (List Act × State) :=
  Sys.play (service plainCrates plainSetup) (answering plainCrates accepting)
    ⟨grantedWorld, [(service plainCrates plainSetup).fresh (.request (some "t") broadcastRequest)]⟩
    (List.replicate n 0)

theorem reach_broadcast {n : ℕ} {moves : List Act} {s : State} (harr : ∀ s task, C s (.arrive task))
    (hrun : ∀ s pid op a, respond plainCrates accepting s.world pid op = some a →
      C s (.run pid ⟨op, a⟩)) (h : broadcast n = some (moves, s)) :
    Sys.Reach (service plainCrates plainSetup) (Starts grantedWorld) C s := by
  have hplay : Sys.play (service plainCrates plainSetup) (answering plainCrates accepting)
      ⟨grantedWorld, [.request (some "t") broadcastRequest].map (service plainCrates plainSetup).fresh⟩
      (List.replicate n 0) = some (moves, s) := h
  refine reach_tasks harr hrun (fun task ht => ?_) hplay
  rw [List.mem_singleton.1 ht]
  trivial

/-- Whether the first process waits at an operation, having handed a transaction on. -/
def waitsAfterHandover (s : State) : Bool :=
  match (s.procs[0]? : Option Proc) with
  | some ⟨.request _ _, tr, some (.step op _)⟩ =>
      awaits op && tr.any (fun e => handsOver e.1) && (s.world.holder != some 0) && s.world.log.isEmpty
  | _ => false

/-- The row of the request that was answered. -/
def answeredAfterHandover (s : State) : Bool :=
  match (s.procs[0]? : Option Proc) with
  | some ⟨.request _ req, tr, some (.pure _)⟩ =>
      req.method = broadcastRequest.method && tr.any fun e => handsOver e.1
  | _ => false

/-- A caller goes away while its broadcast waits to be recorded. -/
theorem broadcast_unrecorded : ∃ s,
    Sys.Reach (service plainCrates plainSetup) (Starts grantedWorld) (fun _ _ => True) s ∧
      ¬ Audited s ∧ s.world.log = [] := by
  have hplay : (broadcast 8).map (fun r => waitsAfterHandover r.2) = some true := by
    decide +kernel
  obtain ⟨⟨moves, s⟩, h, hwaits⟩ := Option.map_eq_some_iff.1 hplay
  have hreach := reach_broadcast (C := fun _ _ => True) (fun _ _ => trivial)
    (fun _ _ _ _ _ => trivial) h
  simp only [waitsAfterHandover] at hwaits
  split at hwaits
  · rename_i token req tr op next hp
    simp only [Bool.and_eq_true, List.any_eq_true, bne_iff_ne, List.isEmpty_iff] at hwaits
    obtain ⟨⟨⟨hawaits, e, he, hover⟩, hholder⟩, hlog⟩ := hwaits
    have hdrop := Sys.Step.drop (M := service plainCrates plainSetup) s 0 _ op next hp rfl
      ⟨hawaits, hholder⟩
    refine ⟨_, .step _ hreach trivial hdrop, fun haudited => ?_, hlog⟩
    have hlt := (List.getElem?_eq_some_iff.mp hp).1
    obtain ⟨entry, -, -, hrow⟩ := haudited 0 _ token req (List.getElem?_set_self hlt) rfl
      ⟨e, he, hover⟩ (Or.inl rfl)
    rw [hlog] at hrow
    cases hrow
  · cases hwaits

/-- The same request, left alone, is recorded. -/
theorem broadcast_recorded : ∃ s p token req,
    Sys.Reach (service plainCrates plainSetup) (Starts grantedWorld) NoLateLoss s ∧
      s.procs[0]? = some p ∧ p.task = .request token req ∧ HandedOver p.trace ∧ Stopped p ∧
      Audited s := by
  have hplay : (broadcast 12).map (fun r => answeredAfterHandover r.2) = some true := by
    decide +kernel
  obtain ⟨⟨moves, s⟩, h, hanswered⟩ := Option.map_eq_some_iff.1 hplay
  have hreach := reach_broadcast (C := NoLateLoss) (fun _ _ => ⟨nofun, nofun⟩)
    (fun _ _ _ _ hresp => ⟨nofun, fun _ _ heq => by cases heq; cases hresp⟩) h
  simp only [answeredAfterHandover] at hanswered
  split at hanswered
  · rename_i token req tr r hp
    simp only [Bool.and_eq_true, List.any_eq_true] at hanswered
    obtain ⟨-, e, he, hover⟩ := hanswered
    exact ⟨s, _, token, req, hreach, hp, rfl, ⟨e, he, hover⟩, Or.inr ⟨r, rfl⟩,
      audited_of_noLateLoss hreach fun _ => Starts.procs⟩
  · cases hanswered

end Strkd.Service
