import Strkd.Desktop.Approvals
import Strkd.Lib.System

/-!
# Runs of the approval bridge

Every sender is in one place: in a prompt on its way, in the map, or in the hands of the command
that took it out.  A call that got a decision therefore has no sender left, and it was approved
exactly if the prompt filed with its sender was taken out by an approval.
-/

namespace Strkd.Desktop

open Rpc

/-! ## Calls -/

theorem getElem?_onCall (calls : List Call) (n m : ℕ) (f : CallPhase → CallPhase) :
    (Approvals.onCall calls n f)[m]? =
      (calls[m]?).map fun c => if n = m then { c with phase := f c.phase } else c := by
  unfold Approvals.onCall
  rw [List.getElem?_modify]
  by_cases h : n = m
  · simp [h]
  · simp [h]

/-- The calls after some of them changed where they stand. -/
theorem onCall_cases {calls : List Call} {n m : ℕ} {f : CallPhase → CallPhase} {c : Call}
    (h : (Approvals.onCall calls n f)[m]? = some c) :
    (n ≠ m ∧ calls[m]? = some c) ∨
      (n = m ∧ ∃ phase, calls[m]? = some ⟨c.request, phase⟩ ∧ c.phase = f phase) := by
  rw [getElem?_onCall, Option.map_eq_some_iff] at h
  obtain ⟨b, hb, hc⟩ := h
  by_cases hn : n = m
  · rw [if_pos hn] at hc
    subst hc
    exact Or.inr ⟨hn, b.phase, hb, rfl⟩
  · rw [if_neg hn] at hc
    subst hc
    exact Or.inl ⟨hn, hb⟩

/-- A call keeps its request, and its phase changes as `f` says if at all. -/
theorem onCall_of_getElem? {calls : List Call} {n m : ℕ} {f : CallPhase → CallPhase} {c : Call}
    (h : calls[m]? = some c) : ∃ phase, (Approvals.onCall calls n f)[m]? = some ⟨c.request, phase⟩ ∧
      (phase = c.phase ∨ (n = m ∧ phase = f c.phase)) := by
  rw [getElem?_onCall, h]
  by_cases hn : n = m
  · exact ⟨f c.phase, by simp [hn], Or.inr ⟨hn, rfl⟩⟩
  · exact ⟨c.phase, by simp [hn], Or.inl rfl⟩

namespace CallPhase

theorem send_ne_sending {d : Decision} {phase : CallPhase} (h : phase ≠ .sending) :
    phase.send d ≠ .sending := by
  cases phase <;> simp_all [send]

theorem hangUp_ne_sending {phase : CallPhase} (h : phase ≠ .sending) : phase.hangUp ≠ .sending := by
  cases phase <;> simp_all [hangUp]

/-- A decision on a channel: the call had it before, or it was waiting for it. -/
theorem decision_send {d e : Decision} {phase : CallPhase} (h : (phase.send d).decision = some e) :
    phase.decision = some e ∨ e = d := by
  cases phase <;> simp_all [send, decision]

theorem decision_hangUp {e : Decision} {phase : CallPhase} (h : phase.hangUp.decision = some e) :
    phase.decision = some e ∨ e = .reject := by
  cases phase <;> simp_all [hangUp, decision]

theorem decision_of_outcome {d : Decision} {phase : CallPhase} (h : phase.outcome = some d) :
    phase.decision = some d := by
  cases phase <;> simp_all [outcome, decision]

end CallPhase

/-! ## What holds in every run -/

/-- The prompt that is about to be filed. -/
def Bridge.filing : Bridge → List (U64 × PendingApproval)
  | .numbered id p => [(id, p)]
  | _ => []

/-- The numbers given out are counted up from one. -/
structure Numbered (nextId : U64) (bridge : Bridge)
    (prompts delivered : List (U64 × PendingApproval)) : Prop where
  counter : nextId = BitVec.ofNat 64 (1 + prompts.length)
  ids : prompts.map Prod.fst = (List.range prompts.length).map fun i => BitVec.ofNat 64 (1 + i)
  filed : (delivered ++ bridge.filing).Sublist prompts

/-- The prompts sent so far are of different calls, none of which is still sending. -/
structure Ticketed (calls : List Call) (sent : List PendingApproval) : Prop where
  nodup : (sent.map PendingApproval.respond).Nodup
  known : ∀ p ∈ sent, ∃ phase, calls[p.respond]? = some ⟨p.request, phase⟩ ∧ phase ≠ .sending

theorem Ticketed.onCall {calls : List Call} {sent : List PendingApproval}
    (h : Ticketed calls sent) (n : ℕ) {f : CallPhase → CallPhase}
    (hf : ∀ phase, phase ≠ .sending → f phase ≠ .sending) :
    Ticketed (Approvals.onCall calls n f) sent := by
  refine ⟨h.nodup, fun p hp => ?_⟩
  obtain ⟨phase, hphase, hne⟩ := h.known p hp
  obtain ⟨phase', hphase', rfl | ⟨-, rfl⟩⟩ := onCall_of_getElem? (n := n) (f := f) hphase
  · exact ⟨_, hphase', hne⟩
  · exact ⟨_, hphase', hf phase hne⟩

/-- The map holds the prompts delivered and not answered, and none is answered twice. -/
structure Filed (pending : U64 → Option ℕ) (delivered : List (U64 × PendingApproval))
    (answers : List (U64 × Answer)) : Prop where
  pending : ∀ id n, pending id = some n ↔
    (∃ p, (id, p) ∈ delivered ∧ p.respond = n) ∧ id ∉ answers.map Prod.fst
  nodup : (answers.map Prod.fst).Nodup
  delivered : ∀ id ∈ answers.map Prod.fst, id ∈ delivered.map Prod.fst

theorem of_insert {pending : U64 → Option ℕ} {id i : U64} {n m : ℕ}
    (h : Function.update pending id (some n) i = some m) : m = n ∨ pending i = some m := by
  rw [Function.update_apply] at h
  split at h
  · exact Or.inl (Option.some.inj h).symm
  · exact Or.inr h

theorem of_remove {pending : U64 → Option ℕ} {id i : U64} {m : ℕ}
    (h : Function.update pending id none i = some m) : i ≠ id ∧ pending i = some m := by
  rw [Function.update_apply] at h
  split at h
  · cases h
  · exact ⟨‹_›, h⟩

namespace Filed

variable {pending : U64 → Option ℕ} {delivered : List (U64 × PendingApproval)}
variable {answers : List (U64 × Answer)} {id : U64}

theorem notMem_answers (h : Filed pending delivered answers)
    (hid : id ∉ delivered.map Prod.fst) : id ∉ answers.map Prod.fst :=
  fun hmem => hid (h.delivered id hmem)

theorem pending_eq_none (h : Filed pending delivered answers)
    (hid : id ∉ delivered.map Prod.fst) : pending id = none := by
  cases hp : pending id with
  | none => rfl
  | some n =>
      obtain ⟨⟨q, hq, -⟩, -⟩ := (h.pending id n).1 hp
      exact absurd (List.mem_map_of_mem hq) hid

theorem pending_of_mem_answers (h : Filed pending delivered answers)
    (hid : id ∈ answers.map Prod.fst) : pending id = none := by
  cases hp : pending id with
  | none => rfl
  | some n => exact absurd hid ((h.pending id n).1 hp).2

/-- A prompt is filed under a new number. -/
theorem insert (h : Filed pending delivered answers) (hid : id ∉ delivered.map Prod.fst)
    (p : PendingApproval) :
    Filed (Function.update pending id (some p.respond)) (delivered ++ [(id, p)]) answers := by
  refine ⟨fun i n => ?_, h.nodup, fun i hi => ?_⟩
  · by_cases hi : i = id
    · subst hi
      have hno : ∀ q, (i, q) ∉ delivered := fun q hq => hid (List.mem_map_of_mem hq)
      simp [hno, h.notMem_answers hid]
    · rw [Function.update_of_ne hi, h.pending i n]
      simp [hi]
  · rw [List.map_append]
    exact List.mem_append_left _ (h.delivered i hi)

/-- A prompt is taken out of the map. -/
theorem remove (h : Filed pending delivered answers) {n : ℕ} (hp : pending id = some n)
    (a : Answer) : Filed (Function.update pending id none) delivered (answers ++ [(id, a)]) := by
  obtain ⟨⟨p, hmem, hpn⟩, hid⟩ := (h.pending id n).1 hp
  have hanswers : (answers ++ [(id, a)]).map Prod.fst = answers.map Prod.fst ++ [id] := by simp
  refine ⟨fun i m => ?_, ?_, fun i hi => ?_⟩
  · rw [hanswers]
    by_cases hi : i = id
    · simp [hi]
    · rw [Function.update_of_ne hi, h.pending i m]
      simp [hi]
  · rw [hanswers, List.nodup_append]
    refine ⟨h.nodup, by simp, fun i hi j hj => ?_⟩
    rw [List.mem_singleton.1 hj]
    rintro rfl
    exact hid hi
  · rw [hanswers] at hi
    rcases List.mem_append.1 hi with hi | hi
    · exact h.delivered i hi
    · rw [List.mem_singleton.1 hi]
      exact List.mem_map_of_mem hmem

end Filed

/-- The answer a command gave, if it found its prompt. -/
def RespondApproval.answer (c : RespondApproval) : Option (U64 × Answer) :=
  if c.found then some (c.id, .responded c.approved) else none

/-- The commands that found a prompt are the answers that are not of a timer. -/
structure Commanded (commands : List RespondApproval) (delivered : List (U64 × PendingApproval))
    (answers : List (U64 × Answer)) : Prop where
  found : commands.filterMap RespondApproval.answer = answers.filter fun a => a.2 ≠ .timedOut
  removed : ∀ c ∈ commands, ∀ n, c.phase = .removed n →
    ∃ p, (c.id, p) ∈ delivered ∧ p.respond = n

/-- A timer is of a prompt that was filed; once it has fired the prompt is answered. -/
structure Timed (timers : List Timer) (bridge : Bridge) (delivered : List (U64 × PendingApproval))
    (answers : List (U64 × Answer)) : Prop where
  starting : ∀ id, bridge = .delivered id → id ∈ delivered.map Prod.fst
  delivered : ∀ t ∈ timers, t.id ∈ delivered.map Prod.fst
  answered : ∀ t ∈ timers, ∀ b, t.fired = some b → t.id ∈ answers.map Prod.fst
  removed : ∀ t ∈ timers, t.fired = some true → (t.id, .timedOut) ∈ answers

namespace Timed

variable {timers : List Timer} {bridge : Bridge} {delivered : List (U64 × PendingApproval)}
variable {answers answers' : List (U64 × Answer)}

theorem mono (h : Timed timers bridge delivered answers) (ha : answers ⊆ answers') :
    Timed timers bridge delivered answers' :=
  ⟨h.starting, h.delivered, fun t ht b hb => List.map_subset _ ha (h.answered t ht b hb),
    fun t ht hb => ha (h.removed t ht hb)⟩

/-- A timer goes off, and leaves its prompt answered. -/
theorem set (h : Timed timers bridge delivered answers) {t : ℕ} {id : U64} {b : Bool}
    (ht : timers[t]? = some ⟨id, none⟩) (hid : id ∈ answers.map Prod.fst)
    (hb : b = true → (id, .timedOut) ∈ answers) :
    Timed (timers.set t ⟨id, some b⟩) bridge delivered answers := by
  have hmem : (⟨id, none⟩ : Timer) ∈ timers := List.mem_of_getElem? ht
  have hset : ∀ u ∈ timers.set t ⟨id, some b⟩, u ∈ timers ∨ u = ⟨id, some b⟩ :=
    fun u hu => List.mem_or_eq_of_mem_set hu
  refine ⟨h.starting, fun u hu => ?_, fun u hu c hc => ?_, fun u hu hc => ?_⟩
  · rcases hset u hu with hu | rfl
    · exact h.delivered u hu
    · exact h.delivered ⟨id, none⟩ hmem
  · rcases hset u hu with hu | rfl
    · exact h.answered u hu c hc
    · exact hid
  · rcases hset u hu with hu | rfl
    · exact h.removed u hu hc
    · exact hb (Option.some.inj hc)

end Timed

namespace Approvals

/-- The prompts that reached the queue, wherever they are now. -/
def sent (s : Approvals) : List PendingApproval :=
  s.delivered.map Prod.snd ++ (s.bridge.hand ++ s.queue)

/-- A sender for the call is alive. -/
def Holds (s : Approvals) (n : ℕ) : Prop :=
  n ∈ (s.bridge.hand ++ s.queue).map PendingApproval.respond ∨ (∃ id, s.pending id = some n) ∨
    ∃ c ∈ s.commands, c.phase = .removed n

/-- The prompt of the call was taken out by an approval. -/
def Approved (s : Approvals) (n : ℕ) : Prop :=
  ∃ id p, (id, p) ∈ s.delivered ∧ p.respond = n ∧ (id, .responded true) ∈ s.answers

/-- The decision of a call is final, and the one its prompt got. -/
def Settled (s : Approvals) (n : ℕ) (d : Decision) : Prop :=
  ¬ s.Holds n ∧ (d = .approve ↔ s.Approved n)

structure Inv (s : Approvals) : Prop where
  numbered : Numbered s.nextId s.bridge s.prompts s.delivered
  ticketed : Ticketed s.calls s.sent
  filed : Filed s.pending s.delivered s.answers
  commanded : Commanded s.commands s.delivered s.answers
  timed : Timed s.timers s.bridge s.delivered s.answers
  decided : ∀ n c d, s.calls[n]? = some c → c.phase.decision = some d → s.Settled n d

variable {s s' : Approvals}

/-! ## Senders -/

theorem Holds.sent (h : Inv s) {n : ℕ} (hn : s.Holds n) : ∃ p ∈ s.sent, p.respond = n := by
  have hdelivered : ∀ id p, (id, p) ∈ s.delivered → p ∈ s.sent := fun id p hp =>
    List.mem_append_left _ (List.mem_map_of_mem hp)
  rcases hn with hq | ⟨id, hid⟩ | ⟨c, hc, hrem⟩
  · obtain ⟨p, hp, rfl⟩ := List.mem_map.1 hq
    exact ⟨p, List.mem_append_right _ hp, rfl⟩
  · obtain ⟨⟨p, hp, rfl⟩, -⟩ := (h.filed.pending id _).1 hid
    exact ⟨p, hdelivered id p hp, rfl⟩
  · obtain ⟨p, hp, rfl⟩ := h.commanded.removed c hc n hrem
    exact ⟨p, hdelivered c.id p hp, rfl⟩

theorem Approved.sent {n : ℕ} (hn : s.Approved n) : ∃ p ∈ s.sent, p.respond = n := by
  obtain ⟨id, p, hp, rfl, -⟩ := hn
  exact ⟨p, List.mem_append_left _ (List.mem_map_of_mem hp), rfl⟩

/-- A call that is still sending has no prompt anywhere. -/
theorem Inv.settled_of_sending (h : Inv s) {n : ℕ} {request : ApprovalRequest}
    (hn : s.calls[n]? = some ⟨request, .sending⟩) : s.Settled n .reject := by
  have hsent : ¬ ∃ p ∈ s.sent, p.respond = n := by
    rintro ⟨p, hp, rfl⟩
    obtain ⟨phase, hphase, hne⟩ := h.ticketed.known p hp
    rw [hn] at hphase
    cases hphase
    exact hne rfl
  exact ⟨fun hh => hsent (hh.sent h), by
    simp only [reduceCtorEq, false_iff]
    exact fun ha => hsent ha.sent⟩

/-- The prompt filed with a sender: its number and the prompt are determined by the call. -/
theorem Inv.delivered_inj (h : Inv s) {id id' : U64} {p p' : PendingApproval}
    (hp : (id, p) ∈ s.delivered) (hp' : (id', p') ∈ s.delivered) (he : p.respond = p'.respond) :
    id = id' ∧ p = p' := by
  have hnodup : (s.delivered.map fun a => a.2.respond).Nodup := by
    have := h.ticketed.nodup
    rw [Approvals.sent, List.map_append, List.map_map] at this
    exact this.of_append_left
  have := List.inj_on_of_nodup_map hnodup hp hp' he
  exact ⟨congrArg Prod.fst this, congrArg Prod.snd this⟩

/-- A prompt that was filed is not on its way any more. -/
theorem Inv.not_waiting (h : Inv s) {id : U64} {p : PendingApproval} (hp : (id, p) ∈ s.delivered) :
    p.respond ∉ (s.bridge.hand ++ s.queue).map PendingApproval.respond := by
  have hnodup := h.ticketed.nodup
  rw [Approvals.sent, List.map_append, List.nodup_append] at hnodup
  intro hmem
  exact hnodup.2.2 _ (List.mem_map_of_mem (List.mem_map_of_mem hp)) _ hmem rfl

theorem Inv.found_mem (h : Inv s) {c : RespondApproval} (hc : c ∈ s.commands)
    (hf : c.found = true) : (c.id, .responded c.approved) ∈ s.answers := by
  have hmem : (c.id, Answer.responded c.approved) ∈ s.commands.filterMap RespondApproval.answer :=
    List.mem_filterMap.2 ⟨c, hc, by rw [RespondApproval.answer, if_pos hf]⟩
  rw [h.commanded.found] at hmem
  exact (List.mem_filter.1 hmem).1

/-- No two commands find the same prompt. -/
theorem Inv.found_once (h : Inv s) :
    s.commands.Pairwise fun c c' => c.found = true → c'.found = true → c.id ≠ c'.id := by
  have hnodup : (s.commands.filterMap RespondApproval.answer).Pairwise fun a b => a.1 ≠ b.1 := by
    rw [h.commanded.found]
    exact (List.pairwise_map.1 h.filed.nodup).filter _
  refine (List.pairwise_filterMap.1 hnodup).imp fun {c c'} hcc hc hc' => ?_
  exact hcc (c.id, .responded c.approved) (by rw [RespondApproval.answer, if_pos hc])
    (c'.id, .responded c'.approved) (by rw [RespondApproval.answer, if_pos hc'])

/-- An answer says who took the prompt out. -/
theorem Inv.answer_inj (h : Inv s) {id : U64} {a b : Answer} (ha : (id, a) ∈ s.answers)
    (hb : (id, b) ∈ s.answers) : a = b :=
  congrArg Prod.snd (List.inj_on_of_nodup_map h.filed.nodup ha hb rfl)

/-! ## Decisions -/

theorem Settled.mono {n : ℕ} {d : Decision} (h : s.Settled n d) (hh : s'.Holds n → s.Holds n)
    (ha : s'.Approved n ↔ s.Approved n) : s'.Settled n d :=
  ⟨fun hn => h.1 (hh hn), h.2.trans ha.symm⟩

/-- The calls decided after a step: those that were, with nothing else changed about them, and those
that are settled by it. -/
theorem Inv.decided_step (h : Inv s)
    (hframe : ∀ m c d, s.calls[m]? = some c → c.phase.decision = some d → s.Settled m d →
      s'.Settled m d)
    (hcalls : ∀ m c' d, s'.calls[m]? = some c' → c'.phase.decision = some d →
      (∃ c, s.calls[m]? = some c ∧ c.phase.decision = some d) ∨ s'.Settled m d) :
    ∀ m c d, s'.calls[m]? = some c → c.phase.decision = some d → s'.Settled m d := by
  intro m c' d hc' hd
  rcases hcalls m c' d hc' hd with ⟨c, hc, hcd⟩ | hset
  · exact hframe m c d hc hcd (h.decided m c d hc hcd)
  · exact hset

/-- The same when one call changes where it stands. -/
theorem Inv.decided_onCall (h : Inv s) {n : ℕ} {f : CallPhase → CallPhase}
    (hcalls : s'.calls = onCall s.calls n f)
    (hframe : ∀ m c d, s.calls[m]? = some c → c.phase.decision = some d → s.Settled m d →
      s'.Settled m d)
    (hnew : ∀ c d, s.calls[n]? = some c → (f c.phase).decision = some d →
      c.phase.decision = some d ∨ s'.Settled n d) :
    ∀ m c d, s'.calls[m]? = some c → c.phase.decision = some d → s'.Settled m d := by
  refine h.decided_step hframe fun m c' d hc' hd => ?_
  rw [hcalls] at hc'
  rcases onCall_cases hc' with ⟨-, hc⟩ | ⟨rfl, phase, hc, hphase⟩
  · exact Or.inl ⟨c', hc, hd⟩
  · rw [hphase] at hd
    exact (hnew _ d hc hd).imp_left fun hcd => ⟨_, hc, hcd⟩

/-- One call changes where it stands, and nothing else changes. -/
theorem Inv.of_onCall (h : Inv s) (n : ℕ) (f : CallPhase → CallPhase)
    (hf : ∀ phase, phase ≠ .sending → f phase ≠ .sending)
    (hnew : ∀ c d, s.calls[n]? = some c → (f c.phase).decision = some d →
      c.phase.decision = some d ∨ s.Settled n d) :
    Inv { s with calls := Approvals.onCall s.calls n f } :=
  ⟨h.numbered, h.ticketed.onCall n hf, h.filed, h.commanded, h.timed,
    h.decided_onCall rfl (fun _ _ _ _ _ hset => hset) hnew⟩

/-! ## The calls -/

theorem Inv.call (h : Inv s) (request : ApprovalRequest) :
    Inv { s with calls := s.calls ++ [⟨request, .sending⟩] } := by
  refine ⟨h.numbered, ⟨h.ticketed.nodup, fun p hp => ?_⟩, h.filed, h.commanded, h.timed, ?_⟩
  · obtain ⟨phase, hphase, hne⟩ := h.ticketed.known p hp
    refine ⟨phase, ?_, hne⟩
    show (s.calls ++ [⟨request, .sending⟩])[p.respond]? = _
    rw [List.getElem?_append_left (List.getElem?_eq_some_iff.1 hphase).1, hphase]
  · refine h.decided_step (fun m c d _ _ hset => hset) fun m c' d hc' hd => Or.inl ?_
    rcases Sys.getElem?_append_eq_some hc' with hc | ⟨-, hmem⟩
    · exact ⟨c', hc, hd⟩
    · rw [List.mem_singleton.1 hmem] at hd
      cases hd

theorem Inv.send (h : Inv s) {buffer n : ℕ} (hs : s.send buffer n = some s') : Inv s' := by
  unfold Approvals.send at hs
  split at hs
  case h_2 => cases hs
  case h_1 request hn =>
    by_cases hstop : s.bridge = .stopped
    · rw [if_pos hstop] at hs
      cases hs
      refine h.of_onCall n (fun _ => .returned .reject) (by simp) fun c d _ hd => ?_
      cases hd
      exact Or.inr (h.settled_of_sending hn)
    · rw [if_neg hstop] at hs
      split at hs
      case isFalse => cases hs
      case isTrue hroom =>
        cases hs
        have hfresh : ∀ p ∈ s.sent, p.respond ≠ n := by
          rintro p hp rfl
          obtain ⟨phase, hphase, hne⟩ := h.ticketed.known p hp
          rw [hn] at hphase
          cases hphase
          exact hne rfl
        have hsent : Approvals.sent { s with
            calls := onCall s.calls n fun _ => .waiting
            queue := s.queue ++ [⟨request, n⟩] } = s.sent ++ [⟨request, n⟩] := by
          simp [Approvals.sent]
        refine ⟨h.numbered, ?_, h.filed, h.commanded, h.timed, ?_⟩
        · rw [hsent]
          refine ⟨?_, fun p hp => ?_⟩
          · rw [List.map_append, List.nodup_append]
            refine ⟨h.ticketed.nodup, by simp, fun a ha b hb => ?_⟩
            obtain ⟨p, hp, rfl⟩ := List.mem_map.1 ha
            rw [List.mem_singleton.1 hb]
            exact hfresh p hp
          · rcases List.mem_append.1 hp with hp | hp
            · exact (h.ticketed.onCall n (f := fun _ => .waiting) (by simp)).known p hp
            · rw [List.mem_singleton.1 hp]
              exact ⟨.waiting, by simp [getElem?_onCall, hn], by simp⟩
        · refine h.decided_onCall (n := n) (f := fun _ => .waiting) rfl
            (fun m c d hc hd hset => ?_) fun c d _ hd => by cases hd
          refine hset.mono (fun hh => ?_) Iff.rfl
          rcases hh with hq | hrest
          · have hm : m ∈ (s.bridge.hand ++ s.queue).map PendingApproval.respond ∨ m = n := by
              simpa [or_assoc] using hq
            rcases hm with hm | rfl
            · exact Or.inl hm
            · rw [hn] at hc
              cases hc
              cases hd
          · exact Or.inr hrest

theorem Inv.finish (h : Inv s) {n : ℕ} (hs : s.finish n = some s') : Inv s' := by
  unfold Approvals.finish at hs
  split at hs
  case h_2 => cases hs
  case h_1 b hb =>
    obtain ⟨e, he, rfl⟩ := Option.map_eq_some_iff.1 hs
    refine h.of_onCall n (fun _ => .returned e) (by simp) fun c d hc hd => Or.inl ?_
    rw [hb] at hc
    cases hc
    cases hd
    exact CallPhase.decision_of_outcome he

theorem Inv.dropCall (h : Inv s) {n : ℕ} (hs : s.dropCall n = some s') : Inv s' := by
  unfold Approvals.dropCall at hs
  split at hs
  case h_2 => cases hs
  case h_1 b hb =>
    split at hs
    case isFalse => cases hs
    case isTrue =>
      cases hs
      exact h.of_onCall n (fun _ => .dropped) (by simp) fun c d _ hd => by cases hd

/-! ## The bridge -/

theorem Inv.receive (h : Inv s) (hs : s.receive = some s') : Inv s' := by
  unfold Approvals.receive at hs
  split at hs
  case h_2 => cases hs
  case h_1 p rest hb hq =>
    cases hs
    have hway : (Bridge.received p).hand ++ rest = s.bridge.hand ++ s.queue := by
      rw [hb, hq]
      rfl
    have hsent : Approvals.sent { s with bridge := .received p, queue := rest } = s.sent :=
      congrArg (s.delivered.map Prod.snd ++ ·) hway
    refine ⟨⟨h.numbered.counter, h.numbered.ids, ?_⟩, hsent ▸ h.ticketed, h.filed, h.commanded,
      ⟨by simp, h.timed.delivered, h.timed.answered, h.timed.removed⟩, fun m c d hc hd => ?_⟩
    · have := h.numbered.filed
      rwa [hb] at this
    · refine (h.decided m c d hc hd).mono (fun hh => ?_) Iff.rfl
      unfold Holds at hh ⊢
      rwa [← hway]

theorem Inv.number (h : Inv s) (hs : s.number = some s') : Inv s' := by
  unfold Approvals.number at hs
  split at hs
  case h_2 => cases hs
  case h_1 p hb =>
    cases hs
    have hhand : (Bridge.numbered s.nextId p).hand = s.bridge.hand := by rw [hb]; rfl
    have hsent : Approvals.sent { s with
        bridge := .numbered s.nextId p
        nextId := s.nextId + 1
        prompts := s.prompts ++ [(s.nextId, p)] } = s.sent :=
      congrArg (fun l => s.delivered.map Prod.snd ++ (l ++ s.queue)) hhand
    refine ⟨⟨?_, ?_, ?_⟩, hsent ▸ h.ticketed, h.filed, h.commanded,
      ⟨by simp, h.timed.delivered, h.timed.answered, h.timed.removed⟩, fun m c d hc hd => ?_⟩
    · show s.nextId + 1 = _
      rw [List.length_append, List.length_singleton, ← Nat.add_assoc, BitVec.ofNat_add,
        ← h.numbered.counter]
      rfl
    · rw [List.map_append, List.length_append, List.length_singleton, List.range_succ,
        List.map_append, h.numbered.ids]
      simp [h.numbered.counter]
    · have := h.numbered.filed
      rw [hb] at this
      simp only [Bridge.filing, List.append_nil] at this
      exact this.append_right _
    · refine (h.decided m c d hc hd).mono (fun hh => ?_) Iff.rfl
      unfold Holds at hh ⊢
      rwa [← hhand]

/-- Up to `2 ^ 64` prompts, no number is given out twice. -/
theorem Inv.nodup_ids (h : Inv s) (hb : s.prompts.length ≤ 2 ^ 64) :
    (s.prompts.map Prod.fst).Nodup := by
  rw [h.numbered.ids]
  refine List.Nodup.map_on (fun i hi j hj he => ?_) List.nodup_range
  have hi := List.mem_range.1 hi
  have hj := List.mem_range.1 hj
  have he := congrArg BitVec.toNat he
  simp only [BitVec.toNat_ofNat] at he
  omega

theorem Inv.deliver (h : Inv s) (hbound : s.prompts.length ≤ 2 ^ 64)
    (hs : s.deliver = some s') : Inv s' := by
  unfold Approvals.deliver at hs
  split at hs
  case h_2 => cases hs
  case h_1 id p hb =>
    have hfiled := h.numbered.filed
    rw [hb] at hfiled
    have hnew : id ∉ s.delivered.map Prod.fst := by
      have hnodup := (h.nodup_ids hbound).sublist (hfiled.map Prod.fst)
      rw [List.map_append, List.nodup_append] at hnodup
      exact fun hmem => hnodup.2.2 id hmem id (List.mem_singleton.2 rfl) rfl
    rw [h.filed.pending_eq_none hnew] at hs
    cases hs
    have hmono : ∀ {a : U64 × PendingApproval}, a ∈ s.delivered → a ∈ s.delivered ++ [(id, p)] :=
      List.mem_append_left _
    have hids : ∀ {i : U64}, i ∈ s.delivered.map Prod.fst →
        i ∈ (s.delivered ++ [(id, p)]).map Prod.fst := fun hi => by
      rw [List.map_append]
      exact List.mem_append_left _ hi
    refine ⟨⟨h.numbered.counter, h.numbered.ids, ?_⟩, ?_, h.filed.insert hnew p,
      ⟨h.commanded.found, fun c hc n hn => ?_⟩,
      ⟨fun i hi => ?_, fun t ht => hids (h.timed.delivered t ht), h.timed.answered,
        h.timed.removed⟩, fun m c d hc hd => ?_⟩
    · simpa [Bridge.filing] using hfiled
    · have hsent : Approvals.sent { s with
          bridge := .delivered id
          pending := Function.update s.pending id (some p.respond)
          delivered := s.delivered ++ [(id, p)] } = s.sent := by
        simp [Approvals.sent, hb, Bridge.hand]
      exact hsent ▸ h.ticketed
    · obtain ⟨q, hq, hqn⟩ := h.commanded.removed c hc n hn
      exact ⟨q, hmono hq, hqn⟩
    · cases hi
      simp
    · refine (h.decided m c d hc hd).mono (fun hh => ?_) ⟨fun ha => ?_, fun ha => ?_⟩
      · rcases hh with hq | ⟨i, hi⟩ | hrest
        · refine Or.inl ?_
          rw [List.map_append]
          exact List.mem_append_right _ hq
        · rcases of_insert hi with rfl | hi
          · refine Or.inl ?_
            rw [hb]
            simp [Bridge.hand]
          · exact Or.inr (Or.inl ⟨i, hi⟩)
        · exact Or.inr (Or.inr hrest)
      · obtain ⟨i, q, hq, hqm, hi⟩ := ha
        rcases List.mem_append.1 hq with hq | hq
        · exact ⟨i, q, hq, hqm, hi⟩
        · cases List.mem_singleton.1 hq
          exact absurd (List.mem_map_of_mem hi) (h.filed.notMem_answers hnew)
      · obtain ⟨i, q, hq, hqm, hi⟩ := ha
        exact ⟨i, q, hmono hq, hqm, hi⟩

theorem Inv.startTimer (h : Inv s) (hs : s.startTimer = some s') : Inv s' := by
  unfold Approvals.startTimer at hs
  split at hs
  case h_2 => cases hs
  case h_1 id hb =>
    cases hs
    have hhand : Bridge.idle.hand = s.bridge.hand := by rw [hb]; rfl
    have hsent : Approvals.sent { s with bridge := .idle, timers := s.timers ++ [⟨id, none⟩] } =
        s.sent :=
      congrArg (fun l => s.delivered.map Prod.snd ++ (l ++ s.queue)) hhand
    have htimers : ∀ t ∈ s.timers ++ [⟨id, none⟩], t ∈ s.timers ∨ t = ⟨id, none⟩ := by simp
    refine ⟨⟨h.numbered.counter, h.numbered.ids, ?_⟩, hsent ▸ h.ticketed, h.filed, h.commanded,
      ⟨by simp, fun t ht => ?_, fun t ht b hf => ?_, fun t ht hf => ?_⟩, fun m c d hc hd => ?_⟩
    · have := h.numbered.filed
      rwa [hb] at this
    · rcases htimers t ht with ht | rfl
      · exact h.timed.delivered t ht
      · exact h.timed.starting id hb
    · rcases htimers t ht with ht | rfl
      · exact h.timed.answered t ht b hf
      · cases hf
    · rcases htimers t ht with ht | rfl
      · exact h.timed.removed t ht hf
      · cases hf
    · refine (h.decided m c d hc hd).mono (fun hh => ?_) Iff.rfl
      unfold Holds at hh ⊢
      rwa [← hhand]

/-! ## Answers -/

/-- While a prompt is pending, the map is the only place its sender is in. -/
theorem Inv.pending_only (h : Inv s) {id : U64} {n : ℕ} (hp : s.pending id = some n) :
    n ∉ (s.bridge.hand ++ s.queue).map PendingApproval.respond ∧
      (∀ i, s.pending i = some n → i = id) ∧ ∀ c ∈ s.commands, c.phase ≠ .removed n := by
  obtain ⟨⟨p, hmem, rfl⟩, hid⟩ := (h.filed.pending id _).1 hp
  refine ⟨h.not_waiting hmem, fun i hi => ?_, fun c hc hrem => ?_⟩
  · obtain ⟨⟨q, hq, hqn⟩, -⟩ := (h.filed.pending i _).1 hi
    exact (h.delivered_inj hq hmem hqn).1
  · obtain ⟨q, hq, hqn⟩ := h.commanded.removed c hc _ hrem
    have hmem' := h.found_mem hc (by rw [RespondApproval.found, hrem])
    rw [(h.delivered_inj hq hmem hqn).1] at hmem'
    exact hid (List.mem_map_of_mem hmem')

/-- The call of a pending prompt is not approved yet. -/
theorem Inv.not_approved (h : Inv s) {id : U64} {n : ℕ} (hp : s.pending id = some n) :
    ¬ s.Approved n := by
  obtain ⟨⟨p, hmem, rfl⟩, hid⟩ := (h.filed.pending id _).1 hp
  rintro ⟨i, q, hq, hqn, hi⟩
  rw [(h.delivered_inj hq hmem hqn).1] at hi
  exact hid (List.mem_map_of_mem hi)

theorem Inv.fire (h : Inv s) {t : ℕ} (hs : s.fire t = some s') : Inv s' := by
  unfold Approvals.fire at hs
  split at hs
  case h_2 => cases hs
  case h_1 id ht =>
    cases hp : s.pending id with
    | none =>
        rw [hp] at hs
        cases hs
        have hanswered : id ∈ s.answers.map Prod.fst := by
          obtain ⟨⟨i, q⟩, hq, rfl⟩ :=
            List.mem_map.1 (h.timed.delivered _ (List.mem_of_getElem? ht))
          by_contra hid
          have := (h.filed.pending i q.respond).2 ⟨⟨q, hq, rfl⟩, hid⟩
          rw [hp] at this
          cases this
        exact ⟨h.numbered, h.ticketed, h.filed, h.commanded,
          h.timed.set ht hanswered (by simp), h.decided⟩
    | some n =>
        rw [hp] at hs
        cases hs
        obtain ⟨hway, hmap, hcommands⟩ := h.pending_only hp
        have happroved : ∀ m, Approved { s with
            pending := Function.update s.pending id none
            calls := Approvals.onCall s.calls n (.send .reject)
            timers := s.timers.set t ⟨id, some true⟩
            answers := s.answers ++ [(id, .timedOut)] } m ↔ s.Approved m := fun m => by
          simp [Approved]
        refine ⟨h.numbered, h.ticketed.onCall n fun _ => CallPhase.send_ne_sending,
          h.filed.remove hp .timedOut, ⟨?_, h.commanded.removed⟩,
          (h.timed.mono (List.subset_append_left _ _)).set ht (by simp) (by simp), ?_⟩
        · show s.commands.filterMap RespondApproval.answer =
            (s.answers ++ [(id, Answer.timedOut)]).filter _
          rw [List.filter_append, h.commanded.found]
          simp
        · refine h.decided_onCall rfl (fun m c d _ _ hset => hset.mono ?_ (happroved m))
            fun c d _ hd => (CallPhase.decision_send hd).imp_right ?_
          · rintro (hq | ⟨i, hi⟩ | hrest)
            · exact Or.inl hq
            · exact Or.inr (Or.inl ⟨i, (of_remove hi).2⟩)
            · exact Or.inr (Or.inr hrest)
          · rintro rfl
            refine ⟨?_, ?_⟩
            · rintro (hq | ⟨i, hi⟩ | ⟨c, hc, hrem⟩)
              · exact hway hq
              · obtain ⟨hne, hi⟩ := of_remove hi
                exact hne (hmap i hi)
              · exact hcommands c hc hrem
            · rw [happroved n]
              simp [h.not_approved hp]

theorem Inv.respond (h : Inv s) (id : U64) (approved : Bool) : Inv (s.respond id approved) := by
  unfold Approvals.respond
  have hcmds : ∀ phase, ∀ c ∈ s.commands ++ [⟨id, approved, phase⟩],
      c ∈ s.commands ∨ c = ⟨id, approved, phase⟩ := by simp
  cases hp : s.pending id with
  | none =>
      refine ⟨h.numbered, h.ticketed, h.filed, ⟨?_, fun c hc n hn => ?_⟩, h.timed,
        fun m c d hc hd => (h.decided m c d hc hd).mono (fun hh => ?_) Iff.rfl⟩
      · rw [List.filterMap_append, h.commanded.found]
        simp [RespondApproval.answer, RespondApproval.found]
      · rcases hcmds _ c hc with hc | rfl
        · exact h.commanded.removed c hc n hn
        · cases hn
      · rcases hh with hq | hi | ⟨c, hc, hrem⟩
        · exact Or.inl hq
        · exact Or.inr (Or.inl hi)
        · rcases hcmds _ c hc with hc | rfl
          · exact Or.inr (Or.inr ⟨c, hc, hrem⟩)
          · cases hrem
  | some n =>
      obtain ⟨⟨p, hmem, hpn⟩, -⟩ := (h.filed.pending id n).1 hp
      refine ⟨h.numbered, h.ticketed, h.filed.remove hp (.responded approved),
        ⟨?_, fun c hc m hm => ?_⟩, h.timed.mono (List.subset_append_left _ _),
        fun m c d hc hd => ?_⟩
      · rw [List.filterMap_append, List.filter_append, h.commanded.found]
        simp [RespondApproval.answer, RespondApproval.found]
      · rcases hcmds _ c hc with hc | rfl
        · exact h.commanded.removed c hc m hm
        · cases hm
          exact ⟨p, hmem, hpn⟩
      · -- the call of the prompt still has its sender, so it is not among those decided
        have hset := h.decided m c d hc hd
        have hne : m ≠ n := by
          rintro rfl
          exact hset.1 (Or.inr (Or.inl ⟨id, hp⟩))
        refine hset.mono (fun hh => ?_) ⟨fun ha => ?_, fun ha => ?_⟩
        · rcases hh with hq | ⟨i, hi⟩ | ⟨c, hc, hrem⟩
          · exact Or.inl hq
          · exact Or.inr (Or.inl ⟨i, (of_remove hi).2⟩)
          · rcases hcmds _ c hc with hc | rfl
            · exact Or.inr (Or.inr ⟨c, hc, hrem⟩)
            · cases hrem
              exact absurd rfl hne
        · obtain ⟨i, q, hq, hqm, hi⟩ := ha
          rcases List.mem_append.1 hi with hi | hi
          · exact ⟨i, q, hq, hqm, hi⟩
          · cases List.mem_singleton.1 hi
            have hpm := (h.filed.pending id m).2 ⟨⟨q, hq, hqm⟩, ((h.filed.pending id n).1 hp).2⟩
            rw [hp] at hpm
            exact absurd (Option.some.inj hpm).symm hne
        · obtain ⟨i, q, hq, hqm, hi⟩ := ha
          exact ⟨i, q, hq, hqm, List.mem_append_left _ hi⟩

theorem filterMap_set {α β : Type} (f : α → Option β) (l : List α) {i : ℕ} {a b : α}
    (h : l[i]? = some a) (hf : f b = f a) : (l.set i b).filterMap f = l.filterMap f := by
  induction l generalizing i with
  | nil => rfl
  | cons x l ih =>
      cases i with
      | zero =>
          cases h
          rw [List.set_cons_zero, List.filterMap_cons, List.filterMap_cons, hf]
      | succ i => rw [List.set_cons_succ, List.filterMap_cons, List.filterMap_cons, ih h]

theorem Inv.resolve (h : Inv s) {i : ℕ} (hs : s.resolve i = some s') : Inv s' := by
  unfold Approvals.resolve at hs
  split at hs
  case h_2 => cases hs
  case h_1 id approved n hi =>
    cases hs
    have hmem : (⟨id, approved, .removed n⟩ : RespondApproval) ∈ s.commands :=
      List.mem_of_getElem? hi
    obtain ⟨p, hp, hpn⟩ := h.commanded.removed _ hmem n rfl
    have hanswer : (id, Answer.responded approved) ∈ s.answers := h.found_mem hmem rfl
    have hcmds : ∀ c ∈ s.commands.set i ⟨id, approved, .returned (.ok ())⟩,
        c ∈ s.commands ∨ c = ⟨id, approved, .returned (.ok ())⟩ :=
      fun c hc => List.mem_or_eq_of_mem_set hc
    refine ⟨h.numbered, h.ticketed.onCall n fun _ => CallPhase.send_ne_sending, h.filed,
      ⟨?_, fun c hc m hm => ?_⟩, h.timed, ?_⟩
    · exact (filterMap_set (b := ⟨id, approved, .returned (.ok ())⟩) _ _ hi rfl).trans
        h.commanded.found
    · rcases hcmds c hc with hc | rfl
      · exact h.commanded.removed c hc m hm
      · cases hm
    · refine h.decided_onCall rfl (fun m c d _ _ hset => hset.mono ?_ Iff.rfl)
        fun c d _ hd => (CallPhase.decision_send hd).imp_right ?_
      · rintro (hq | hm | ⟨c, hc, hrem⟩)
        · exact Or.inl hq
        · exact Or.inr (Or.inl hm)
        · rcases hcmds c hc with hc | rfl
          · exact Or.inr (Or.inr ⟨c, hc, hrem⟩)
          · cases hrem
      · rintro rfl
        refine ⟨?_, ?_⟩
        · rintro (hq | ⟨j, hj⟩ | ⟨c, hc, hrem⟩)
          · exact h.not_waiting hp (hpn ▸ hq)
          · exact (h.pending_only hj).2.2 _ hmem rfl
          · -- another command with the same sender would have found the same prompt
            obtain ⟨j, hj⟩ := List.mem_iff_getElem?.1 hc
            by_cases hij : i = j
            · subst hij
              rw [List.getElem?_set_self (List.getElem?_eq_some_iff.1 hi).1] at hj
              cases hj
              cases hrem
            · rw [List.getElem?_set_ne hij] at hj
              have hc := List.mem_of_getElem? hj
              obtain ⟨q, hq, hqn⟩ := h.commanded.removed c hc n hrem
              have hid := (h.delivered_inj hp hq (hpn.trans hqn.symm)).1
              have hfound : c.found = true := by rw [RespondApproval.found, hrem]
              obtain ⟨hilt, hieq⟩ := List.getElem?_eq_some_iff.1 hi
              obtain ⟨hjlt, hjeq⟩ := List.getElem?_eq_some_iff.1 hj
              have honce := List.pairwise_iff_getElem.1 h.found_once
              rcases lt_or_gt_of_ne hij with hlt | hlt
              · have := honce i j hilt hjlt hlt
                rw [hieq, hjeq] at this
                exact this rfl hfound hid
              · have := honce j i hjlt hilt hlt
                rw [hieq, hjeq] at this
                exact this hfound rfl hid.symm
        · cases approved with
          | true => exact iff_of_true rfl ⟨id, p, hp, hpn, hanswer⟩
          | false =>
              simp only [Bool.false_eq_true, if_false, reduceCtorEq, false_iff]
              rintro ⟨j, q, hq, hqn, hj⟩
              rw [← (h.delivered_inj hp hq (hpn.trans hqn.symm)).1] at hj
              cases h.answer_inj hanswer hj

/-- The calls after their prompts are thrown away. -/
theorem hangUp_cases {calls : List Call} {ps : List PendingApproval} {m : ℕ} {c : Call}
    (h : (Approvals.hangUp calls ps)[m]? = some c) :
    calls[m]? = some c ∨ (m ∈ ps.map PendingApproval.respond ∧
      ∃ phase, calls[m]? = some ⟨c.request, phase⟩ ∧ c.phase = phase.hangUp) := by
  induction ps generalizing calls with
  | nil => exact Or.inl h
  | cons p ps ih =>
      rcases ih h with hc | ⟨hmem, phase, hc, hphase⟩
      · rcases onCall_cases hc with ⟨-, hc⟩ | ⟨rfl, phase, hc, hphase⟩
        · exact Or.inl hc
        · exact Or.inr ⟨List.mem_cons_self, phase, hc, hphase⟩
      · refine Or.inr ⟨List.mem_cons_of_mem _ hmem, ?_⟩
        rcases onCall_cases hc with ⟨-, hc⟩ | ⟨rfl, phase', hc, hphase'⟩
        · exact ⟨phase, hc, hphase⟩
        · refine ⟨phase', hc, hphase.trans ?_⟩
          cases phase' <;> simp_all [CallPhase.hangUp]

theorem Ticketed.hangUp {calls : List Call} {sent : List PendingApproval}
    (h : Ticketed calls sent) (ps : List PendingApproval) :
    Ticketed (Approvals.hangUp calls ps) sent := by
  induction ps generalizing calls with
  | nil => exact h
  | cons p ps ih => exact ih (h.onCall p.respond fun _ => CallPhase.hangUp_ne_sending)

theorem Inv.shutdown (h : Inv s) : Inv s.shutdown := by
  have hsent := Ticketed.hangUp h.ticketed (s.bridge.hand ++ s.queue)
  have hkept : s.shutdown.sent = s.delivered.map Prod.snd := by
    simp [Approvals.sent, Approvals.shutdown, Bridge.hand]
  refine ⟨⟨h.numbered.counter, h.numbered.ids, ?_⟩, ?_, h.filed, h.commanded,
    ⟨by simp [Approvals.shutdown], h.timed.delivered, h.timed.answered, h.timed.removed⟩, ?_⟩
  · show (s.delivered ++ []).Sublist s.prompts
    rw [List.append_nil]
    exact (List.sublist_append_left _ _).trans h.numbered.filed
  · rw [hkept]
    refine ⟨?_, fun p hp => hsent.known p (List.mem_append_left _ hp)⟩
    have := hsent.nodup
    rw [Approvals.sent, List.map_append] at this
    exact this.of_append_left
  · have hholds : ∀ m, s.shutdown.Holds m → s.Holds m := by
      rintro m (hq | hrest)
      · cases hq
      · exact Or.inr hrest
    refine h.decided_step (fun m c d _ _ hset => hset.mono (hholds m) Iff.rfl)
      fun m c' d hc' hd => ?_
    rcases hangUp_cases hc' with hc | ⟨hm, phase, hc, hphase⟩
    · exact Or.inl ⟨c', hc, hd⟩
    · rw [hphase] at hd
      rcases CallPhase.decision_hangUp hd with hd | rfl
      · exact Or.inl ⟨_, hc, hd⟩
      · refine Or.inr ⟨?_, ?_⟩
        · rintro (hq | ⟨i, hi⟩ | ⟨c, hcm, hrem⟩)
          · cases hq
          · exact (h.pending_only hi).1 hm
          · obtain ⟨p, hp, rfl⟩ := h.commanded.removed c hcm m hrem
            exact h.not_waiting hp hm
        · simp only [reduceCtorEq, false_iff]
          rintro ⟨i, p, hp, rfl, -⟩
          exact h.not_waiting hp hm

/-! ## Runs -/

theorem Inv.start : Inv {} := by
  refine ⟨⟨rfl, rfl, List.Sublist.refl _⟩, ⟨List.nodup_nil, by simp [Approvals.sent, Bridge.hand]⟩,
    ⟨by simp, List.nodup_nil, by simp⟩, ⟨rfl, by simp⟩, ⟨by simp, by simp, by simp, by simp⟩,
    by simp⟩

/-- Numbers given out are not taken back. -/
theorem step_prompts {buffer : ℕ} {m : ApprovalMove} (hs : s.step buffer m = some s') :
    s'.prompts = s.prompts ∨ ∃ a, s'.prompts = s.prompts ++ [a] := by
  cases m with
  | call request => cases hs; exact Or.inl rfl
  | send n =>
      simp only [Approvals.step, Approvals.send] at hs
      split at hs
      · split_ifs at hs <;> cases hs <;> exact Or.inl rfl
      · cases hs
  | finish n =>
      simp only [Approvals.step, Approvals.finish] at hs
      split at hs
      · obtain ⟨d, -, rfl⟩ := Option.map_eq_some_iff.1 hs
        exact Or.inl rfl
      · cases hs
  | dropCall n =>
      simp only [Approvals.step, Approvals.dropCall] at hs
      split at hs
      · split_ifs at hs
        cases hs
        exact Or.inl rfl
      · cases hs
  | receive =>
      simp only [Approvals.step, Approvals.receive] at hs
      split at hs <;> cases hs
      exact Or.inl rfl
  | number =>
      simp only [Approvals.step, Approvals.number] at hs
      split at hs <;> cases hs
      exact Or.inr ⟨_, rfl⟩
  | deliver =>
      simp only [Approvals.step, Approvals.deliver] at hs
      split at hs <;> cases hs
      exact Or.inl rfl
  | startTimer =>
      simp only [Approvals.step, Approvals.startTimer] at hs
      split at hs <;> cases hs
      exact Or.inl rfl
  | fire t =>
      simp only [Approvals.step, Approvals.fire] at hs
      split at hs
      · split at hs <;> cases hs <;> exact Or.inl rfl
      · cases hs
  | respond id approved =>
      cases hs
      unfold Approvals.respond
      split <;> exact Or.inl rfl
  | resolve c =>
      simp only [Approvals.step, Approvals.resolve] at hs
      split at hs <;> cases hs
      exact Or.inl rfl
  | shutdown => cases hs; exact Or.inl rfl

theorem step_prompts_le {buffer : ℕ} {m : ApprovalMove} (hs : s.step buffer m = some s') :
    s.prompts.length ≤ s'.prompts.length := by
  rcases step_prompts hs with h | ⟨a, h⟩
  · rw [h]
  · rw [h, List.length_append]
    omega

theorem Inv.step (h : Inv s) {buffer : ℕ} {m : ApprovalMove}
    (hbound : s'.prompts.length ≤ 2 ^ 64) (hs : s.step buffer m = some s') : Inv s' := by
  have hbefore := (step_prompts_le hs).trans hbound
  cases m with
  | call request => cases hs; exact h.call request
  | send n => exact h.send hs
  | finish n => exact h.finish hs
  | dropCall n => exact h.dropCall hs
  | receive => exact h.receive hs
  | number => exact h.number hs
  | deliver => exact h.deliver hbefore hs
  | startTimer => exact h.startTimer hs
  | fire t => exact h.fire hs
  | respond id approved => cases hs; exact h.respond id approved
  | resolve c => exact h.resolve hs
  | shutdown => cases hs; exact h.shutdown

theorem run_cons {buffer : ℕ} {m : ApprovalMove} {moves : List ApprovalMove}
    (hr : run buffer s (m :: moves) = some s') :
    ∃ s₁, s.step buffer m = some s₁ ∧ run buffer s₁ moves = some s' := by
  simpa only [Approvals.run, List.foldlM_cons, Option.bind_eq_bind, Option.bind_eq_some_iff] using hr

theorem run_prompts_le {buffer : ℕ} {moves : List ApprovalMove}
    (hr : run buffer s moves = some s') : s.prompts.length ≤ s'.prompts.length := by
  induction moves generalizing s with
  | nil =>
      cases hr
      exact le_rfl
  | cons m moves ih =>
      obtain ⟨s₁, hs, hr⟩ := run_cons hr
      exact (step_prompts_le hs).trans (ih hr)

theorem Inv.run (h : Inv s) {buffer : ℕ} {moves : List ApprovalMove}
    (hbound : s'.prompts.length ≤ 2 ^ 64) (hr : run buffer s moves = some s') : Inv s' := by
  induction moves generalizing s with
  | nil =>
      cases hr
      exact h
  | cons m moves ih =>
      obtain ⟨s₁, hs, hr⟩ := run_cons hr
      exact ih (h.step ((run_prompts_le hr).trans hbound) hs) hr

/-- What the parties can rely on. -/
structure Reliable (buffer : ℕ) (s : Approvals) : Prop where
  /-- No number is given out twice. -/
  ids : (s.prompts.map Prod.fst).Nodup
  /-- No prompt is answered twice. -/
  answers : (s.answers.map Prod.fst).Nodup
  /-- The answers that are not of a timer are those of the commands that found their prompt. -/
  commands : s.commands.filterMap RespondApproval.answer =
    s.answers.filter fun a => a.2 ≠ .timedOut
  /-- A call returns `Approve` exactly if an approval took out the prompt filed for it, and then the
  timer of that prompt did not. -/
  decisions : ∀ n request d, s.calls[n]? = some ⟨request, .returned d⟩ →
    (d = .approve ↔ ∃ id, (id, ⟨request, n⟩) ∈ s.delivered ∧ (id, .responded true) ∈ s.answers ∧
      (id, .timedOut) ∉ s.answers ∧ ∀ t ∈ s.timers, t.id = id → t.fired ≠ some true)
  /-- At most one command with an id returns `Ok`. -/
  ok_once : ∀ id, s.commands.countP (fun c => c.id = id ∧ c.found) ≤ 1
  /-- After its timer has fired a prompt is gone. -/
  late : ∀ t ∈ s.timers, t.fired.isSome → ∀ approved, s.step buffer (.respond t.id approved) =
    some { s with commands :=
      s.commands ++ [⟨t.id, approved, .returned (.error noPendingApproval)⟩] }
  /-- The map holds the prompts that were delivered and are not answered. -/
  pending : ∀ id n, s.pending id = some n ↔
    (∃ request, (id, ⟨request, n⟩) ∈ s.delivered) ∧ id ∉ s.answers.map Prod.fst

theorem Inv.approved_iff (h : Inv s) {n : ℕ} {request : ApprovalRequest} {phase : CallPhase}
    (hn : s.calls[n]? = some ⟨request, phase⟩) : s.Approved n ↔
      ∃ id, (id, ⟨request, n⟩) ∈ s.delivered ∧ (id, .responded true) ∈ s.answers ∧
        (id, .timedOut) ∉ s.answers ∧ ∀ t ∈ s.timers, t.id = id → t.fired ≠ some true := by
  constructor
  · rintro ⟨id, p, hp, rfl, hid⟩
    obtain ⟨phase', hphase, -⟩ := h.ticketed.known p
      (List.mem_append_left _ (List.mem_map_of_mem hp))
    rw [hn] at hphase
    cases hphase
    have htimeout : (id, Answer.timedOut) ∉ s.answers := fun hto => by
      cases h.answer_inj hid hto
    refine ⟨id, hp, hid, htimeout, ?_⟩
    rintro t ht rfl hfired
    exact htimeout (h.timed.removed t ht hfired)
  · rintro ⟨id, hp, hid, -⟩
    exact ⟨id, _, hp, rfl, hid⟩

theorem Inv.reliable (h : Inv s) (hbound : s.prompts.length ≤ 2 ^ 64) (buffer : ℕ) :
    Reliable buffer s where
  ids := h.nodup_ids hbound
  answers := h.filed.nodup
  commands := h.commanded.found
  decisions n request d hn := (h.decided n _ d hn rfl).2.trans (h.approved_iff hn)
  ok_once id := by
    rw [List.countP_eq_length_filter]
    have hpair := h.found_once.filter fun c => c.id = id ∧ c.found
    rcases hl : s.commands.filter fun c => decide (c.id = id ∧ c.found) with _ | ⟨a, _ | ⟨b, l⟩⟩
    · rw [hl]
      exact Nat.zero_le 1
    · rw [hl]
      exact le_rfl
    · have hmem : ∀ c ∈ a :: b :: l, c.id = id ∧ c.found = true := by
        rw [← hl]
        intro c hc
        simpa using (List.mem_filter.1 hc).2
      rw [hl] at hpair
      obtain ⟨ha, ha'⟩ := hmem a (by simp)
      obtain ⟨hb, hb'⟩ := hmem b (by simp)
      exact absurd (ha.trans hb.symm) ((List.pairwise_cons.1 hpair).1 b (by simp) ha' hb')
  late t ht hfired approved := by
    obtain ⟨b, hb⟩ := Option.isSome_iff_exists.1 hfired
    simp only [Approvals.step, Approvals.respond,
      h.filed.pending_of_mem_answers (h.timed.answered t ht b hb)]
  pending id n := by
    rw [h.filed.pending id n]
    refine and_congr_left fun _ => ⟨?_, ?_⟩
    · rintro ⟨⟨request, m⟩, hp, rfl⟩
      exact ⟨request, hp⟩
    · rintro ⟨request, hp⟩
      exact ⟨_, hp, rfl⟩

/-- In every run that numbers at most `2 ^ 64` prompts the bridge is reliable, whatever the order of
the calls, the commands, the timers, the requests dropped and the shutdown. -/
theorem approvals_reliable (buffer : ℕ) (moves : List ApprovalMove) (s : Approvals)
    (hr : run buffer {} moves = some s) (hbound : s.prompts.length ≤ 2 ^ 64) :
    Reliable buffer s :=
  (Inv.start.run hbound hr).reliable hbound buffer

/-- A call is approved, and its timer comes too late. -/
def approvedInTime : List ApprovalMove :=
  [.call ⟨"agent", "wallet_getAddress", ""⟩, .send 0, .receive, .number, .deliver, .startTimer,
    .respond 1 true, .resolve 0, .fire 0, .finish 0]

theorem approvedInTime_reliable : ∃ s, run 32 {} approvedInTime = some s ∧
    s.calls.map Call.phase = [.returned .approve] ∧ s.timers.map Timer.fired = [some false] ∧
    Reliable 32 s :=
  ⟨_, rfl, rfl, rfl, approvals_reliable 32 approvedInTime _ rfl (by decide)⟩

/-! ## The counter wraps -/

theorem run_append {buffer : ℕ} {moves moves' : List ApprovalMove} {s₁ : Approvals}
    (h : run buffer s moves = some s₁) (h' : run buffer s₁ moves' = some s') :
    run buffer s (moves ++ moves') = some s' := by
  rw [Approvals.run, List.foldlM_append]
  exact (congrArg (· >>= _) h).trans h'

/-- The moves that take the next call to its prompt. -/
def promptOne (n : ℕ) : List ApprovalMove :=
  [.call ⟨"", "", ""⟩, .send n, .receive, .number, .deliver, .startTimer]

theorem run_promptOne (hb : s.bridge = .idle) (hq : s.queue = []) :
    ∃ s', run 1 s (promptOne s.calls.length) = some s' ∧ s'.bridge = .idle ∧ s'.queue = [] ∧
      s'.prompts.length = s.prompts.length + 1 := by
  simp [promptOne, Approvals.run, Approvals.step, Approvals.send, Approvals.receive,
    Approvals.number, Approvals.deliver, Approvals.startTimer, hb, hq, Approvals.onCall]

/-- There are runs with any number of prompts. -/
theorem exists_run (k : ℕ) : ∃ moves s, run 1 {} moves = some s ∧ s.bridge = .idle ∧
    s.queue = [] ∧ s.prompts.length = k := by
  induction k with
  | zero => exact ⟨[], {}, rfl, rfl, rfl, rfl⟩
  | succ k ih =>
      obtain ⟨moves, s, hr, hb, hq, hk⟩ := ih
      obtain ⟨s', hr', hb', hq', hk'⟩ := run_promptOne hb hq
      exact ⟨moves ++ promptOne s.calls.length, s', run_append hr hr', hb', hq', by rw [hk', hk]⟩

/-- With more prompts than there are numbers one of them comes up again. -/
theorem ids_repeat : ∃ moves s, run 1 {} moves = some s ∧ ¬ (s.prompts.map Prod.fst).Nodup := by
  obtain ⟨moves, s, hr, -, -, hk⟩ := exists_run (2 ^ 64 + 1)
  refine ⟨moves, s, hr, fun hnodup => ?_⟩
  have hcard := hnodup.length_le_card
  rw [List.length_map, hk, ← FinEnum.card_eq_fintypeCard, FinEnum.card_bitVec] at hcard
  omega

theorem unreliable_after_wrap :
    ¬ ∀ buffer moves s, run buffer {} moves = some s → Reliable buffer s := by
  intro h
  obtain ⟨moves, s, hr, hids⟩ := ids_repeat
  exact hids (h 1 moves s hr).ids

end Approvals

end Strkd.Desktop
