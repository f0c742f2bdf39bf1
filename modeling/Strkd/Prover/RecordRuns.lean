import Strkd.Prover.JobRuns

/-!
# Proof records over restarts

The job counter stays ahead of every record on disk, through clears, crashes and restarts, so a job
never writes over the record of another.  A start has to see the whole directory for that, and the
counter must not wrap around.
-/

namespace Strkd.Prover

open Rpc

/-- The name of the record with a number. -/
def recordName (n : ℕ) : String := fileName ("p" ++ toString n)

theorem recordName_toNat (n : U64) : recordName n.toNat = fileName (jobIdOf n) := rfl

/-- The number an access takes. -/
def numberTaken : Event TaskOp TaskAns → Option U64
  | ⟨.takeSeq, n⟩ => some n
  | _ => none

/-- The numbers the task with a number has taken. -/
def numbersOf (s : Running) (i : ℕ) : List U64 := (s.traceAt i).filterMap numberTaken

/-- No record is written over, no two tasks have a number in common, and the counter is ahead. -/
structure RecordsSafe (s : Running) : Prop where
  fresh : ∀ (pid : ℕ) (p : Process TaskOp TaskAns ProverTask Answered) record next,
    s.procs[pid]? = some p → p.rest = some (.step (.save record) next) →
      fileName record.jobId ∉ s.world.dir.names
  nodup : ∀ i, (numbersOf s i).Nodup
  apart : ∀ i k n, n ∈ numbersOf s i → n ∈ numbersOf s k → i = k
  ahead : ∀ n, recordName n ∈ s.world.dir.names → n < s.world.jobs.seq.toNat

/-! ## The invariant -/

/-- Every record on disk has a number below the counter, and no task holds its job. -/
structure DiskSound (d : Dir) (g : Jobs) (own : ℕ → Hold) : Prop where
  ahead : ∀ n, recordName n ∈ d.names → n < g.seq.toNat
  unsaved : ∀ i id, (own i).job = some id → fileName id ∉ d.names

/-- The numbers taken are distinct and below the counter. -/
structure Counted (s : Running) : Prop where
  nodup : ∀ i, (numbersOf s i).Nodup
  apart : ∀ i k n, n ∈ numbersOf s i → n ∈ numbersOf s k → i = k
  below : ∀ i n, n ∈ numbersOf s i → n.toNat < s.world.jobs.seq.toNat

structure Recorded (s : Running) : Prop where
  ledger : ∃ h, Ledger False s.world.jobs (holds s) h
  disk : DiskSound s.world.dir s.world.jobs (holds s)
  counted : Counted s

/-- The job counter has room for one more. -/
def SeqRoom (s : Running) (_ : Move TaskOp TaskAns ProverTask) : Prop :=
  s.world.jobs.seq.toNat + 1 < 2 ^ 64

/-- A start that sees every file, on a disk whose record numbers the counter can pass. -/
structure SeesAll (d : Dir) (found : List String) : Prop where
  all : d.names ⊆ found
  room : maxSeq found ≠ some (.ofNat 64 (2 ^ 64 - 1))
  small : ∀ n, recordName n ∈ d.names → n < 2 ^ 64

namespace DiskSound

variable {d : Dir} {g g' : Jobs} {own : ℕ → Hold} {pid : ℕ} {H : Hold}

/-- What a task holds changes, but not which job it is. -/
theorem update (h : DiskSound d g own) (hseq : g'.seq = g.seq)
    (hjob : ∀ id, H.job = some id → (own pid).job = some id) :
    DiskSound d g' (Function.update own pid H) := by
  refine ⟨fun n hn => hseq ▸ h.ahead n hn, fun i id hi => ?_⟩
  by_cases hip : i = pid
  · rw [hip, Function.update_self] at hi
    exact h.unsaved pid id (hjob id hi)
  · rw [Function.update_of_ne hip] at hi
    exact h.unsaved i id hi

/-- A task lets go of its job, and another task takes it over. -/
theorem hand (h : DiskSound d g own) {k : ℕ}
    (hjob : ∀ id, H.job = some id → (own pid).job = some id) :
    DiskSound d g (Function.update (Function.update own pid .nothing) k H) := by
  refine ⟨h.ahead, fun i id hi => ?_⟩
  by_cases hik : i = k
  · rw [hik, Function.update_self] at hi
    exact h.unsaved pid id (hjob id hi)
  · rw [Function.update_of_ne hik] at hi
    by_cases hip : i = pid
    · rw [hip, Function.update_self] at hi
      cases hi
    · rw [Function.update_of_ne hip] at hi
      exact h.unsaved i id hi

/-- The next number is no record's yet. -/
theorem takeSeq (h : DiskSound d g own) (hroom : g.seq.toNat + 1 < 2 ^ 64) :
    DiskSound d g.takeSeq.2 (Function.update own pid (.taken (jobIdOf g.seq))) := by
  have hseq : (g.seq + 1).toNat = g.seq.toNat + 1 := by
    rw [BitVec.toNat_add]
    exact Nat.mod_eq_of_lt hroom
  refine ⟨fun n hn => ?_, fun i id hi => ?_⟩
  · have := h.ahead n hn
    show n < (g.seq + 1).toNat
    omega
  · by_cases hip : i = pid
    · rw [hip, Function.update_self] at hi
      rw [← Option.some.inj hi]
      intro hmem
      exact absurd (h.ahead g.seq.toNat hmem) (Nat.lt_irrefl _)
    · rw [Function.update_of_ne hip] at hi
      exact h.unsaved i id hi

/-- The directory may lose files. -/
theorem subset (h : DiskSound d g own) {d' : Dir} (hd : ∀ name, name ∈ d'.names → name ∈ d.names) :
    DiskSound d' g own :=
  ⟨fun n hn => h.ahead n (hd _ hn), fun i id hi hmem => h.unsaved i id hi (hd _ hmem)⟩

/-- A task writes the record of the job it holds, and lets go of it. -/
theorem save (h : DiskSound d g own) {jobs : List Change} (hs : Sound g own jobs) {id : String}
    (hown : (own pid).job = some id) (contents : Option ProofRecord) :
    DiskSound (d.write (fileName id) contents) g (Function.update own pid .nothing) := by
  refine ⟨fun n hn => ?_, fun i id' hi hmem => ?_⟩
  · rcases Dir.mem_names_write.1 hn with heq | hn
    · obtain ⟨k, rfl, hlt⟩ := hs.used pid id hown
      have hid := fileName_injective heq
      have hk : n = k.toNat := by
        have hlist := congrArg String.toList hid
        simp only [jobIdOf, String.toList_append, List.append_right_inj] at hlist
        exact toString_injective (String.toList_inj.1 hlist)
      rwa [hk]
    · exact h.ahead n hn
  · by_cases hip : i = pid
    · rw [hip, Function.update_self] at hi
      cases hi
    · rw [Function.update_of_ne hip] at hi
      rcases Dir.mem_names_write.1 hmem with heq | hmem
      · rw [fileName_injective heq] at hi
        exact hip (hs.apart i pid id hi hown)
      · exact h.unsaved i id' hi hmem

end DiskSound

/-! ## One step -/

theorem numbersOf_run {s s' : Running} {pid : ℕ} {op : TaskOp} {a : TaskAns op}
    (hs : Sys.Step prover s (.run pid ⟨op, a⟩) s') (i : ℕ) :
    numbersOf s' i = if i = pid then numbersOf s pid ++ (numberTaken ⟨op, a⟩).toList
      else numbersOf s i := by
  obtain ⟨-, -, hpid, hothers⟩ := hs.of_run
  unfold numbersOf
  split_ifs with hi
  · have hone : [(⟨op, a⟩ : Event TaskOp TaskAns)].filterMap numberTaken =
        (numberTaken ⟨op, a⟩).toList := by
      cases h : numberTaken ⟨op, a⟩ with
      | none => rw [List.filterMap_cons_none h, List.filterMap_nil, Option.toList_none]
      | some n => rw [List.filterMap_cons_some h, List.filterMap_nil, Option.toList_some]
    rw [hi, hpid, List.filterMap_append, hone]
  · rw [hothers i hi]

/-- An access that takes no number. -/
theorem Counted.same {s s' : Running} (h : Counted s) (hn : ∀ i, numbersOf s' i = numbersOf s i)
    (hseq : s'.world.jobs.seq = s.world.jobs.seq) : Counted s' := by
  refine ⟨fun i => hn i ▸ h.nodup i, fun i k n hi hk => ?_, fun i n hi => ?_⟩
  · rw [hn] at hi hk
    exact h.apart i k n hi hk
  · rw [hn] at hi
    rw [hseq]
    exact h.below i n hi

theorem Counted.takeSeq {s s' : Running} {pid : ℕ} (h : Counted s)
    (hroom : s.world.jobs.seq.toNat + 1 < 2 ^ 64)
    (hn : ∀ i, numbersOf s' i =
      if i = pid then numbersOf s pid ++ [s.world.jobs.seq] else numbersOf s i)
    (hseq : s'.world.jobs.seq = s.world.jobs.seq + 1) : Counted s' := by
  have hnext : s'.world.jobs.seq.toNat = s.world.jobs.seq.toNat + 1 := by
    rw [hseq, BitVec.toNat_add]
    exact Nat.mod_eq_of_lt hroom
  have hnew : ∀ i, s.world.jobs.seq ∉ numbersOf s i :=
    fun i hi => absurd (h.below i _ hi) (Nat.lt_irrefl _)
  have hmem : ∀ i n, n ∈ numbersOf s' i →
      n ∈ numbersOf s i ∨ (i = pid ∧ n = s.world.jobs.seq) := by
    intro i n hi
    rw [hn] at hi
    split_ifs at hi with hip
    · rcases List.mem_append.1 hi with hi | hi
      · exact Or.inl (hip ▸ hi)
      · exact Or.inr ⟨hip, List.mem_singleton.1 hi⟩
    · exact Or.inl hi
  refine ⟨fun i => ?_, fun i k n hi hk => ?_, fun i n hi => ?_⟩
  · rw [hn]
    split_ifs with hip
    · rw [List.nodup_append]
      refine ⟨h.nodup pid, List.nodup_singleton _, fun n hi m hm => ?_⟩
      rw [List.mem_singleton.1 hm]
      intro heq
      exact hnew pid (heq ▸ hi)
    · exact h.nodup i
  · rcases hmem i n hi with hi | ⟨hip, hin⟩ <;> rcases hmem k n hk with hk | ⟨hkp, hkn⟩
    · exact h.apart i k n hi hk
    · exact absurd (hkn ▸ hi) (hnew i)
    · exact absurd (hin ▸ hk) (hnew k)
    · rw [hip, hkp]
  · rcases hmem i n hi with hi | ⟨-, rfl⟩
    · have := h.below i n hi
      omega
    · omega

theorem Jobs.seq_update (g : Jobs) (id : String) (f : Job → Job) : (g.update id f).seq = g.seq := by
  cases h : g.get id with
  | none => rw [Jobs.update_of_none h]
  | some j => rw [Jobs.update_of_get h, Jobs.seq_pushActivity]

theorem Recorded.step {s s' : Running} {m : Move TaskOp TaskAns ProverTask}
    (hsafe : s.Safe taskRules fun task => Leaves task fun _ _ => True) (h : Recorded s)
    (hroom : s.world.jobs.seq.toNat + 1 < 2 ^ 64) (hs : Sys.Step prover s m s') : Recorded s' := by
  obtain ⟨seen, hl⟩ := h.ledger
  have hledger := hl.step hsafe hroom (fun hf => hf.elim) hs
  suffices hrest : DiskSound s'.world.dir s'.world.jobs (holds s') ∧ Counted s' from
    ⟨⟨_, hledger⟩, hrest.1, hrest.2⟩
  by_cases hm : ∃ pid e, m = .run pid e
  · obtain ⟨pid, ⟨op, a⟩, rfl⟩ := hm
    obtain ⟨hx, ⟨p, next, hp, hr⟩, -, -⟩ := hs.of_run
    obtain ⟨hlt, hholds⟩ := holds_of_run hs
    have hnumbers := numbersOf_run hs
    have hallows : (holds s pid).Allows op := by
      rw [holds_eq hp]
      exact hsafe.allows hp hr
    have hx : Access s.world op a s'.world := hx
    rw [hholds]
    have hkeep : Function.update (holds s) pid (holds s pid) = holds s :=
      Function.update_eq_self _ _
    -- every access but one takes no number
    have hcounted : numberTaken ⟨op, a⟩ = none → s'.world.jobs.seq = s.world.jobs.seq →
        Counted s' := by
      intro hnone hseq
      refine h.counted.same (fun i => ?_) hseq
      rw [hnumbers, hnone, Option.toList_none, List.append_nil]
      split_ifs with hi
      · rw [hi]
      · rfl
    generalize hw : s'.world = w' at hx hcounted ⊢
    cases hx with
    | takeSeq =>
        refine ⟨h.disk.takeSeq hroom, h.counted.takeSeq hroom hnumbers ?_⟩
        rw [hw]
        rfl
    | insertJob job =>
        obtain ⟨hown, -, -, -⟩ := hallows
        have hseq := Jobs.seq_insert (g := s.world.jobs) job
        refine ⟨h.disk.update hseq fun id hid => ?_, hcounted rfl hseq⟩
        rw [hown]
        exact hid
    | setStatus jobId status =>
        obtain ⟨hown, -⟩ := hallows
        have hseq : (s.world.jobs.setStatus jobId status).seq = _ := Jobs.seq_update _ _ _
        refine ⟨h.disk.update hseq fun id hid => ?_, hcounted rfl hseq⟩
        rw [hown]
        exact hid
    | succeed jobId result =>
        have hown : holds s pid = .proving jobId := hallows
        have hseq : (s.world.jobs.succeed jobId result).seq = _ := Jobs.seq_update _ _ _
        refine ⟨h.disk.update hseq fun id hid => ?_, hcounted rfl hseq⟩
        rw [hown]
        exact hid
    | fail jobId error =>
        have hown : holds s pid = .proving jobId := hallows
        have hseq : (s.world.jobs.fail jobId error).seq = _ := Jobs.seq_update _ _ _
        refine ⟨h.disk.update hseq fun id hid => ?_, hcounted rfl hseq⟩
        rw [hown]
        exact hid
    | spawn task =>
        have hown : holds s pid = .queued task.jobId := hallows
        refine ⟨h.disk.hand fun id hid => ?_, hcounted rfl rfl⟩
        rw [hown]
        exact hid
    | save record dir hdir =>
        have hown : holds s pid = .ended record.jobId := hallows
        refine ⟨?_, hcounted rfl rfl⟩
        have hjob : (holds s pid).job = some record.jobId := by
          rw [hown]
          rfl
        simp only [List.mem_cons, List.not_mem_nil, or_false] at hdir
        rcases hdir with rfl | rfl | rfl
        · exact h.disk.update rfl fun _ hid => nomatch hid
        · exact h.disk.save hl.sound hjob none
        · exact h.disk.save hl.sound hjob (some record)
    | nowMs now => exact ⟨hkeep.symm ▸ h.disk, hcounted rfl rfl⟩
    | prove payload label network res => exact ⟨hkeep.symm ▸ h.disk, hcounted rfl rfl⟩
    | elapsedMs ms => exact ⟨hkeep.symm ▸ h.disk, hcounted rfl rfl⟩
    | readDir found hfound => exact ⟨hkeep.symm ▸ h.disk, hcounted rfl rfl⟩
    | removeFile name gone =>
        refine ⟨?_, hcounted rfl rfl⟩
        have hdisk : DiskSound (if gone then s.world.dir.remove name else s.world.dir)
            s.world.jobs (holds s) := h.disk.subset fun name' hmem => by
          split_ifs at hmem
          · exact Dir.mem_names_of_remove hmem
          · exact hmem
        exact hkeep.symm ▸ hdisk
  · have hm : ∀ pid e, m ≠ .run pid e := fun pid e heq => hm ⟨pid, e, heq⟩
    obtain ⟨hw, htrace⟩ := hs.of_still hm
    rw [holds_of_still hs hm, hw]
    refine ⟨h.disk, h.counted.same (fun i => ?_) (by rw [hw])⟩
    rw [numbersOf, htrace]
    rfl

/-- A prover that has just started on a directory it saw. -/
def StartedOn (s : Running) : Prop :=
  s.procs = [] ∧ ∃ d found, SeesAll d found ∧ buildProverState d found s.world

theorem recorded_startedOn {s : Running} (hs : StartedOn s) : Recorded s := by
  obtain ⟨hprocs, d, found, hsees, -, hw⟩ := hs
  have hnothing : ∀ i, holds s i = .nothing := by
    intro i
    rw [holds, hprocs]
    rfl
  have hnumbers : ∀ i, numbersOf s i = [] := by
    intro i
    rw [numbersOf, Sys.traceAt, hprocs]
    rfl
  refine ⟨⟨[], ledger_justBuilt ⟨hprocs, nextSeq found, d, hw⟩⟩, ⟨fun n hn => ?_, fun i id hi => ?_⟩,
    ⟨fun i => ?_, fun i k n hi => ?_, fun i n hi => ?_⟩⟩
  · rw [hw] at hn ⊢
    have hlt := hsees.small n hn
    have hnat : (BitVec.ofNat 64 n).toNat = n := by
      rw [BitVec.toNat_ofNat, Nat.mod_eq_of_lt hlt]
    have hmem : fileName (jobIdOf (.ofNat 64 n)) ∈ found := by
      rw [← recordName_toNat, hnat]
      exact hsees.all hn
    have := lt_nextSeq hsees.room hmem
    rwa [hnat] at this
  · rw [hnothing] at hi
    cases hi
  · rw [hnumbers]
    exact List.nodup_nil
  · rw [hnumbers] at hi
    cases hi
  · rw [hnumbers] at hi
    cases hi

theorem Recorded.recordsSafe {s : Running}
    (hsafe : s.Safe taskRules fun task => Leaves task fun _ _ => True) (h : Recorded s) :
    RecordsSafe s := by
  refine ⟨fun pid p record next hp hr => ?_, h.counted.nodup, h.counted.apart, h.disk.ahead⟩
  have hown : held p.task p.trace = .ended record.jobId := hsafe.allows hp hr
  refine h.disk.unsaved pid record.jobId ?_
  rw [holds_eq hp, holdOf, hown]
  rfl

/-- Over jobs, clears, crashes and restarts on one directory, if every start sees the whole of it
and the counter has room: no record is ever written over. -/
theorem records_safe {s : Running}
    (h : Sys.Restarted prover Shared.dir buildProverState SeqRoom SeesAll s) : RecordsSafe s := by
  have hreach := h.reach
  have hsafe := safe_reach (fun _ h => h.1) hreach
  refine Recorded.recordsSafe hsafe ?_
  refine hreach.invariant (fun s hs => recorded_startedOn hs) fun s m s' hreach hrec hroom hs => ?_
  exact hrec.step (safe_reach (fun _ h => h.1) hreach) hroom hs

/-! ## Runs of one job -/

section

variable {C : Running → Move TaskOp TaskAns ProverTask → Prop} {B : Dir → List String → Prop}
variable {w w' : Shared} {ps : List (Process TaskOp TaskAns ProverTask Answered)}

/-- The task that came last makes an access that leaves nothing behind. -/
theorem restarted_run {p : Process TaskOp TaskAns ProverTask Answered} {op : TaskOp}
    {next : TaskAns op → Run Answered} {a : TaskAns op}
    (h : Sys.Restarted prover Shared.dir buildProverState C B ⟨w, ps ++ [p]⟩)
    (hr : p.rest = some (.step op next)) (hx : Access w op a w') (hop : spawned op = none)
    (hc : C ⟨w, ps ++ [p]⟩ (.run ps.length ⟨op, a⟩)) :
    Sys.Restarted prover Shared.dir buildProverState C B ⟨w', ps ++ [p.after op a (next a)]⟩ := by
  have hnil : prover.spawned op = [] := by
    show (spawned op).toList.map prover.fresh = []
    rw [hop]
    rfl
  have hstep := Sys.Restarted.step _ h hc (step_last hr hx)
  rwa [hnil, List.append_nil] at hstep

/-- The next access of some task writes the record of a job. -/
def Saves (s : Running) (jobId : String) : Prop :=
  ∃ (pid : ℕ) (p : Process TaskOp TaskAns ProverTask Answered) (record : ProofRecord)
    (next : Unit → Run Answered), s.procs[pid]? = some p ∧
      p.rest = some (.step (.save record) next) ∧ record.jobId = jobId

theorem RecordsSafe.notMem {s : Running} (h : RecordsSafe s) {jobId : String}
    (hs : Saves s jobId) : fileName jobId ∉ s.world.dir.names := by
  obtain ⟨pid, p, record, next, hp, hr, rfl⟩ := hs
  exact h.fresh pid p record next hp hr

/-- A prover is started and proves a job, up to the moment the record is written. -/
theorem restarted_job (d : Dir) (found : List String) (hB : B d found) (hfound : found ⊆ d.names)
    (hC : ∀ s m, s.world.jobs.seq ∈ [nextSeq found, nextSeq found + 1] → C s m) :
    ∃ s, Sys.Restarted prover Shared.dir buildProverState C B s ∧ s.world.dir = d ∧
      Saves s (jobIdOf (nextSeq found)) := by
  have hbefore : ∀ s m, s.world.jobs.seq = nextSeq found → C s m :=
    fun s m h => hC s m (h ▸ List.mem_cons_self)
  have hafter : ∀ s m, s.world.jobs.seq = nextSeq found + 1 → C s m :=
    fun s m h => hC s m (h ▸ List.mem_cons_of_mem _ List.mem_cons_self)
  have h₀ : Sys.Restarted prover Shared.dir buildProverState C B
      ⟨⟨{ seq := nextSeq found }, d⟩, []⟩ := .start d found _ hB ⟨hfound, rfl⟩
  have h₁ : Sys.Restarted prover Shared.dir buildProverState C B
      ⟨⟨{ seq := nextSeq found }, d⟩, [] ++ [prover.fresh (.enqueue .null none "")]⟩ :=
    .step _ h₀ (hbefore _ _ rfl) (.arrive _ _ trivial)
  have h₂ := restarted_run h₁ rfl (.takeSeq _) rfl (hbefore _ _ rfl)
  have h₃ := restarted_run h₂ rfl (.nowMs _ 0) rfl (hafter _ _ rfl)
  have h₄ := restarted_run h₃ rfl (.insertJob _ _) rfl (hafter _ _ rfl)
  have h₅ := Sys.Restarted.step _ h₄ (hafter _ _ rfl) (step_last rfl (.spawn _ _))
  -- the background task
  have h₆ := restarted_run h₅ rfl (.setStatus _ _ _) rfl (hafter _ _ rfl)
  have hproving (g : Jobs) (id : String) (hg : g.seq = nextSeq found + 1) :
      (g.setStatus id .proving).seq = nextSeq found + 1 := (Jobs.seq_update _ _ _).trans hg
  have h₇ := restarted_run h₆ rfl (.nowMs _ 0) rfl (hafter _ _ (hproving _ _ rfl))
  have h₈ := restarted_run h₇ rfl (.prove _ _ _ _ (.ok .null)) rfl (hafter _ _ (hproving _ _ rfl))
  have h₉ := restarted_run h₈ rfl (.elapsedMs _ 0) rfl (hafter _ _ (hproving _ _ rfl))
  have h₁₀ := restarted_run h₉ rfl (.succeed _ _ _) rfl (hafter _ _ (hproving _ _ rfl))
  exact ⟨_, h₁₀, rfl, 1, _, _, _, rfl, rfl, rfl⟩

end

/-- A job after an earlier one left the record `p4.json`. -/
theorem records_safe_oneJob : ∃ s,
    Sys.Restarted prover Shared.dir buildProverState SeqRoom SeesAll s ∧ Saves s "p5" ∧
      s.world.dir.names = ["p4.json"] ∧ RecordsSafe s := by
  have hsees : SeesAll [("p4.json", none)] ["p4.json"] := by
    refine ⟨fun _ h => h, by decide, fun n hn => ?_⟩
    have hname : fileName ("p" ++ toString n) = fileName ("p" ++ toString 4) :=
      List.mem_singleton.1 hn
    have hid := congrArg String.toList (fileName_injective hname)
    rw [String.toList_append, String.toList_append, List.append_right_inj] at hid
    rw [toString_injective (String.toList_inj.1 hid)]
    norm_num
  have hroom (s : Running) (m : Move TaskOp TaskAns ProverTask)
      (hseq : s.world.jobs.seq ∈ [nextSeq ["p4.json"], nextSeq ["p4.json"] + 1]) : SeqRoom s m := by
    have hnext : nextSeq ["p4.json"] = 5 := by decide
    rw [hnext] at hseq
    show s.world.jobs.seq.toNat + 1 < 2 ^ 64
    simp only [List.mem_cons, List.not_mem_nil, or_false] at hseq
    rcases hseq with hseq | hseq <;> rw [hseq] <;> decide
  obtain ⟨s, h, hd, hsaves⟩ := restarted_job _ _ hsees (fun _ h => h) hroom
  exact ⟨s, h, hsaves, by rw [hd]; rfl, records_safe h⟩

/-- A start that cannot read the directory, or that finds the record with the last number, counts
from 0 again: the next job writes over the record `p0.json`. -/
theorem records_overwritten :
    (∃ s, Sys.Restarted prover Shared.dir buildProverState (fun _ _ => True) (fun _ _ => True) s ∧
      s.world.dir.names = ["p0.json"] ∧ Saves s "p0" ∧ ¬ RecordsSafe s) ∧
    ∃ s, Sys.Restarted prover Shared.dir buildProverState (fun _ _ => True)
        (fun d found => found = d.names) s ∧
      s.world.dir.names = ["p0.json", "p18446744073709551615.json"] ∧ Saves s "p0" ∧
      ¬ RecordsSafe s := by
  constructor
  · obtain ⟨s, h, hd, hsaves⟩ := restarted_job (C := fun _ _ => True) (B := fun _ _ => True)
      [("p0.json", none)] [] trivial (List.nil_subset _) fun _ _ _ => trivial
    have hnames : s.world.dir.names = ["p0.json"] := by rw [hd]; rfl
    refine ⟨s, h, hnames, hsaves, fun hsafe => hsafe.notMem hsaves ?_⟩
    rw [hnames]
    exact List.mem_singleton.2 (by decide)
  · obtain ⟨s, h, hd, hsaves⟩ := restarted_job (C := fun _ _ => True)
      (B := fun d found => found = d.names)
      [("p0.json", none), ("p18446744073709551615.json", none)]
      ["p0.json", "p18446744073709551615.json"] rfl (fun _ h => h) fun _ _ _ => trivial
    have hnames : s.world.dir.names = ["p0.json", "p18446744073709551615.json"] := by rw [hd]; rfl
    have hzero : nextSeq ["p0.json", "p18446744073709551615.json"] = 0 := by decide
    rw [hzero] at hsaves
    refine ⟨s, h, hnames, hsaves, fun hsafe => hsafe.notMem hsaves ?_⟩
    rw [hnames]
    exact List.mem_cons.2 (Or.inl (by decide))

end Strkd.Prover
