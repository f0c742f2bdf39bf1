import Strkd.Service.Prompts
import Strkd.Service.Runs

/-!
# The auto-lock

The service with a wall clock that never goes back.  A tick of the auto-lock reads the settings, the
clock and the time of the last activity one after the other, then waits for the session: what it
locks is due when none of the three has gone stale by then.
-/

namespace Strkd.Service

open Wallet Prover Rpc Desktop

variable {K : Crates} {S : Setup}

/-! ## The service in time -/

/-- The world at a moment, with what the timeout is counted from. -/
structure Moment where
  world : World
  /-- Milliseconds since the epoch. -/
  now : ℕ
  /-- When a request last arrived, or an unlock last ended. -/
  touched : ℕ
  /-- When an unlock or a set-up last opened the session. -/
  opened : ℕ
  /-- The settings as last saved. -/
  saved : Settings

/-- What is read off the clock at a moment, as 64 bits. -/
def ReadsClock (t : ℕ) : (op : Op) → Ans op → Prop
  | .clock _, a => a = BitVec.ofNat 64 t
  | .touchActivity, a => a = BitVec.ofNat 64 t
  | _, _ => True

def touches : Op → Bool
  | .touchActivity => true
  | _ => false

/-- Whether an operation opens the session: a successful unlock, or the end of a set-up. -/
def opens : Event Op Ans → Bool
  | ⟨.unlockSession _ _, .ok _⟩ => true
  | ⟨.installSession _, _⟩ => true
  | _ => false

/-- The settings an operation saves. -/
def saves : Event Op Ans → Option Settings
  | ⟨.writeSettings s, .ok _⟩ => some s
  | _ => none

namespace Moment

/-- The moment of an operation at time `t`. -/
def after (tw : Moment) (t : ℕ) (e : Event Op Ans) (w : World) : Moment where
  world := w
  now := t
  touched := if touches e.1 then t else tw.touched
  opened := if opens e then t else tw.opened
  saved := (saves e).getD tw.saved

/-- An operation happens at some time from now on. -/
inductive Exec (K : Crates) : Moment → ℕ → (op : Op) → Ans op → Moment → Prop
  | at_time (tw : Moment) (pid t : ℕ) (op : Op) (a : Ans op) (w : World) (ht : tw.now ≤ t)
      (hr : ReadsClock t op a) (hx : World.Exec K tw.world pid op a w) :
      Exec K tw pid op a (tw.after t ⟨op, a⟩ w)

/-- The session may be locked for inactivity: as many minutes have passed as the settings say since
the last request, unlock or set-up. -/
def Due (tw : Moment) : Prop :=
  0 < tw.saved.autoLockMinutes.toNat ∧
    max tw.touched tw.opened + tw.saved.autoLockMinutes.toNat * 60000 ≤ tw.now

instance (tw : Moment) : Decidable tw.Due := inferInstanceAs (Decidable (_ ∧ _))

end Moment

def timed (K : Crates) (S : Setup) : Machine Op Ans Moment Task Reply where
  external
  start := Task.start K S
  exec := Moment.Exec K
  spawns
  drops tw := drops tw.world

abbrev MomentState := Sys Op Ans Moment Task Reply

/-- The service has just started: nothing has opened the session, and the settings are those on
disk. -/
structure JustStarted (s : MomentState) : Prop where
  procs : s.procs = []
  touched_le : s.world.touched ≤ s.world.now
  opened_le : s.world.opened ≤ s.world.touched
  last_eq : s.world.world.lastActivity = BitVec.ofNat 64 s.world.touched
  saved_eq : s.world.saved = Settings.load s.world.world.settings

/-! ## Ticks that are on time -/

/-- A tick that has begun and not ended. -/
def Underway (p : Proc) : Prop :=
  p.task = .command .autoLockTick ∧ p.trace ≠ [] ∧ ∃ op next, p.rest = some (.step op next)

/-- What changes the answer to whether the session is due. -/
def stirs (e : Event Op Ans) : Bool := touches e.1 || opens e || (saves e).isSome

/-- A tick reads the settings as they were last saved, with a timeout that fits in 64 bits of
milliseconds; when it reads the last activity, every unlock and set-up has been followed by one; and
nothing stirs while a tick is under way. -/
def Timely (s : MomentState) : Act → Prop
  | .run _ ⟨.readSettings, file⟩ => file = s.world.world.settings ∧
      Settings.load s.world.world.settings = s.world.saved ∧
      s.world.saved.autoLockMinutes.toNat * 60000 < 2 ^ 64
  | .run _ ⟨.lastActivity, _⟩ => s.world.opened ≤ s.world.touched
  | .run _ e => stirs e = true → ∀ (i : ℕ) (p : Proc), s.procs[i]? = some p → ¬ Underway p
  | _ => True

/-! ## What a tick does -/

/-- The timeout has passed, as a tick computes it. -/
def Lapsed (mins now last : U64) : Prop :=
  mins ≠ 0 ∧ (mins * 60 * 1000).toNat ≤ now.toNat - last.toNat

def TickMay (tr : Trace) : Op → Prop
  | .readSettings => tr = []
  | .clock use => use = .idle ∧ ∃ file, tr = [⟨.readSettings, file⟩]
  | .lastActivity => ∃ file now, tr = [⟨.readSettings, file⟩, ⟨.clock .idle, now⟩]
  | .lockSession => ∃ file now last,
      tr = [⟨.readSettings, file⟩, ⟨.clock .idle, now⟩, ⟨.lastActivity, last⟩] ∧
        Lapsed (Settings.load file).autoLockMinutes now last
  | _ => False

/-- The rule book of a tick; the other tasks have none here. -/
def tickRules : Task → Rules Op Ans
  | .command .autoLockTick => ⟨TickMay, fun _ _ _ => True⟩
  | _ => ⟨fun _ _ => True, fun _ _ _ => True⟩

theorem safe_free {α : Type} {tr : Trace} {Q : Trace → α → Prop} (hQ : ∀ tr a, Q tr a)
    (p : Prog Op Ans α) : Safe ⟨fun _ _ => True, fun _ _ _ => True⟩ tr p Q := by
  induction p generalizing tr with
  | pure a => exact hQ tr a
  | step op next ih => exact ⟨trivial, fun a _ => ih a⟩

theorem obeys_autoLockTick :
    Obeys ⟨TickMay, fun _ _ _ => True⟩ [] autoLockTick fun _ _ => True := by
  refine Obeys.act rfl fun file => ?_
  dsimp only
  split
  · rename_i hmins
    refine Obeys.act ⟨rfl, file, rfl⟩ fun now => Obeys.act ⟨file, now, rfl⟩ fun last => ?_
    split
    · rename_i hlapsed
      exact Obeys.act ⟨file, now, last, rfl, hmins, hlapsed⟩ fun _ => serves_pure trivial
    · exact serves_pure trivial
  · exact serves_pure trivial

theorem safe_start_tick (task : Task) :
    Safe (tickRules task) [] ((timed K S).start task) fun _ _ => True := by
  unfold tickRules
  split
  · exact Safe.bind (p := autoLockTick.run) obeys_autoLockTick fun _ _ _ _ => trivial
  · exact safe_free (fun _ _ => trivial) _

/-! ## What an operation changes -/

section Exec

variable {tw tw' : Moment} {pid : ℕ} {op : Op} {a : Ans op}

theorem lastActivity_of_exec {w w' : World} (h : World.Exec K w pid op a w')
    (hop : touches op = false) : w'.lastActivity = w.lastActivity := by
  cases h
  case failedWrite => rfl
  case tornSettings => rfl
  case effect h =>
      cases op with
      | touchActivity => cases hop
      | record entry => cases a <;> rfl
      | createAgentAccount id label => rcases a with e | account <;> rfl
      | createUserAccount label => rcases a with e | account <;> rfl
      | reattach name kind => rcases a with _ | ⟨id, token⟩ <;> rfl
      | unlockSession vault passphrase =>
          simp only [World.effect]
          split <;> rfl
      | writeTmp vault => rcases a with e | _ <;> rfl
      | renameTmp => rcases a with e | _ <;> rfl
      | renameToBackup name => rcases a with e | _ <;> rfl
      | createSettings => rcases a with e | _ <;> rfl
      | writeSettings s => rcases a with e | _ <;> rfl
      | _ => rfl

theorem Moment.Exec.now_le (h : Moment.Exec K tw pid op a tw') : tw.now ≤ tw'.now := by
  cases h with
  | at_time t op a w ht hr hx => exact ht

/-- What does not stir leaves the timeout as it is. -/
theorem Moment.Exec.calm (h : Moment.Exec K tw pid op a tw') (hop : stirs ⟨op, a⟩ = false) :
    tw'.touched = tw.touched ∧ tw'.opened = tw.opened ∧ tw'.saved = tw.saved := by
  simp only [stirs, Bool.or_eq_false_iff, Option.isSome_eq_false_iff, Option.isNone_iff_eq_none] at hop
  obtain ⟨⟨htouch, hopen⟩, hsave⟩ := hop
  cases h with
  | at_time t op a w ht hr hx =>
      simp only [Moment.after, htouch, hopen, hsave, Bool.false_eq_true, if_false,
        Option.getD_none, and_self]

theorem Moment.Exec.exec (h : Moment.Exec K tw pid op a tw') :
    World.Exec K tw.world pid op a tw'.world := by
  cases h with
  | at_time t op a w ht hr hx => exact hx

/-- The idle clock shows the last touch. -/
theorem Moment.Exec.idleClock (h : Moment.Exec K tw pid op a tw') (hle : tw.touched ≤ tw.now)
    (hlast : tw.world.lastActivity = BitVec.ofNat 64 tw.touched) :
    tw'.touched ≤ tw'.now ∧ tw'.world.lastActivity = BitVec.ofNat 64 tw'.touched := by
  cases h with
  | at_time t op a w ht hr hx =>
      cases htouch : touches op with
      | true =>
          cases op <;> cases htouch
          cases hx
          case effect => exact ⟨le_rfl, hr⟩
      | false =>
          simp only [Moment.after, htouch, Bool.false_eq_true, if_false]
          exact ⟨hle.trans ht, (lastActivity_of_exec hx htouch).trans hlast⟩

end Exec

/-! ## Ticks under way -/

/-- What a tick has read is so still. -/
def Holds (tw : Moment) : Event Op Ans → Prop
  | ⟨.readSettings, file⟩ => Settings.load file = tw.saved ∧
      tw.saved.autoLockMinutes.toNat * 60000 < 2 ^ 64
  | ⟨.clock _, a⟩ => ∃ t, tw.touched ≤ t ∧ t ≤ tw.now ∧ a = BitVec.ofNat 64 t
  | ⟨.lastActivity, a⟩ => a = BitVec.ofNat 64 tw.touched ∧ tw.opened ≤ tw.touched
  | _ => True

def OnTime (tw : Moment) (tr : Trace) : Prop := ∀ e ∈ tr, Holds tw e

theorem Holds.mono {tw tw' : Moment} {e : Event Op Ans} (h : Holds tw e) (hnow : tw.now ≤ tw'.now)
    (hsame : tw'.touched = tw.touched ∧ tw'.opened = tw.opened ∧ tw'.saved = tw.saved) :
    Holds tw' e := by
  obtain ⟨htouched, hopened, hsaved⟩ := hsame
  obtain ⟨op, a⟩ := e
  cases op with
  | readSettings =>
      unfold Holds
      rw [hsaved]
      exact h
  | clock use =>
      obtain ⟨t, ht, hle, rfl⟩ := h
      exact ⟨t, htouched ▸ ht, hle.trans hnow, rfl⟩
  | lastActivity =>
      unfold Holds
      rw [htouched, hopened]
      exact h
  | _ => trivial

theorem OnTime.append {tw : Moment} {tr : Trace} {e : Event Op Ans} (h : OnTime tw tr)
    (he : Holds tw e) : OnTime tw (tr ++ [e]) := by
  intro e' he'
  rcases List.mem_append.1 he' with he' | he'
  · exact h e' he'
  · rw [List.mem_singleton.1 he']
    exact he

/-- The computation of a tick is right about what it has read. -/
theorem OnTime.due {tw : Moment} {file : SettingsFile} {now last : U64}
    (h : OnTime tw [⟨.readSettings, file⟩, ⟨.clock .idle, now⟩, ⟨.lastActivity, last⟩])
    (hl : Lapsed (Settings.load file).autoLockMinutes now last) : tw.Due := by
  obtain ⟨hload, hfits⟩ := h ⟨.readSettings, file⟩ (by simp)
  obtain ⟨t, htouched, hnow, rfl⟩ := h ⟨.clock .idle, now⟩ (by simp)
  obtain ⟨rfl, hopened⟩ := h ⟨.lastActivity, last⟩ (by simp)
  rw [hload] at hl
  obtain ⟨hne, hle⟩ := hl
  generalize hm : tw.saved.autoLockMinutes = m at hfits hne hle
  have hpos : m.toNat ≠ 0 := fun h0 => hne (BitVec.eq_of_toNat_eq h0)
  have hmillis : (m * 60 * 1000).toNat = m.toNat * 60000 := by
    have h60 : (60 : U64).toNat = 60 := rfl
    have h1000 : (1000 : U64).toNat = 1000 := rfl
    rw [BitVec.toNat_mul, BitVec.toNat_mul, h60, h1000]
    omega
  -- truncating two moments to 64 bits never brings them further apart
  have hidle : (BitVec.ofNat 64 t).toNat - (BitVec.ofNat 64 tw.touched).toNat ≤ t - tw.touched := by
    rw [BitVec.toNat_ofNat, BitVec.toNat_ofNat]
    omega
  rw [hmillis] at hle
  rw [Moment.Due, hm, max_eq_left hopened]
  omega

/-! ## Runs -/

/-- The idle clock shows the last activity, and every tick under way is on time. -/
structure Punctual (s : MomentState) : Prop where
  touched_le : s.world.touched ≤ s.world.now
  last_eq : s.world.world.lastActivity = BitVec.ofNat 64 s.world.touched
  ticks : ∀ (i : ℕ) (p : Proc), s.procs[i]? = some p → Underway p → OnTime s.world p.trace

variable {s s' : MomentState}

theorem JustStarted.punctual (h : JustStarted s) : Punctual s := by
  refine ⟨h.touched_le, h.last_eq, fun i p hp _ => ?_⟩
  rw [h.procs] at hp
  cases hp

theorem Timely.calm {pid : ℕ} {e : Event Op Ans} (h : Timely s (.run pid e)) (he : stirs e = true)
    {i : ℕ} {p : Proc} (hp : s.procs[i]? = some p) : ¬ Underway p := by
  obtain ⟨op, a⟩ := e
  cases op with
  | readSettings => cases he
  | lastActivity => cases he
  | _ => exact h he i p hp

theorem calm_of_tickMay {tr : Trace} {op : Op} {a : Ans op} (h : TickMay tr op) :
    stirs ⟨op, a⟩ = false := by
  cases op <;> first | rfl | cases h

/-- What a tick reads holds when it is read. -/
theorem Timely.holds {tw' : Moment} {pid : ℕ} {tr : Trace} {op : Op} {a : Ans op}
    (h : Timely s (.run pid ⟨op, a⟩)) (hs : Punctual s) (hx : Moment.Exec K s.world pid op a tw')
    (hmay : TickMay tr op) : Holds tw' ⟨op, a⟩ := by
  obtain ⟨htouched, hopened, hsaved⟩ := hx.calm (calm_of_tickMay hmay)
  cases op with
  | readSettings =>
      obtain ⟨rfl, hload, hfits⟩ := h
      exact ⟨hload.trans hsaved.symm, hsaved ▸ hfits⟩
  | clock use =>
      cases hx with
      | at_time t op a w ht hr hx => exact ⟨t, hs.touched_le.trans ht, le_rfl, hr⟩
  | lastActivity =>
      have ha : a = s.world.world.lastActivity := hx.exec.answers
      refine ⟨?_, ?_⟩
      · rw [ha, hs.last_eq, htouched]
      · rw [hopened, htouched]
        exact h
  | _ => trivial

/-- A timely step keeps every tick on time. -/
theorem Punctual.step (h : Punctual s) (hsafe : s.Safe tickRules fun _ _ _ => True) {m : Act}
    (hc : Timely s m) (hs : Sys.Step (timed K S) s m s') : Punctual s' := by
  have hfresh : ∀ task, ¬ Underway ((timed K S).fresh task) := fun task hu => hu.2.1 rfl
  have hdropped : ∀ p : Proc, ¬ Underway p.dropped := by
    rintro p ⟨-, -, op, next, hr⟩
    cases hr
  by_cases hm : ∀ pid e, m ≠ .run pid e
  · obtain ⟨hworld, -⟩ := hs.of_still hm
    refine ⟨hworld ▸ h.touched_le, hworld ▸ h.last_eq, fun i q hq hu => ?_⟩
    rw [hworld]
    rcases hs.process hq with hq | ⟨p, op, next, a, -, -, hrun, -⟩ | ⟨p, -, -, rfl⟩ |
      ⟨-, task, rfl⟩
    · exact h.ticks i q hq hu
    · exact absurd hrun (hm _ _)
    · exact absurd hu (hdropped p)
    · exact absurd hu (hfresh task)
  · push Not at hm
    obtain ⟨pid, ⟨op, a⟩, rfl⟩ := hm
    obtain ⟨hx, -⟩ := hs.of_run
    obtain ⟨hle, hlast⟩ := Moment.Exec.idleClock hx h.touched_le h.last_eq
    refine ⟨hle, hlast, fun i q hq hu => ?_⟩
    rcases hs.process hq with hq | ⟨p, op', next, a', hp, hr, hrun, -, rfl⟩ | ⟨p, -, -, rfl⟩ |
      ⟨-, task, rfl⟩
    · have hstill : stirs ⟨op, a⟩ = false := by
        rw [← Bool.not_eq_true]
        exact fun he => hc.calm he hq hu
      exact fun e he => (h.ticks i q hq hu e he).mono hx.now_le (hx.calm hstill)
    · cases hrun
      have hmay : TickMay p.trace op := by
        have hallowed := hsafe.allows hp hr
        rw [show p.task = .command .autoLockTick from hu.1] at hallowed
        exact hallowed
      have hbefore : OnTime s.world p.trace := by
        by_cases hnil : p.trace = []
        · rw [hnil]
          exact fun e he => nomatch he
        · exact h.ticks pid p hp ⟨hu.1, hnil, op, next, hr⟩
      refine OnTime.append (fun e he => ?_) (hc.holds h hx hmay)
      exact (hbefore e he).mono hx.now_le (hx.calm (calm_of_tickMay hmay))
    · exact absurd hu (hdropped p)
    · exact absurd hu (hfresh task)

theorem safe_timed {C : MomentState → Act → Prop} (h : Sys.Reach (timed K S) JustStarted C s) :
    s.Safe tickRules fun _ _ _ => True := by
  refine h.safe (fun s hs => hs.procs) safe_start_tick fun task tr op a => ?_
  unfold tickRules
  split <;> trivial

theorem punctual_of_reach (h : Sys.Reach (timed K S) JustStarted Timely s) : Punctual s :=
  h.invariant (fun _ => JustStarted.punctual)
    fun _ _ _ hreach hp hc hs => hp.step (safe_timed hreach) hc hs

/-- In every run whose steps are timely, what the auto-lock locks is due: the timeout last saved is
not 0, and has passed since the last request, unlock and set-up. -/
theorem autoLock_due (h : Sys.Reach (timed K S) JustStarted Timely s) {pid : ℕ} {p : Proc}
    (hp : s.procs[pid]? = some p) (ht : p.task = .command .autoLockTick)
    (hs : Sys.Step (timed K S) s (.run pid ⟨.lockSession, ()⟩) s') : s'.world.Due := by
  have hpunctual := punctual_of_reach h
  obtain ⟨hx, ⟨p', next, hp', hr⟩, -⟩ := hs.of_run
  obtain rfl : p = p' := Option.some.inj (hp.symm.trans hp')
  have hmay : TickMay p.trace .lockSession := by
    have hallowed := (safe_timed h).allows hp hr
    rw [ht] at hallowed
    exact hallowed
  obtain ⟨file, now, last, htr, hlapsed⟩ := hmay
  have htick : OnTime s.world p.trace := by
    refine hpunctual.ticks pid p hp ⟨ht, ?_, _, next, hr⟩
    rw [htr]
    exact List.cons_ne_nil _ _
  have hafter : OnTime s'.world p.trace := fun e he => (htick e he).mono hx.now_le (hx.calm rfl)
  rw [htr] at hafter
  exact hafter.due hlapsed

/-! ## Two ticks -/

/-- Answer at time `t`, and have the effect. -/
def timing (K : Crates) (t : ℕ) (oracle : (op : Op) → Option (Ans op)) (tw : Moment) (pid : ℕ)
    (op : Op) : Option (Ans op × Moment) :=
  if tw.now ≤ t then
    (answering K oracle tw.world pid op).map fun (a, w) => (a, tw.after t ⟨op, a⟩ w)
  else none

theorem exec_timing {t : ℕ} {oracle : (op : Op) → Option (Ans op)}
    (horacle : ∀ op a, oracle op = some a → ReadsClock t op a) (tw : Moment) (pid : ℕ) (op : Op)
    (a : Ans op) (tw' : Moment) (h : timing K t oracle tw pid op = some (a, tw')) :
    (timed K S).exec tw pid op a tw' := by
  unfold timing at h
  split at h
  · rename_i ht
    obtain ⟨⟨b, w⟩, hb, heq⟩ := Option.map_eq_some_iff.1 h
    cases heq
    refine .at_time tw pid t op _ w ht ?_ (exec_answering (S := S) _ _ _ _ _ hb)
    obtain ⟨c, hc, heq⟩ := Option.map_eq_some_iff.1 hb
    cases heq
    cases op with
    | clock use => exact horacle (.clock use) _ hc
    | touchActivity => exact horacle .touchActivity _ hc
    | _ => trivial
  · cases h

/-- A quarter of an hour after the app started. -/
def quarter : ℕ := 900000

/-- The clock shows a quarter past, and the disk takes what it is given. -/
def atQuarter : (op : Op) → Option (Ans op)
  | .clock _ | .touchActivity => some (BitVec.ofNat 64 quarter)
  | .entropy => some plainDraws
  | .writeTmp _ => some (.ok ())
  | _ => none

theorem readsClock_atQuarter (op : Op) (a : Ans op) (h : atQuarter op = some a) :
    ReadsClock quarter op a := by
  cases op with
  | clock use => exact (Option.some.inj h).symm
  | touchActivity => exact (Option.some.inj h).symm
  | _ => trivial

/-- The app just started, with no vault and no settings. -/
def startedApp : Moment where
  world := { session := ⟨.sepolia, none⟩ }
  now := 0
  touched := 0
  opened := 0
  saved := {}

theorem justStarted_startedApp : JustStarted ⟨startedApp, []⟩ := ⟨rfl, le_rfl, le_rfl, rfl, rfl⟩

/-- A set-up, and a tick after it. -/
def setUpTasks : List Task := [.command (.importMnemonic "test"), .command (.finalizeSetup "pass"),
  .command .autoLockTick]

/-- The import, the set-up, and the tick up to its lock. -/
def setUpPlay : Option (List Act × MomentState) :=
  Sys.play (timed plainCrates plainSetup) (timing plainCrates quarter atQuarter)
    ⟨startedApp, setUpTasks.map (timed plainCrates plainSetup).fresh⟩ [0, 1, 1, 1, 1, 1, 2, 2, 2]

/-- Whether the session is open and the third process is a tick at its lock. -/
def atLock (s : MomentState) : Bool :=
  match (s.procs[2]? : Option Proc) with
  | some ⟨.command .autoLockTick, _, some (.step .lockSession _)⟩ =>
      !s.world.world.session.isLocked && s.world.world.holder.isNone && s.world.now ≤ quarter &&
        s.world.opened = quarter && s.world.saved.autoLockMinutes = 15
  | _ => false

/-- Fifteen minutes after the app started a wallet is set up, and the tick that follows locks it at
once: a set-up does not start the idle clock. -/
theorem autoLock_early : ∃ (s s' : MomentState) (p : Proc),
    Sys.Reach (timed plainCrates plainSetup) JustStarted (fun _ _ => True) s ∧
      s.procs[2]? = some p ∧ p.task = .command .autoLockTick ∧
      s.world.world.session.isLocked = false ∧
      Sys.Step (timed plainCrates plainSetup) s (.run 2 ⟨.lockSession, ()⟩) s' ∧
      ¬ s'.world.Due := by
  have hplay : setUpPlay.map (fun r => atLock r.2) = some true := by decide +kernel
  obtain ⟨⟨moves, s⟩, h, hlock⟩ := Option.map_eq_some_iff.1 hplay
  have hstart : Sys.Reach (timed plainCrates plainSetup) JustStarted (fun _ _ => True)
      ⟨startedApp, setUpTasks.map (timed plainCrates plainSetup).fresh⟩ := by
    refine .arrivals justStarted_startedApp (fun _ _ => trivial) fun task ht => ?_
    simp only [setUpTasks, List.mem_cons, List.not_mem_nil, or_false] at ht
    rcases ht with rfl | rfl | rfl <;> trivial
  have hreach := hstart.play (fun _ _ _ _ _ _ => trivial) (exec_timing readsClock_atQuarter) h
  simp only [atLock] at hlock
  split at hlock
  · rename_i tr next hp
    simp only [Bool.and_eq_true, Bool.not_eq_true', Option.isNone_iff_eq_none,
      decide_eq_true_eq] at hlock
    obtain ⟨⟨⟨⟨hopen, hfree⟩, hnow⟩, hopened⟩, hsaved⟩ := hlock
    have hexec := Moment.Exec.at_time (K := plainCrates) s.world 2 quarter .lockSession () _ hnow
      trivial (.effect s.world.world 2 .lockSession () (.inl hfree))
    refine ⟨s, _, _, hreach, hp, rfl, hopen, .run s 2 _ .lockSession next () _ hp rfl hexec, ?_⟩
    rintro ⟨-, hdue⟩
    have hsaved' : s.world.saved.autoLockMinutes.toNat = 15 := by
      rw [hsaved]
      rfl
    simp only [Moment.after, saves, Option.getD_none, hsaved', opens, touches, hopened,
      Bool.false_eq_true, if_false, quarter] at hdue
    omega
  · cases hlock

/-- The app, left open. -/
def idleApp : Moment := { startedApp with world := { session := plainSession } }

theorem justStarted_idleApp : JustStarted ⟨idleApp, []⟩ := ⟨rfl, le_rfl, le_rfl, rfl, rfl⟩

theorem reach_playOne {m : Act}
    (h : Sys.Reach (timed plainCrates plainSetup) JustStarted Timely s)
    (hplay : Sys.playOne (timed plainCrates plainSetup) (timing plainCrates quarter atQuarter) s 0 =
      some (m, s')) (hc : Timely s m) :
    Sys.Reach (timed plainCrates plainSetup) JustStarted Timely s' :=
  .step m h hc (Sys.playOne_step (exec_timing readsClock_atQuarter) hplay).1

/-- A tick a quarter of an hour later locks it in time. -/
theorem autoLock_due_idle : ∃ s : MomentState, s.world.world.session.isLocked = true ∧ s.world.Due := by
  have hbegin : Sys.Reach (timed plainCrates plainSetup) JustStarted Timely ⟨idleApp, []⟩ :=
    .init _ justStarted_idleApp
  have harrived := Sys.Reach.step (.arrive (Task.command .autoLockTick)) hbegin trivial
    (.arrive _ (Task.command .autoLockTick) trivial)
  have hread := reach_playOne harrived rfl ⟨rfl, rfl, by decide⟩
  have hclock := reach_playOne hread rfl fun h => nomatch h
  have hlast := reach_playOne hclock rfl (Nat.le_refl 0)
  have hlocked : ∀ {s s' : MomentState} {p : Proc},
      Sys.Reach (timed plainCrates plainSetup) JustStarted Timely s →
      Sys.playOne (timed plainCrates plainSetup) (timing plainCrates quarter atQuarter) s 0 =
        some (.run 0 ⟨.lockSession, ()⟩, s') →
      s.procs[0]? = some p → p.task = .command .autoLockTick → s'.world.Due :=
    fun h hplay hp ht =>
      autoLock_due h hp ht (Sys.playOne_step (exec_timing readsClock_atQuarter) hplay).1
  exact ⟨_, rfl, hlocked hlast rfl rfl rfl⟩

end Strkd.Service
