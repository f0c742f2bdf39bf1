import Strkd.Rpc.Quiet
import Strkd.Service.Prompts
import Strkd.Service.Runs

/-!
# Setting up the wallet

A set-up takes the staged mnemonic, seals it, writes the vault and installs the session, beside any
number of commands that generate, import, unlock or lock.  The machine also runs the world as it
would be without the set-up: what that differs in is what the set-up did (`setUp_atomic_iff`).
-/

namespace Strkd.Service

open Wallet Prover Rpc Desktop

/-! ## A set-up and what runs beside it -/

/-- The commands that may run beside a set-up. -/
def runsBeside : UiCommand → Prop
  | .generate _ | .importMnemonic _ | .unlock _ | .lock => True
  | _ => False

/-- The world, the world as it would be without the set-up, and the mnemonic that was the last one
staged when the set-up took it. -/
structure Onboarding where
  world : World
  without : World
  taken : Option String

def takes : Op → Bool
  | .takeMnemonic => true
  | _ => false

/-- Process 0 is the set-up. -/
structure Onboarding.Exec (K : Crates) (o : Onboarding) (pid : ℕ) (op : Op) (a : Ans op)
    (o' : Onboarding) : Prop where
  world : World.Exec K o.world pid op a o'.world
  without : o'.without = if pid = 0 then o.without else o.without.effect K pid op a
  taken : o'.taken = if takes op then o.without.onboarding else o.taken

def settingUp (K : Crates) (S : Setup) : Machine Op Ans Onboarding Task Reply where
  external task := ∃ c, runsBeside c ∧ task = .command c
  start := Task.start K S
  exec := Onboarding.Exec K
  spawns
  drops o := drops o.world

abbrev OnboardingState := Sys Op Ans Onboarding Task Reply

/-- A set-up begins, in any world. -/
def Begins (K : Crates) (S : Setup) (passphrase : String) (s : OnboardingState) : Prop :=
  s.world.world = s.world.without ∧
    s.procs = [(settingUp K S).fresh (.command (.finalizeSetup passphrase))]

/-- The session a set-up enters. -/
def setUpSession (S : Setup) (passphrase m : String) : WalletSession :=
  .newUnlocked S.desktopChain m passphrase .empty

/-- A step that failed in a set-up that took `m`: the seal, the write of the temporary file or its
rename. -/
def Fails (K : Crates) (S : Setup) (passphrase m : String) : Event Op Ans → Prop
  | ⟨.entropy, draws⟩ => ∃ e, (setUpSession S passphrase m).reseal K draws = .error e
  | ⟨.writeTmp _, .error _⟩ => True
  | ⟨.renameTmp, .error _⟩ => True
  | _ => False

def Clean (K : Crates) (S : Setup) (passphrase m : String) (tr : Trace) : Prop :=
  ∀ e ∈ tr, ¬ Fails K S passphrase m e

/-! ## Operations of the other commands -/

def besides : Op → Bool
  | .randomMnemonic _ | .stageMnemonic _ | .instant | .backoffCheck _ | .loadVault
  | .acquireSession | .releaseSession | .unlockSession _ _ | .backoffSuccess | .backoffFailure _
  | .touchActivity | .lockSession => true
  | _ => false

section

variable {K : Crates} {S : Setup}

section

variable {op : Op} {a : Ans op} {pid : ℕ} {w w' : World}

/-- Operations with no effect but their own. -/
theorem exec_eq (htmp : ∀ vault, op ≠ .writeTmp vault) (hset : ∀ s, op ≠ .writeSettings s)
    (hx : World.Exec K w pid op a w') : w' = w.effect K pid op a := by
  cases hx with
  | effect => rfl
  | failedWrite => exact absurd rfl (htmp _)
  | tornSettings => exact absurd rfl (hset _)

theorem exec_besides (h : besides op = true) (hx : World.Exec K w pid op a w') :
    w' = w.effect K pid op a := by
  refine exec_eq ?_ ?_ hx
  · rintro vault rfl
    cases h
  · rintro s rfl
    cases h

theorem effect_tmp (h : besides op = true) : (w.effect K pid op a).tmp = w.tmp := by
  cases op with
  | unlockSession vault passphrase =>
      simp only [World.effect]
      split <;> rfl
  | _ => first | rfl | cases h

theorem effect_vault (h : besides op = true) : (w.effect K pid op a).vault = w.vault := by
  cases op with
  | unlockSession vault passphrase =>
      simp only [World.effect]
      split <;> rfl
  | _ => first | rfl | cases h

theorem effect_session (h : besides op = true) (hs : w.session = w'.session) :
    (w.effect K pid op a).session = (w'.effect K pid op a).session := by
  cases op with
  | unlockSession vault passphrase =>
      simp only [World.effect, hs]
      split
      · rfl
      · exact hs
  | lockSession => exact congrArg WalletSession.lock hs
  | _ => first | exact hs | cases h

/-- A command stages one mnemonic in both worlds, or none. -/
theorem effect_onboarding (pid : ℕ) (a : Ans op) (h : besides op = true) :
    (∃ m, ∀ w : World, (w.effect K pid op a).onboarding = some m) ∨
      ∀ w : World, (w.effect K pid op a).onboarding = w.onboarding := by
  cases op with
  | stageMnemonic m => exact .inl ⟨m, fun _ => rfl⟩
  | unlockSession vault passphrase =>
      refine .inr fun w => ?_
      simp only [World.effect]
      split <;> rfl
  | _ => first | exact .inr fun _ => rfl | cases h

end

theorem besides_unlock (passphrase : String) :
    Confined (besides · = true) (Desktop.unlock passphrase) := by
  refine .bind (confined_perform rfl) fun now => .bind (confined_perform rfl) fun blocked => ?_
  cases blocked with
  | some wait => exact .throw _
  | none =>
      have hload : Confined (besides · = true) (Desktop.loadVault "no vault file") := by
        refine .bind (confined_perform rfl) fun loaded => .bind (confined_propagate _) fun found => ?_
        cases found with
        | some vault => exact .pure _
        | none => exact .throw _
      have hcount : ∀ opened, Confined (besides · = true) (countGuess opened) := by
        intro opened
        unfold countGuess
        split
        · exact confined_perform rfl
        · exact .pure _
        · exact .bind (confined_perform rfl) fun _ => confined_perform rfl
      refine .bind hload fun vault => .bind ?_ fun _ => .bind (confined_perform rfl) fun _ => .pure _
      refine .bind (confined_perform rfl) fun _ => .bind (.attempt ?_) fun r =>
        .bind (confined_perform rfl) fun _ => confined_propagate _
      exact .bind (confined_perform rfl) fun opened => .bind (hcount opened) fun _ =>
        confined_propagate _

theorem besides_run {c : UiCommand} (h : runsBeside c) :
    Confined (besides · = true) (c.run K S) := by
  cases c with
  | generate n =>
      refine .bind (confined_perform rfl) fun drawn => ?_
      cases drawn with
      | some m => exact .bind (confined_perform rfl) fun _ => .pure _
      | none => exact .throw _
  | importMnemonic phrase =>
      have hrest : ∀ _ : Unit, Confined (besides · = true)
          (do Desktop.act (.stageMnemonic phrase); return .null : Command Json) :=
        fun _ => .bind (confined_perform rfl) fun _ => .pure _
      exact .exit (.throw _) hrest
  | unlock passphrase => exact besides_unlock passphrase
  | lock => exact .bind (confined_perform rfl) fun _ => .pure _
  | _ => cases h

theorem besides_start {c : UiCommand} (h : runsBeside c) :
    Only (besides · = true) (Task.start K S (.command c)) :=
  Only.bind (besides_run h) fun _ => trivial

/-! ## The steps of a set-up -/

def ended (r : Except String Json) : Prog Op Ans Reply := .pure (.window r)

def installing (session : WalletSession) : Prog Op Ans Reply :=
  .step (.installSession session) fun _ => ended (.ok .null)

def replaced (session : WalletSession) : Except String Unit → Prog Op Ans Reply
  | .ok _ => installing session
  | .error e => ended (.error e)

def written (session : WalletSession) : Except String Unit → Prog Op Ans Reply
  | .ok _ => .step .renameTmp (replaced session)
  | .error e => ended (.error e)

def resealed (session : WalletSession) : Except WalletRpcError EncryptedVault → Prog Op Ans Reply
  | .ok vault => .step (.writeTmp vault) (written session)
  | .error e => ended (.error e.message)

def sealing (K : Crates) (session : WalletSession) : Prog Op Ans Reply :=
  .step .entropy fun draws => resealed session (session.reseal K draws)

def staged (K : Crates) (S : Setup) (passphrase : String) : Option String → Prog Op Ans Reply
  | some m => sealing K (setUpSession S passphrase m)
  | none => ended (.error "no mnemonic staged; generate or import first")

def taking (K : Crates) (S : Setup) (passphrase : String) : Prog Op Ans Reply :=
  .step .takeMnemonic (staged K S passphrase)

/-- The set-up from its sealed vault on. -/
theorem save_eq (session : WalletSession) (result : Except WalletRpcError EncryptedVault) :
    ((do
      let vault ← orMessage (propagate result)
      saveVault vault
      Desktop.act (.installSession session)
      return .null : Command Json).run >>= fun r => return Reply.window r) =
        resealed session result := by
  cases result with
  | error e => rfl
  | ok vault =>
      refine congrArg (Prog.step (Op.writeTmp vault)) (funext fun r => ?_)
      cases r with
      | error e => rfl
      | ok _ =>
          refine congrArg (Prog.step Op.renameTmp) (funext fun r => ?_)
          cases r <;> rfl

theorem start_finalizeSetup (passphrase : String) :
    Task.start K S (.command (.finalizeSetup passphrase)) = taking K S passphrase := by
  refine congrArg (Prog.step Op.takeMnemonic) (funext fun found => ?_)
  cases found with
  | none => rfl
  | some m => exact congrArg (Prog.step Op.entropy) (funext fun _ => save_eq _ _)

/-! ## Where a set-up stands -/

/-- Up to the last step the set-up leaves the vault file and the session alone. -/
structure Onboarding.Before (o : Onboarding) : Prop where
  vault : o.world.vault = o.without.vault
  session : o.world.session = o.without.session

/-- The mnemonic `m` was taken: since then nothing is staged, or what others have staged. -/
structure Onboarding.Took (o : Onboarding) (m : String) : Prop where
  taken : o.taken = some m
  onboarding : ∃ m', o.without.onboarding = some m' ∧
    (o.world.onboarding = some m' ∨ o.world.onboarding = none)

/-- A vault that the passphrase opens to the mnemonic, with no accounts. -/
def SealsMnemonic (K : Crates) (passphrase m : String) (vault : EncryptedVault) : Prop :=
  vault.contents K passphrase = some ⟨m, .empty⟩

/-- Where a set-up stands: what it has done, what is left of it, and the worlds. -/
inductive Point (K : Crates) (S : Setup) (passphrase : String) :
    Trace → Option (Prog Op Ans Reply) → Onboarding → Prop
  | waiting {o : Onboarding} (h : o.Before) (hsame : o.world.onboarding = o.without.onboarding) :
      Point K S passphrase [] (some (taking K S passphrase)) o
  | empty {o : Onboarding} {tr : Trace} {e : String} (h : o.Before)
      (hsame : o.world.onboarding = o.without.onboarding) (htaken : o.taken = none) :
      Point K S passphrase tr (some (ended (.error e))) o
  | sealing {o : Onboarding} {tr : Trace} {m : String} (h : o.Before) (hm : o.Took m)
      (htr : Clean K S passphrase m tr) :
      Point K S passphrase tr (some (sealing K (setUpSession S passphrase m))) o
  | failed {o : Onboarding} {tr : Trace} {m e : String} (h : o.Before) (hm : o.Took m)
      (htr : ¬ Clean K S passphrase m tr) : Point K S passphrase tr (some (ended (.error e))) o
  | writing {o : Onboarding} {tr : Trace} {m : String} {vault : EncryptedVault} (h : o.Before)
      (hm : o.Took m) (htr : Clean K S passphrase m tr) (hv : SealsMnemonic K passphrase m vault) :
      Point K S passphrase tr
        (some (.step (.writeTmp vault) (written (setUpSession S passphrase m)))) o
  | replacing {o : Onboarding} {tr : Trace} {m : String} {vault : EncryptedVault} (h : o.Before)
      (hm : o.Took m) (htr : Clean K S passphrase m tr) (hv : SealsMnemonic K passphrase m vault)
      (htmp : o.world.tmp = some (some vault)) :
      Point K S passphrase tr (some (.step .renameTmp (replaced (setUpSession S passphrase m)))) o
  | installing {o : Onboarding} {tr : Trace} {m : String} {vault : EncryptedVault} (hm : o.Took m)
      (htr : Clean K S passphrase m tr) (hv : SealsMnemonic K passphrase m vault)
      (hvault : o.world.vault = some (some vault)) :
      Point K S passphrase tr (some (installing (setUpSession S passphrase m))) o
  | done {o : Onboarding} {tr : Trace} {m : String} {vault : EncryptedVault} (hm : o.Took m)
      (htr : Clean K S passphrase m tr) (hv : SealsMnemonic K passphrase m vault)
      (hvault : o.world.vault = some (some vault)) :
      Point K S passphrase tr (some (ended (.ok .null))) o

/-! ## Steps of the others -/

section

variable {op : Op} {a : Ans op} {pid : ℕ} {o o' : Onboarding}

/-- Another command does the same in both worlds. -/
theorem Onboarding.Exec.beside (hx : o.Exec K pid op a o') (hpid : pid ≠ 0)
    (h : besides op = true) : o'.world = o.world.effect K pid op a ∧
      o'.without = o.without.effect K pid op a ∧ o'.taken = o.taken := by
  have htakes : takes op = false := by
    cases op with
    | takeMnemonic => cases h
    | _ => rfl
  refine ⟨exec_besides h hx.world, ?_, ?_⟩
  · rw [hx.without, if_neg hpid]
  · rw [hx.taken, htakes]
    rfl

theorem Onboarding.Before.beside (hb : o.Before) (hx : o.Exec K pid op a o') (hpid : pid ≠ 0)
    (h : besides op = true) : o'.Before := by
  obtain ⟨hworld, hwithout, -⟩ := hx.beside hpid h
  constructor
  · rw [hworld, hwithout, effect_vault h, effect_vault h]
    exact hb.vault
  · rw [hworld, hwithout]
    exact effect_session h hb.session

theorem Onboarding.Took.beside {m : String} (hm : o.Took m) (hx : o.Exec K pid op a o')
    (hpid : pid ≠ 0) (h : besides op = true) : o'.Took m := by
  obtain ⟨hworld, hwithout, htaken⟩ := hx.beside hpid h
  refine ⟨htaken.trans hm.taken, ?_⟩
  rw [hworld, hwithout]
  rcases effect_onboarding (K := K) pid a h with ⟨m', hm'⟩ | hkeep
  · exact ⟨m', hm' _, .inl (hm' _)⟩
  · rw [hkeep, hkeep]
    exact hm.onboarding

theorem same_beside (hsame : o.world.onboarding = o.without.onboarding)
    (hx : o.Exec K pid op a o') (hpid : pid ≠ 0) (h : besides op = true) :
    o'.world.onboarding = o'.without.onboarding := by
  obtain ⟨hworld, hwithout, -⟩ := hx.beside hpid h
  rw [hworld, hwithout]
  rcases effect_onboarding (K := K) pid a h with ⟨m', hm'⟩ | hkeep
  · rw [hm', hm']
  · rw [hkeep, hkeep, hsame]

theorem Point.beside {passphrase : String} {tr : Trace} {rest : Option (Prog Op Ans Reply)}
    (hp : Point K S passphrase tr rest o) (hx : o.Exec K pid op a o') (hpid : pid ≠ 0)
    (h : besides op = true) : Point K S passphrase tr rest o' := by
  obtain ⟨hworld, -, htaken⟩ := hx.beside hpid h
  have hvault : o'.world.vault = o.world.vault := by rw [hworld, effect_vault h]
  have htmp : o'.world.tmp = o.world.tmp := by rw [hworld, effect_tmp h]
  cases hp with
  | waiting hb hsame => exact .waiting (hb.beside hx hpid h) (same_beside hsame hx hpid h)
  | empty hb hsame hnone =>
      exact .empty (hb.beside hx hpid h) (same_beside hsame hx hpid h) (htaken.trans hnone)
  | sealing hb hm htr => exact .sealing (hb.beside hx hpid h) (hm.beside hx hpid h) htr
  | failed hb hm htr => exact .failed (hb.beside hx hpid h) (hm.beside hx hpid h) htr
  | writing hb hm htr hv => exact .writing (hb.beside hx hpid h) (hm.beside hx hpid h) htr hv
  | replacing hb hm htr hv hw =>
      exact .replacing (hb.beside hx hpid h) (hm.beside hx hpid h) htr hv (htmp.trans hw)
  | installing hm htr hv hw => exact .installing (hm.beside hx hpid h) htr hv (hvault.trans hw)
  | done hm htr hv hw => exact .done (hm.beside hx hpid h) htr hv (hvault.trans hw)

end

/-! ## Steps of the set-up -/

section

variable {op : Op} {a : Ans op} {o o' : Onboarding} {passphrase : String} {tr : Trace}

theorem clean_append {m : String} {e : Event Op Ans} (h : Clean K S passphrase m tr)
    (he : ¬ Fails K S passphrase m e) : Clean K S passphrase m (tr ++ [e]) := by
  intro e' he'
  rcases List.mem_append.1 he' with he' | he'
  · exact h e' he'
  · rwa [List.mem_singleton.1 he']

theorem not_clean_append {m : String} {e : Event Op Ans} (he : Fails K S passphrase m e) :
    ¬ Clean K S passphrase m (tr ++ [e]) := fun h =>
  h e (List.mem_append_right _ List.mem_cons_self) he

theorem sealsMnemonic_of_reseal (hK : K.Decrypts) {m : String} {vault : EncryptedVault}
    {draws : SealDraws} (h : (setUpSession S passphrase m).reseal K draws = .ok vault) :
    SealsMnemonic K passphrase m vault := by
  obtain ⟨u, hu, hsealed⟩ := WalletSession.reseal_eq_ok h
  cases hu
  exact EncryptedVault.contents_of_sealed hK hsealed

theorem Onboarding.Exec.own (hx : o.Exec K 0 op a o') : o'.without = o.without := by
  rw [hx.without, if_pos rfl]

/-- A step of the set-up that leaves the vault file, the session and the staged mnemonic alone. -/
theorem Onboarding.Exec.keeps (hx : o.Exec K 0 op a o') (htakes : takes op = false) {m : String}
    (hb : o.Before) (hm : o.Took m) (hvault : o'.world.vault = o.world.vault)
    (hsession : o'.world.session = o.world.session)
    (honboarding : o'.world.onboarding = o.world.onboarding) : o'.Before ∧ o'.Took m := by
  refine ⟨⟨?_, ?_⟩, ?_, ?_⟩
  · rw [hvault, hx.own, hb.vault]
  · rw [hsession, hx.own, hb.session]
  · rw [hx.taken, htakes]
    exact hm.taken
  · rw [honboarding, hx.own]
    exact hm.onboarding

theorem Onboarding.Exec.tookAfter (hx : o.Exec K 0 op a o') (htakes : takes op = false) {m : String}
    (hm : o.Took m) (honboarding : o'.world.onboarding = o.world.onboarding) : o'.Took m := by
  refine ⟨?_, ?_⟩
  · rw [hx.taken, htakes]
    exact hm.taken
  · rw [honboarding, hx.own]
    exact hm.onboarding

/-- A write of the temporary file changes nothing else. -/
theorem exec_writeTmp {w w' : World} {vault : EncryptedVault} {a : Ans (.writeTmp vault)}
    (hx : World.Exec K w 0 (.writeTmp vault) a w') : w'.vault = w.vault ∧ w'.session = w.session ∧
      w'.onboarding = w.onboarding ∧ (a = .ok () → w'.tmp = some (some vault)) := by
  cases hx with
  | effect =>
      cases a with
      | ok u => exact ⟨rfl, rfl, rfl, fun _ => rfl⟩
      | error e => exact ⟨rfl, rfl, rfl, fun h => by cases h⟩
  | failedWrite => exact ⟨rfl, rfl, rfl, fun h => by cases h⟩

theorem advance_taking {a : Option String} (hb : o.Before)
    (hsame : o.world.onboarding = o.without.onboarding)
    (hx : o.Exec K 0 .takeMnemonic a o') :
    Point K S passphrase [⟨.takeMnemonic, a⟩] (some (staged K S passphrase a)) o' := by
  have hworld := exec_eq (by nofun) (by nofun) hx.world
  have ha : a = o.world.onboarding := hx.world.answers
  have hafter : o'.Before := by
    constructor
    · rw [hworld, hx.own]
      exact hb.vault
    · rw [hworld, hx.own]
      exact hb.session
  have htaken : o'.taken = a := by rw [hx.taken, ha, hsame]; rfl
  have hleft : o'.world.onboarding = none := by rw [hworld]; rfl
  cases a with
  | none => exact .empty hafter (by rw [hleft, hx.own, ← hsame, ← ha]) htaken
  | some m =>
      have hclean : Clean K S passphrase m [⟨.takeMnemonic, some m⟩] := by
        intro e he
        rw [List.mem_singleton.1 he]
        exact id
      refine .sealing hafter ⟨htaken, m, ?_, .inr hleft⟩ hclean
      rw [hx.own, ← hsame, ← ha]

theorem advance_sealing (hK : K.Decrypts) {m : String} {draws : SealDraws} (hb : o.Before)
    (hm : o.Took m) (htr : Clean K S passphrase m tr) (hx : o.Exec K 0 .entropy draws o') :
    Point K S passphrase (tr ++ [⟨.entropy, draws⟩])
      (some (resealed (setUpSession S passphrase m)
        ((setUpSession S passphrase m).reseal K draws))) o' := by
  have hworld : o'.world = o.world := exec_eq (by nofun) (by nofun) hx.world
  obtain ⟨hb', hm'⟩ := hx.keeps rfl hb hm (by rw [hworld]) (by rw [hworld]) (by rw [hworld])
  cases hv : (setUpSession S passphrase m).reseal K draws with
  | ok vault =>
      have hclean : ¬ Fails K S passphrase m ⟨.entropy, draws⟩ := by
        rintro ⟨e, he⟩
        rw [hv] at he
        cases he
      exact .writing hb' hm' (clean_append htr hclean) (sealsMnemonic_of_reseal hK hv)
  | error e => exact .failed hb' hm' (not_clean_append ⟨e, hv⟩)

theorem advance_writing {m : String} {vault : EncryptedVault} {a : Ans (.writeTmp vault)}
    (hb : o.Before) (hm : o.Took m) (htr : Clean K S passphrase m tr)
    (hv : SealsMnemonic K passphrase m vault)
    (hx : o.Exec K 0 (.writeTmp vault) a o') :
    Point K S passphrase (tr ++ [⟨.writeTmp vault, a⟩]) 
      (some (written (setUpSession S passphrase m) a)) o' := by
  obtain ⟨hvault, hsession, honboarding, htmp⟩ := exec_writeTmp hx.world
  obtain ⟨hb', hm'⟩ := hx.keeps rfl hb hm hvault hsession honboarding
  cases a with
  | ok u => exact .replacing hb' hm' (clean_append htr not_false) hv (htmp rfl)
  | error e => exact .failed hb' hm' (not_clean_append trivial)

theorem advance_replacing {m : String} {vault : EncryptedVault} {a : Ans .renameTmp}
    (hb : o.Before) (hm : o.Took m) (htr : Clean K S passphrase m tr)
    (hv : SealsMnemonic K passphrase m vault)
    (htmp : o.world.tmp = some (some vault)) (hx : o.Exec K 0 .renameTmp a o') :
    Point K S passphrase (tr ++ [⟨.renameTmp, a⟩]) 
      (some (replaced (setUpSession S passphrase m) a)) o' := by
  have hworld := exec_eq (by nofun) (by nofun) hx.world
  cases a with
  | ok u =>
      refine .installing (hx.tookAfter rfl hm (by rw [hworld]; rfl)) (clean_append htr not_false) hv ?_
      rw [hworld]
      exact htmp
  | error e =>
      obtain ⟨hb', hm'⟩ := hx.keeps rfl hb hm (by rw [hworld]; rfl) (by rw [hworld]; rfl)
        (by rw [hworld]; rfl)
      exact .failed hb' hm' (not_clean_append trivial)

theorem advance_installing {m : String} {vault : EncryptedVault} {session : WalletSession}
    {a : Ans (.installSession session)} (hm : o.Took m) (htr : Clean K S passphrase m tr)
    (hv : SealsMnemonic K passphrase m vault) (hvault : o.world.vault = some (some vault))
    (hx : o.Exec K 0 (.installSession session) a o') :
    Point K S passphrase (tr ++ [⟨.installSession session, a⟩]) (some (ended (.ok .null))) o' := by
  have hworld := exec_eq (by nofun) (by nofun) hx.world
  refine .done (hx.tookAfter rfl hm (by rw [hworld]; rfl)) (clean_append htr not_false) hv ?_
  rw [hworld]
  exact hvault

/-- A set-up goes from one point to the next. -/
theorem Point.advance (hK : K.Decrypts) {next : Ans op → Prog Op Ans Reply}
    (hp : Point K S passphrase tr (some (.step op next)) o) (hx : o.Exec K 0 op a o') :
    Point K S passphrase (tr ++ [⟨op, a⟩]) (some (next a)) o' := by
  generalize hr : some (Prog.step op next) = rest at hp
  cases hp with
  | waiting hb hsame =>
      cases hr
      exact advance_taking hb hsame hx
  | empty => cases hr
  | sealing hb hm htr =>
      cases hr
      exact advance_sealing hK hb hm htr hx
  | failed => cases hr
  | writing hb hm htr hv =>
      cases hr
      exact advance_writing hb hm htr hv hx
  | replacing hb hm htr hv htmp =>
      cases hr
      exact advance_replacing hb hm htr hv htmp hx
  | installing hm htr hv hvault =>
      cases hr
      exact advance_installing hm htr hv hvault hx
  | done => cases hr

end

/-! ## Runs -/

/-- A process that only does what the other commands do. -/
def Harmless (p : Process Op Ans Task Reply) : Prop :=
  (∃ c, p.task = .command c) ∧ ∀ prog, p.rest = some prog → Only (besides · = true) prog

/-- The set-up is the first process, and the others run beside it. -/
structure SettingUp (K : Crates) (S : Setup) (passphrase : String) (s : OnboardingState)
    (p : Process Op Ans Task Reply) (ps : List (Process Op Ans Task Reply)) : Prop where
  procs : s.procs = p :: ps
  task : p.task = .command (.finalizeSetup passphrase)
  point : Point K S passphrase p.trace p.rest s.world
  others : ∀ q ∈ ps, Harmless q

section

variable {passphrase : String} {s s' : OnboardingState}

theorem spawns_besides {op : Op} (h : besides op = true) : spawns op = none := by
  cases op with
  | spawnProve task => cases h
  | _ => rfl

theorem Point.spawns {tr : Trace} {o : Onboarding} {op : Op} {next : Ans op → Prog Op Ans Reply}
    (hp : Point K S passphrase tr (some (.step op next)) o) : spawns op = none := by
  generalize hr : some (Prog.step op next) = rest at hp
  cases hp <;> cases hr <;> rfl

theorem Harmless.after {p : Process Op Ans Task Reply} {op : Op} {next : Ans op → Prog Op Ans Reply}
    (h : Harmless p) (hr : p.rest = some (.step op next)) (a : Ans op) :
    Harmless (p.after op a (next a)) := by
  refine ⟨h.1, fun prog hprog => ?_⟩
  cases hprog
  exact (h.2 _ hr).2 a

theorem SettingUp.step (hK : K.Decrypts) {p : Process Op Ans Task Reply}
    {ps : List (Process Op Ans Task Reply)} {m : Act} (h : SettingUp K S passphrase s p ps) (hs : Sys.Step (settingUp K S) s m s') :
    ∃ p' ps', SettingUp K S passphrase s' p' ps' := by
  obtain ⟨hprocs, htask, hpoint, hothers⟩ := h
  have hcommand : ∀ q ∈ s.procs, ∃ c, q.task = .command c := by
    rw [hprocs]
    exact List.forall_mem_cons.2 ⟨⟨_, htask⟩, fun q hq => (hothers q hq).1⟩
  cases hs with
  | arrive task ht =>
      obtain ⟨c, hc, rfl⟩ := ht
      refine ⟨p, ps ++ [(settingUp K S).fresh (.command c)], by rw [hprocs]; rfl, htask, hpoint, ?_⟩
      intro q hq
      rcases List.mem_append.1 hq with hq | hq
      · exact hothers q hq
      · rw [List.mem_singleton.1 hq]
        refine ⟨⟨c, rfl⟩, fun prog hprog => ?_⟩
        cases hprog
        exact besides_start hc
  | run pid q op next a o hq hr hx =>
      rw [hprocs] at hq ⊢
      cases pid with
      | zero =>
          cases hq
          rw [hr] at hpoint
          have hspawned : (settingUp K S).spawned op = [] :=
            congrArg (fun t => t.toList.map (settingUp K S).fresh) hpoint.spawns
          exact ⟨p.after op a (next a), ps, by rw [hspawned, List.append_nil]; rfl, htask,
            hpoint.advance hK hx, hothers⟩
      | succ n =>
          have hmem : q ∈ ps := List.mem_of_getElem? hq
          have hop := ((hothers q hmem).2 _ hr).1
          have hspawned : (settingUp K S).spawned op = [] :=
            congrArg (fun t => t.toList.map (settingUp K S).fresh) (spawns_besides hop)
          refine ⟨p, ps.set n (q.after op a (next a)), by rw [hspawned, List.append_nil]; rfl, htask,
            hpoint.beside hx n.succ_ne_zero hop, fun q' hq' => ?_⟩
          rcases List.mem_or_eq_of_mem_set hq' with hq' | rfl
          · exact hothers q' hq'
          · exact (hothers q hmem).after hr a
  | drop pid q op next hq hr hd =>
      obtain ⟨c, hc⟩ := hcommand q (List.mem_of_getElem? hq)
      have hdrop : drops s.world.world pid q.task op := hd
      rw [hc] at hdrop
      exact hdrop.elim

theorem settingUp_of_reach (hK : K.Decrypts) {C : OnboardingState → Act → Prop}
    (h : Sys.Reach (settingUp K S) (Begins K S passphrase) C s) :
    ∃ p ps, SettingUp K S passphrase s p ps := by
  refine h.invariant (I := fun s => ∃ p ps, SettingUp K S passphrase s p ps) ?_
    fun s m s' _ hI _ hs => ?_
  · rintro s ⟨hworld, hprocs⟩
    refine ⟨_, [], hprocs, rfl, ?_, fun q hq => absurd hq List.not_mem_nil⟩
    show Point K S passphrase [] (some (Task.start K S (.command (.finalizeSetup passphrase)))) _
    rw [start_finalizeSetup]
    exact .waiting ⟨by rw [hworld], by rw [hworld]⟩ (by rw [hworld])
  · obtain ⟨p, ps, hI⟩ := hI
    exact hI.step hK hs

/-- When the set-up returns `r`, it has done nothing, or everything. -/
def Atomic (K : Crates) (S : Setup) (passphrase : String) (o : Onboarding) : Except String Json → Prop
  | .error _ => o.world.vault = o.without.vault ∧ o.world.session = o.without.session ∧
      o.world.onboarding = o.without.onboarding
  | .ok _ => ∃ m vault, o.taken = some m ∧ o.world.vault = some (some vault) ∧
      SealsMnemonic K passphrase m vault ∧ o.world.session = setUpSession S passphrase m

/-- The set-up returns `r` in the step from `s` to `s'`, after the operations of `tr`. -/
structure Returns (K : Crates) (S : Setup) (s : OnboardingState) (tr : Trace)
    (r : Except String Json) (s' : OnboardingState) : Prop where
  step : ∃ e, Sys.Step (settingUp K S) s (.run 0 e) s'
  rest : ∃ task, s'.procs[0]? = some ⟨task, tr, some (ended r)⟩

/-- Only its last step lets the set-up return without an error. -/
theorem Point.session {tr : Trace} {o o' : Onboarding} {op : Op} {next : Ans op → Prog Op Ans Reply}
    {a : Ans op} {v : Json} (hp : Point K S passphrase tr (some (.step op next)) o)
    (hx : o.Exec K 0 op a o') (hend : next a = ended (.ok v)) :
    ∃ m, o'.taken = some m ∧ o'.world.session = setUpSession S passphrase m := by
  generalize hr : some (Prog.step op next) = rest at hp
  cases hp with
  | waiting =>
      cases hr
      cases a <;> cases hend
  | sealing =>
      cases hr
      -- the seal goes on to a write or ends with an error
      simp only [resealed] at hend
      split at hend <;> cases hend
  | writing =>
      cases hr
      cases a <;> cases hend
  | replacing =>
      cases hr
      cases a <;> cases hend
  | @installing _ _ m _ hm =>
      cases hr
      have hworld := exec_eq (by nofun) (by nofun) hx.world
      exact ⟨m, (hx.tookAfter rfl hm (by rw [hworld]; rfl)).taken, by rw [hworld]; rfl⟩
  | _ => cases hr

theorem Onboarding.Took.same_iff {o : Onboarding} {m : String} (h : o.Took m) :
    o.world.onboarding = o.without.onboarding ↔ o.world.onboarding ≠ none := by
  obtain ⟨m', hwithout, hworld | hworld⟩ := h.onboarding
  · simp [hwithout, hworld]
  · simp [hwithout, hworld]

/-- The last step of a set-up, and where the set-up stands before and after it. -/
theorem Returns.point (hK : K.Decrypts) {tr : Trace} {r : Except String Json}
    (h : Sys.Reach (settingUp K S) (Begins K S passphrase) (fun _ _ => True) s)
    (hreturns : Returns K S s tr r s') :
    Point K S passphrase tr (some (ended r)) s'.world ∧
      ∀ v, r = .ok v → ∃ m, s'.world.taken = some m ∧
        s'.world.world.session = setUpSession S passphrase m := by
  obtain ⟨⟨⟨op, a⟩, hs⟩, task, hend⟩ := hreturns
  obtain ⟨q, qs, hbefore⟩ := settingUp_of_reach hK h
  obtain ⟨p, ps, hafter⟩ := hbefore.step hK hs
  refine ⟨?_, fun v hv => ?_⟩
  · have hpoint := hafter.point
    rw [hafter.procs] at hend
    cases hend
    exact hpoint
  · cases hs with
    | run _ q' _ next _ o hq hr hx =>
        rw [hbefore.procs] at hq hend
        cases hq
        have hlast : q.after op a (next a) = ⟨task, tr, some (ended r)⟩ := Option.some.inj hend
        have hnext : next a = ended r := Option.some.inj (congrArg Process.rest hlast)
        have hpoint := hbefore.point
        rw [hr] at hpoint
        rw [hv] at hnext
        exact hpoint.session hx hnext

end

end

/-- A set-up returns with nothing done or everything done if and only if none of its steps failed,
or somebody has staged another mnemonic since it took one. -/
theorem setUp_atomic_iff (K : Crates) (S : Setup) (passphrase : String) (hK : K.Decrypts)
    (s s' : OnboardingState) (tr : Trace) (r : Except String Json)
    (h : Sys.Reach (settingUp K S) (Begins K S passphrase) (fun _ _ => True) s)
    (hreturns : Returns K S s tr r s') :
    Atomic K S passphrase s'.world r ↔ ∀ m, s'.world.taken = some m →
      ¬ Clean K S passphrase m tr → s'.world.world.onboarding ≠ none := by
  obtain ⟨hpoint, hsession⟩ := hreturns.point hK h
  generalize hr : some (ended r) = rest at hpoint
  cases hpoint with
  | empty hb hsame hnone =>
      cases hr
      refine ⟨fun _ m htaken => ?_, fun _ => ⟨hb.vault, hb.session, hsame⟩⟩
      rw [hnone] at htaken
      cases htaken
  | failed hb hm htr =>
      cases hr
      refine ⟨fun hatomic _ _ _ => hm.same_iff.1 hatomic.2.2, fun hstaged => ?_⟩
      exact ⟨hb.vault, hb.session, hm.same_iff.2 (hstaged _ hm.taken htr)⟩
  | done hm htr hv hvault =>
      cases hr
      refine ⟨fun _ m htaken hfail => ?_, fun _ => ?_⟩
      · cases htaken.symm.trans hm.taken
        exact absurd htr hfail
      obtain ⟨m', htaken, hsession⟩ := hsession _ rfl
      have hsame := htaken.symm.trans hm.taken
      cases hsame
      exact ⟨_, _, htaken, hvault, hv, hsession⟩
  | _ => cases hr

/-! ### A seal that fails -/

/-- A mnemonic is staged. -/
def stagedWorld : World where
  session := ⟨.sepolia, none⟩
  onboarding := some "seed"

/-- The set-up on its own, with what it has done and what is left of it. -/
def lone (o : Onboarding) (tr : Trace) (rest : Prog Op Ans Reply) : OnboardingState :=
  ⟨o, [⟨.command (.finalizeSetup "pass"), tr, some rest⟩]⟩

theorem step_lone (o : Onboarding) {tr : Trace} (op : Op) {next : Ans op → Prog Op Ans Reply}
    (a : Ans op) (w : World) (ha : World.Exec plainCrates o.world 0 op a w)
    (htakes : takes op = false) (hspawns : spawns op = none) :
    Sys.Step (settingUp plainCrates plainSetup) (lone o tr (.step op next)) (.run 0 ⟨op, a⟩)
      (lone ⟨w, o.without, o.taken⟩ (tr ++ [⟨op, a⟩]) (next a)) := by
  have hspawned : (settingUp plainCrates plainSetup).spawned op = [] :=
    congrArg (fun t => t.toList.map (settingUp plainCrates plainSetup).fresh) hspawns
  have hstep := Sys.Step.run (M := settingUp plainCrates plainSetup) (lone o tr (.step op next)) 0 _
    op next a ⟨w, o.without, o.taken⟩ rfl rfl ⟨ha, rfl, by rw [htakes]; rfl⟩
  rwa [hspawned] at hstep

/-- The worlds after the mnemonic is taken. -/
def setUpTaken : Onboarding := ⟨{ stagedWorld with onboarding := none }, stagedWorld, some "seed"⟩

/-- The set-up has taken the mnemonic. -/
theorem reach_taken : Sys.Reach (settingUp plainCrates plainSetup)
    (Begins plainCrates plainSetup "pass") (fun _ _ => True)
    (lone setUpTaken [⟨.takeMnemonic, some "seed"⟩]
      (sealing plainCrates (setUpSession plainSetup "pass" "seed"))) := by
  let s : OnboardingState := ⟨⟨stagedWorld, stagedWorld, none⟩,
    [(settingUp plainCrates plainSetup).fresh (.command (.finalizeSetup "pass"))]⟩
  have hstart : Task.start plainCrates plainSetup (.command (.finalizeSetup "pass")) =
      taking plainCrates plainSetup "pass" := start_finalizeSetup "pass"
  exact .step _ (.init s ⟨rfl, rfl⟩) trivial (.run s 0 _ .takeMnemonic _ (some "seed") setUpTaken rfl
    (congrArg some hstart) ⟨.effect _ _ _ _ rfl, rfl, rfl⟩)

/-- The OS gives no randomness, and the mnemonic is lost. -/
theorem setUp_loses : ∃ s tr e s',
    Sys.Reach (settingUp plainCrates plainSetup) (Begins plainCrates plainSetup "pass")
      (fun _ _ => True) s ∧ Returns plainCrates plainSetup s tr (.error e) s' ∧
    ¬ Atomic plainCrates plainSetup "pass" s'.world (.error e) := by
  have hx : World.Exec plainCrates setUpTaken.world 0 .entropy ⟨none, none⟩ setUpTaken.world :=
    .effect _ _ _ _ trivial
  refine ⟨_, _, _, _, reach_taken, ⟨⟨_, step_lone setUpTaken .entropy _ _ hx rfl rfl⟩, _, rfl⟩,
    fun h => ?_⟩
  cases h.2.2

/-! ### A set-up that goes well, with others beside it -/

/-- Randomness that is there, a disk that writes, and a clock at 0. -/
def forthcoming : (op : Op) → Option (Ans op)
  | .entropy => some plainDraws
  | .writeTmp _ => some (.ok ())
  | .touchActivity => some 0
  | _ => none

/-- The answers of the world, beside the one without the set-up. -/
def preparing (o : Onboarding) (pid : ℕ) (op : Op) : Option (Ans op × Onboarding) :=
  (answering plainCrates forthcoming o.world pid op).map fun (a, w) =>
    (a, { world := w
          without := if pid = 0 then o.without else o.without.effect plainCrates pid op a
          taken := if takes op then o.without.onboarding else o.taken })

theorem exec_preparing (o : Onboarding) (pid : ℕ) (op : Op) (a : Ans op) (o' : Onboarding)
    (h : preparing o pid op = some (a, o')) :
    (settingUp plainCrates plainSetup).exec o pid op a o' := by
  obtain ⟨⟨b, w⟩, hb, heq⟩ := Option.map_eq_some_iff.1 h
  cases heq
  exact ⟨exec_answering (S := plainSetup) _ _ _ _ _ hb, rfl, rfl⟩

/-- The vault of the set-up. -/
def firstVault : EncryptedVault := plainVault "pass" ⟨"seed", .empty⟩

/-- The set-up, with an import and a lock beside it. -/
def setUpBeside : OnboardingState := ⟨⟨stagedWorld, stagedWorld, none⟩,
  [UiCommand.finalizeSetup "pass", .importMnemonic "other", .lock].map
    fun c => (settingUp plainCrates plainSetup).fresh (.command c)⟩

theorem reach_setUpBeside : Sys.Reach (settingUp plainCrates plainSetup)
    (Begins plainCrates plainSetup "pass") (fun _ _ => True) setUpBeside := by
  let s : OnboardingState := ⟨⟨stagedWorld, stagedWorld, none⟩,
    [(settingUp plainCrates plainSetup).fresh (.command (.finalizeSetup "pass"))]⟩
  have h₀ : Sys.Reach (settingUp plainCrates plainSetup) (Begins plainCrates plainSetup "pass")
      (fun _ _ => True) s := .init s ⟨rfl, rfl⟩
  have h₁ := h₀.step _ trivial (.arrive s _ ⟨.importMnemonic "other", trivial, rfl⟩)
  exact h₁.step _ trivial (.arrive _ _ ⟨.lock, trivial, rfl⟩)

/-- The two commands come between the steps of the set-up, all but its last. -/
def setUpPlayed : Option (List Act × OnboardingState) :=
  Sys.play (settingUp plainCrates plainSetup) preparing setUpBeside [0, 1, 0, 0, 2, 0]

/-- What came of it: the set-up returned `null`, the others have ended too, and the vault and the
mnemonics are these. -/
def setUpDone (s : OnboardingState) : Bool :=
  match s.procs with
  | [⟨.command (.finalizeSetup "pass"), _, some (.pure (.window (.ok .null)))⟩,
      ⟨_, _, some (.pure _)⟩, ⟨_, _, some (.pure _)⟩] =>
      s.world.taken = some "seed" && s.world.world.onboarding = some "other" &&
        s.world.world.vault = some (some firstVault)
  | _ => false

/-- While another mnemonic is staged and the wallet is locked, the wallet is set up from the one
that was taken. -/
theorem setUp_atomic_iff_succeeds : ∃ o : Onboarding,
    Atomic plainCrates plainSetup "pass" o (.ok .null) ∧ o.taken = some "seed" ∧
      o.world.onboarding = some "other" ∧ o.world.vault = some (some firstVault) := by
  have hplay : (setUpPlayed.bind fun r => (Sys.playOne (settingUp plainCrates plainSetup) preparing
      r.2 0).map fun r => setUpDone r.2) = some true := by decide +kernel
  obtain ⟨⟨moves, s⟩, h, hone⟩ := Option.bind_eq_some_iff.1 hplay
  obtain ⟨⟨m, s'⟩, hlast, hdone⟩ := Option.map_eq_some_iff.1 hone
  obtain ⟨hs, op, a, rfl, -⟩ := Sys.playOne_step exec_preparing hlast
  have hreach := reach_setUpBeside.play (fun _ _ _ _ _ _ => trivial) exec_preparing h
  simp only [setUpDone] at hdone
  split at hdone
  · rename_i tr task₁ tr₁ r₁ task₂ tr₂ r₂ hprocs
    simp only [Bool.and_eq_true, decide_eq_true_eq] at hdone
    obtain ⟨⟨htaken, hstaged⟩, hvault⟩ := hdone
    have hend : s'.procs[0]? =
        some ⟨.command (.finalizeSetup "pass"), tr, some (ended (.ok .null))⟩ := by
      rw [hprocs]
      rfl
    have hatomic := setUp_atomic_iff plainCrates plainSetup "pass" plainCrates_decrypts s s' tr
      (.ok .null) hreach ⟨⟨_, hs⟩, _, hend⟩
    refine ⟨s'.world, hatomic.2 fun _ _ _ => ?_, htaken, hstaged, hvault⟩
    rw [hstaged]
    exact Option.some_ne_none _
  · cases hdone

end Strkd.Service
