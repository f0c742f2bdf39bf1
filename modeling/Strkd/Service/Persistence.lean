import Strkd.Rpc.AccountRuns
import Strkd.Service.Audit
import Strkd.Service.Custody
import Strkd.Service.Registries

/-!
# The vault file and the session

Whenever nobody holds the session lock, the vault file holds what the open session holds; the
accounts in it stay, and the account that a task answers with is among them.  Three things are left
to who uses the wallet: an unlock is given the file that is there, a set-up does not begin over a
vault, and only a vault that this build cannot open is moved aside.
-/

namespace Strkd.Service

open Wallet Prover Rpc

variable {K : Crates} {S : Setup}

/-! ## Vaults and open sessions -/

/-- The vault opens to what the open session holds. -/
def OpensTo (K : Crates) (v : EncryptedVault) (u : Unlocked) : Prop :=
  v.contents K u.vaultPassphrase = some ⟨u.mnemonic, u.registry⟩

/-- The vault was sealed from what the open session holds. -/
def SealedFrom (K : Crates) (v : EncryptedVault) (u : Unlocked) : Prop :=
  ∃ draws, EncryptedVault.sealed K draws u.vaultPassphrase
    (VaultContents.toBytes ⟨u.mnemonic, u.registry⟩) = .ok v

/-- The vault file holds what the session holds, when that is open. -/
def Backed (K : Crates) (w : World) : Prop :=
  ∀ u, w.session.unlocked = some u → ∃ v, w.vault = some (some v) ∧ OpensTo K v u

/-- The session has one account more than the vault file. -/
def Ahead (K : Crates) (w : World) (account : AccountRef) : Prop :=
  ∃ u v r, w.session.unlocked = some u ∧ w.vault = some (some v) ∧
    OpensTo K v { u with registry := r } ∧ u.registry = r.add account ∧
    u.registry.Numbered K u.mnemonic

/-- The vault holds what the session holds now. -/
def Current (K : Crates) (w : World) (v : EncryptedVault) : Prop :=
  ∃ u, w.session.unlocked = some u ∧ SealedFrom K v u

/-- Every vault opens to numbered accounts. -/
structure Filed (K : Crates) (w : World) : Prop where
  vault : ∀ v, w.vault = some (some v) → LawfulVault K (fun m r => r.Numbered K m) v
  tmp : ∀ v, w.tmp = some (some v) → LawfulVault K (fun m r => r.Numbered K m) v

theorem sealedFrom_of_reseal {s : WalletSession} {u : Unlocked} {draws : SealDraws}
    {v : EncryptedVault} (hu : s.unlocked = some u) (h : s.reseal K draws = .ok v) :
    SealedFrom K v u := by
  obtain ⟨u', hu', hsealed⟩ := WalletSession.reseal_eq_ok h
  obtain rfl := Option.some.inj (hu.symm.trans hu')
  exact ⟨draws, hsealed⟩

theorem SealedFrom.opensTo (hK : K.Decrypts) {v : EncryptedVault} {u : Unlocked}
    (h : SealedFrom K v u) : OpensTo K v u := by
  obtain ⟨draws, hsealed⟩ := h
  exact EncryptedVault.contents_of_sealed hK hsealed

/-- Under whatever passphrase it is opened, it holds what it was sealed from. -/
theorem SealedFrom.holds (hA : K.Authentic) {v : EncryptedVault} {u : Unlocked} {p : String}
    {c : VaultContents} (h : SealedFrom K v u) (hc : v.contents K p = some c) :
    c = ⟨u.mnemonic, u.registry⟩ := by
  obtain ⟨draws, hsealed⟩ := h
  exact EncryptedVault.contents_eq_of_sealed hA hsealed hc

/-- What is unlocked is what the vault holds. -/
theorem opensTo_of_unlock {s s' : WalletSession} {v : EncryptedVault} {passphrase : String}
    {u : Unlocked} (h : s.unlock K v passphrase = .ok s') (hu : s'.unlocked = some u) :
    OpensTo K v u := by
  obtain ⟨c, hc, rfl⟩ := WalletSession.unlock_eq_ok h
  cases hu
  exact hc

theorem SealedFrom.lawful (hA : K.Authentic) {v : EncryptedVault} {u : Unlocked}
    (h : SealedFrom K v u) (hu : u.registry.Numbered K u.mnemonic) :
    LawfulVault K (fun m r => r.Numbered K m) v := by
  intro p c hc
  rw [h.holds hA hc]
  exact hu

theorem lawful_freshVault (hA : K.Authentic) {v : EncryptedVault} (h : Custody.FreshVault K S v) :
    LawfulVault K (fun m r => r.Numbered K m) v := by
  obtain ⟨m, passphrase, draws, hv⟩ := h
  exact (sealedFrom_of_reseal rfl hv).lawful hA (Registry.numbered_empty K m)

/-! ## Where the task with the lock stands -/

/-- What the world holds for the task that has the session lock. -/
def Custody.Matches (K : Crates) (w : World) : Custody → Prop
  | .holding => Backed K w
  | .created account => Ahead K w account
  | .looked account s => Ahead K w account ∧ s.unlocked = w.session.unlocked
  | .resealed account v => Ahead K w account ∧ Current K w v
  | .wrote account v => Ahead K w account ∧ Current K w v ∧ w.tmp = some (some v)
  | _ => False

/-- A task in a custody fits the world. -/
structure Stands (K : Crates) (w : World) (pid : ℕ) (c : Custody) : Prop where
  free : w.holder = none → Backed K w
  held : w.holder = some pid → c.Matches K w
  away : w.holder ≠ some pid → c.locks = false

theorem Custody.Matches.backed_or_ahead {w : World} {c : Custody} (h : c.Matches K w) :
    c = .holding ∧ Backed K w ∨ ∃ account, Ahead K w account := by
  cases c with
  | holding => exact .inl ⟨rfl, h⟩
  | created account => exact .inr ⟨account, h⟩
  | looked account s => exact .inr ⟨account, h.1⟩
  | resealed account v => exact .inr ⟨account, h.1⟩
  | wrote account v => exact .inr ⟨account, h.1⟩
  | _ => exact h.elim

/-- The vault of an open session is there, and of the version of this build. -/
theorem Ahead.vault {w : World} {account : AccountRef} (h : Ahead K w account) :
    ∃ v, w.vault = some (some v) ∧ v.isSupportedVersion = true := by
  obtain ⟨u, v, r, -, hv, hholds, -⟩ := h
  exact ⟨v, hv, EncryptedVault.supported_of_contents hholds⟩

theorem Backed.locked {w : World} (h : Backed K w)
    (hv : ∀ v, w.vault = some (some v) → v.isSupportedVersion = false) :
    w.session.unlocked = none := by
  cases hu : w.session.unlocked with
  | none => rfl
  | some u =>
      obtain ⟨v, hvault, hholds⟩ := h u hu
      have := hv v hvault
      rw [EncryptedVault.supported_of_contents hholds] at this
      cases this

theorem backed_of_locked {w : World} (h : w.session.unlocked = none) : Backed K w := by
  intro u hu
  rw [h] at hu
  cases hu

section

variable {w w' : World} (hu : w'.session.unlocked = w.session.unlocked) (hv : w'.vault = w.vault)

include hu hv

theorem Backed.congr (h : Backed K w) : Backed K w' := by
  intro u hopen
  rw [hu] at hopen
  rw [hv]
  exact h u hopen

theorem Ahead.congr {account : AccountRef} (h : Ahead K w account) : Ahead K w' account := by
  unfold Ahead
  rw [hu, hv]
  exact h

theorem Custody.Matches.congr (ht : w'.tmp = w.tmp) {c : Custody} (h : c.Matches K w) :
    c.Matches K w' := by
  cases c with
  | holding => exact Backed.congr hu hv h
  | created account => exact Ahead.congr hu hv h
  | looked account s => exact ⟨h.1.congr hu hv, h.2.trans hu.symm⟩
  | resealed account v => exact ⟨h.1.congr hu hv, by rw [Current, hu]; exact h.2⟩
  | wrote account v => exact ⟨h.1.congr hu hv, by rw [Current, hu]; exact h.2.1, ht.trans h.2.2⟩
  | _ => exact h.elim

end

/-! ## One operation -/

/-- What users of the wallet see to before an operation of a task. -/
def Prudent (K : Crates) (w : World) (founds : Bool) : Op → Prop
  | .unlockSession v _ => w.vault = some (some v)
  | .writeTmp _ | .renameTmp => founds = true → w.vault = none
  | .installSession n => ∃ v draws, w.vault = some (some v) ∧ n.reseal K draws = .ok v
  | .renameToBackup _ => ∀ v, w.vault = some (some v) → v.isSupportedVersion = false
  | _ => True

section Exec

variable {w w' : World} {pid : ℕ} {op : Op} {a : Ans op} {c : Custody} {founds : Bool}

/-- What a calm operation leaves as it was. -/
theorem same_of_calm (h : calm op = true) (hx : World.Exec K w pid op a w') :
    w'.session.unlocked = w.session.unlocked ∧ w'.vault = w.vault ∧ w'.tmp = w.tmp ∧
      w'.holder = w.holder := by
  cases hx
  case failedWrite => cases h
  case tornSettings => exact ⟨rfl, rfl, rfl, rfl⟩
  case effect =>
      cases op with
      | record entry => cases a <;> exact ⟨rfl, rfl, rfl, rfl⟩
      | reattach name kind => cases a <;> exact ⟨rfl, rfl, rfl, rfl⟩
      | createSettings => cases a <;> exact ⟨rfl, rfl, rfl, rfl⟩
      | writeSettings s => cases a <;> exact ⟨rfl, rfl, rfl, rfl⟩
      | _ => first | exact ⟨rfl, rfl, rfl, rfl⟩ | cases h

/-- The custody a task with the lock is in. -/
theorem Stands.matches (h : Stands K w pid c) (hc : c.locks = true) :
    w.holder = some pid ∧ c.Matches K w := by
  have hheld : w.holder = some pid := by
    by_contra hne
    rw [h.away hne] at hc
    cases hc
  exact ⟨hheld, h.held hheld⟩

/-- A task that is away does not have the lock. -/
theorem Stands.not_held (h : Stands K w pid c) (hc : c.locks = false) : w.holder ≠ some pid := by
  intro hheld
  have := h.held hheld
  cases c with
  | away => exact this
  | founding vault => exact this
  | founded vault => exact this
  | _ => cases hc

/-- With the lock in hand. -/
theorem stands_of_held (hheld : w.holder = some pid) (h : c.Matches K w) : Stands K w pid c :=
  ⟨fun hnone => absurd (hnone.symm.trans hheld) nofun, fun _ => h, fun hne => absurd hheld hne⟩

/-- Without it. -/
theorem stands_of_away (hc : c.locks = false) (hne : w.holder ≠ some pid)
    (h : w.holder = none → Backed K w) : Stands K w pid c :=
  ⟨h, fun hheld => absurd hheld hne, fun _ => hc⟩

theorem Stands.still (h : Stands K w pid c) (hop : calm op = true)
    (hx : World.Exec K w pid op a w') : Stands K w' pid (c.after K ⟨op, a⟩) := by
  obtain ⟨hu, hv, ht, hholder⟩ := same_of_calm hop hx
  have hsame : Stands K w' pid c := ⟨fun hf => (h.free (hholder ▸ hf)).congr hu hv,
    fun hh => (h.held (hholder ▸ hh)).congr hu hv ht, fun hne => h.away (hholder ▸ hne)⟩
  by_cases hs : op = .session
  · subst hs
    have ha : a = w.session := hx.answers.2
    cases c with
    | created account =>
        obtain ⟨hheld, hmatch⟩ := hsame.matches rfl
        exact stands_of_held hheld ⟨hmatch, by rw [ha, hu]⟩
    | _ => exact hsame
  · by_cases he : op = .entropy
    · subst he
      cases c with
      | looked account s =>
          obtain ⟨hheld, hahead, hlook⟩ := hsame.matches rfl
          refine stands_of_held hheld ?_
          cases hr : s.reseal K a with
          | error e =>
              simp only [Custody.after, hr]
              exact hahead
          | ok vault =>
              simp only [Custody.after, hr]
              obtain ⟨u, hopen, hsealed⟩ := WalletSession.reseal_eq_ok hr
              exact ⟨hahead, u, hlook ▸ hopen, a, hsealed⟩
      | _ => exact hsame
    · rw [Custody.after_other c a hop hs he]
      exact hsame

/-- An account created with the lock in hand is not in the vault file yet. -/
theorem Stands.creates (hfiled : Filed K w) (hheld : w.holder = some pid) (hbacked : Backed K w)
    {domain : Domain} {label : String} {owner : Option String} {account : AccountRef}
    {s' : WalletSession} (howner : owner.isSome ↔ domain = .agent)
    (h : w.session.createAccount K domain label owner = .ok (account, s')) :
    Stands K (w.withAccount (.ok account)) pid (.created account) := by
  cases hopen : w.session.unlocked with
  | none =>
      rw [WalletSession.createAccount, WalletSession.nextAccount, WalletSession.requireUnlocked,
        hopen] at h
      cases h
  | some u =>
      obtain ⟨v, hv, hholds⟩ := hbacked u hopen
      have hnum : u.registry.Numbered K u.mnemonic := hfiled.vault v hv _ _ hholds
      have hseed : ∀ u', w.session.unlocked = some u' →
          u'.mnemonic = u.mnemonic ∧ u'.registry.Numbered K u.mnemonic := by
        intro u' hu'
        obtain rfl := Option.some.inj (hopen.symm.trans hu')
        exact ⟨rfl, hnum⟩
      obtain ⟨u', hu', -, -, hadd⟩ := SessionRun.createAccount_numbered h hseed howner
      obtain rfl := Option.some.inj (hopen.symm.trans hu')
      refine stands_of_held hheld ⟨{ u with registry := u.registry.add account }, v, u.registry, ?_,
        hv, hholds, rfl, hadd⟩
      simp [World.withAccount, WalletSession.mapRegistry, hopen]

/-- The account created last is taken out again. -/
theorem Ahead.rollback (hpaths : ∀ m, PathsApart K m) {account : AccountRef}
    (h : Ahead K w account) :
    Backed K { w with session := w.session.rollbackAccount account.address } := by
  obtain ⟨u, v, r, hopen, hv, hholds, hreg, hnum⟩ := h
  intro u' hu'
  refine ⟨v, hv, ?_⟩
  have hback : u' = { u with registry := r } := by
    rw [hreg] at hnum
    have := hnum.removeByAddress_add (hpaths u.mnemonic)
    simp only [WalletSession.rollbackAccount, WalletSession.mapRegistry, hopen, Option.map_some,
      Option.some.injEq] at hu'
    rw [← hu', hreg, this]
  rw [hback]
  exact hholds

/-- What a task does under the lock of the session keeps it fit. -/
theorem Stands.step (hK : K.Decrypts) (hpaths : ∀ m, PathsApart K m) (h : Stands K w pid c)
    (hfiled : Filed K w) (hallow : c.Allows K S founds op) (hprudent : Prudent K w founds op)
    (hx : World.Exec K w pid op a w') : Stands K w' pid (c.after K ⟨op, a⟩) := by
  by_cases hcalm : calm op = true
  · exact h.still hcalm hx
  cases hx
  case tornSettings => exact absurd rfl hcalm
  case failedWrite vault e left hleft =>
      rcases hallow with ⟨account, rfl⟩ | ⟨rfl, -, -⟩
      · obtain ⟨hheld, hahead, -⟩ := h.matches rfl
        exact stands_of_held hheld (hahead.congr rfl rfl)
      · exact stands_of_away rfl (h.not_held rfl) fun hf => (h.free hf).congr rfl rfl
  case effect ha =>
      cases op with
      | acquireSession =>
          obtain rfl : c = .away := hallow
          exact stands_of_held rfl (h.free ha)
      | releaseSession =>
          obtain rfl : c = .holding := hallow
          exact stands_of_away rfl nofun fun _ => (h.matches rfl).2
      | createAgentAccount id label =>
          obtain rfl : c = .holding := hallow
          obtain ⟨hheld, hbacked⟩ := h.matches rfl
          obtain ⟨-, rfl⟩ := ha
          cases hc : w.session.createAgentAccount K id label with
          | error e => exact h
          | ok r => exact .creates hfiled hheld hbacked (by simp) hc
      | createUserAccount label =>
          obtain rfl : c = .holding := hallow
          obtain ⟨hheld, hbacked⟩ := h.matches rfl
          obtain ⟨-, rfl⟩ := ha
          cases hc : w.session.createUserAccount K label with
          | error e => exact h
          | ok r => exact .creates hfiled hheld hbacked (by simp) hc
      | rollbackAccount address =>
          obtain ⟨account, rfl, rfl⟩ := hallow
          obtain ⟨hheld, hahead⟩ := h.matches rfl
          exact stands_of_held hheld (Ahead.rollback hpaths hahead)
      | unlockSession v passphrase =>
          obtain rfl : c = .holding := hallow
          obtain ⟨hheld, hbacked⟩ := h.matches rfl
          simp only [World.effect]
          cases hs : w.session.unlock K v passphrase with
          | error e => exact stands_of_held hheld hbacked
          | ok s => exact stands_of_held hheld fun u hu => ⟨v, hprudent, opensTo_of_unlock hs hu⟩
      | lockSession =>
          obtain rfl : c = .away := hallow
          exact stands_of_away rfl (h.not_held rfl) fun _ => backed_of_locked rfl
      | installSession n =>
          obtain ⟨vault, draws, rfl, -⟩ := hallow
          obtain ⟨v, draws', hv, hn⟩ := hprudent
          exact stands_of_away rfl (h.not_held rfl) fun _ u hu =>
            ⟨v, hv, (sealedFrom_of_reseal hu hn).opensTo hK⟩
      | writeTmp vault =>
          rcases hallow with ⟨account, rfl⟩ | ⟨rfl, -, -⟩
          · obtain ⟨hheld, hahead, hcurrent⟩ := h.matches rfl
            cases a with
            | error e => exact stands_of_held hheld hahead
            | ok u => exact stands_of_held hheld ⟨hahead.congr rfl rfl, hcurrent, rfl⟩
          · cases a with
            | error e => exact h
            | ok u =>
                exact stands_of_away rfl (h.not_held rfl) fun hf => (h.free hf).congr rfl rfl
      | renameTmp =>
          rcases hallow with ⟨account, vault, rfl⟩ | ⟨hf, vault, rfl⟩
          · obtain ⟨hheld, hahead, ⟨u, hu, hsealed⟩, htmp⟩ := h.matches rfl
            cases a with
            | error e => exact stands_of_held hheld hahead
            | ok _ =>
                refine stands_of_held hheld fun u' hu' => ⟨vault, htmp, ?_⟩
                obtain rfl := Option.some.inj (hu.symm.trans hu')
                exact hsealed.opensTo hK
          · cases a with
            | error e => exact stands_of_away rfl (h.not_held rfl) h.free
            | ok _ =>
                -- there was no vault, so the session is locked
                refine stands_of_away rfl (h.not_held rfl) fun hfree => backed_of_locked ?_
                exact (h.free hfree).locked fun v hv => by
                  rw [hprudent hf] at hv
                  cases hv
      | renameToBackup name =>
          obtain rfl : c = .away := hallow
          cases a with
          | error e => exact h
          | ok _ =>
              refine stands_of_away rfl (h.not_held rfl) fun hfree => backed_of_locked ?_
              exact (h.free hfree).locked hprudent
      | _ => exact absurd rfl hcalm

/-- The lock changes hands by taking it and giving it back. -/
theorem holder_of_exec (hx : World.Exec K w pid op a w') {i : ℕ} (hi : i ≠ pid) :
    w'.holder = some i ↔ w.holder = some i := by
  have hsame : ∀ {w' : World}, w'.holder = w.holder → (w'.holder = some i ↔ w.holder = some i) :=
    fun h => by rw [h]
  cases hx
  case failedWrite => exact hsame rfl
  case tornSettings => exact hsame rfl
  case effect ha =>
      cases op with
      | acquireSession =>
          have hnone : w.holder = none := ha
          simp [World.effect, hnone, Ne.symm hi]
      | releaseSession =>
          have hheld : w.holder = some pid := ha
          simp [World.effect, hheld, Ne.symm hi]
      | createAgentAccount id label => cases a <;> exact hsame rfl
      | createUserAccount label => cases a <;> exact hsame rfl
      | unlockSession v passphrase =>
          simp only [World.effect]
          split <;> exact hsame rfl
      | record entry => cases a <;> exact hsame rfl
      | reattach name kind => cases a <;> exact hsame rfl
      | writeTmp vault => cases a <;> exact hsame rfl
      | renameTmp => cases a <;> exact hsame rfl
      | renameToBackup name => cases a <;> exact hsame rfl
      | createSettings => cases a <;> exact hsame rfl
      | writeSettings s => cases a <;> exact hsame rfl
      | _ => exact hsame rfl

/-- A task that has the lock, while another one is at work. -/
theorem Custody.Matches.beside {i : ℕ} {d : Custody} (hi : i ≠ pid) (hheld : w.holder = some i)
    (hself : Stands K w pid c) (h : d.Matches K w) (hallow : c.Allows K S founds op)
    (hprudent : Prudent K w founds op) (hx : World.Exec K w pid op a w') : d.Matches K w' := by
  have hne : w.holder ≠ some pid := fun hp => hi (Option.some.inj (hheld.symm.trans hp))
  have hfree : ¬ w.free pid := fun hf => hf.elim (fun hn => nomatch hn.symm.trans hheld) hne
  have hlocks : c.locks = false := hself.away hne
  -- a vault is there as long as an account waits to be saved
  have hvault : (∀ v, w.vault = some (some v) → v.isSupportedVersion = false) →
      d = .holding ∧ w.session.unlocked = none := by
    intro hnone
    rcases h.backed_or_ahead with ⟨rfl, hbacked⟩ | ⟨account, hahead⟩
    · exact ⟨rfl, hbacked.locked hnone⟩
    · obtain ⟨v, hv, hsupported⟩ := hahead.vault
      rw [hnone v hv] at hsupported
      cases hsupported
  by_cases hcalm : calm op = true
  · obtain ⟨hu, hv, ht, -⟩ := same_of_calm hcalm hx
    exact h.congr hu hv ht
  cases hx
  case tornSettings => exact absurd rfl hcalm
  case failedWrite vault e left hleft =>
      rcases hallow with ⟨account, rfl⟩ | ⟨rfl, hf, -⟩
      · cases hlocks
      · obtain ⟨rfl, hlocked⟩ := hvault fun v hv => by
          rw [hprudent hf] at hv
          cases hv
        exact backed_of_locked hlocked
  case effect ha =>
      cases op with
      | acquireSession => exact absurd (ha.symm.trans hheld) nofun
      | releaseSession => exact absurd ha hne
      | createAgentAccount id label => exact absurd ha.1 hfree
      | createUserAccount label => exact absurd ha.1 hfree
      | rollbackAccount address => exact absurd ha hfree
      | unlockSession v passphrase => exact absurd ha.1 hfree
      | lockSession => exact absurd ha hfree
      | installSession n => exact absurd ha hfree
      | writeTmp vault =>
          rcases hallow with ⟨account, rfl⟩ | ⟨rfl, hf, -⟩
          · cases hlocks
          · obtain ⟨rfl, hlocked⟩ := hvault fun v hv => by
              rw [hprudent hf] at hv
              cases hv
            cases a <;> exact backed_of_locked hlocked
      | renameTmp =>
          rcases hallow with ⟨account, vault, rfl⟩ | ⟨hf, vault, rfl⟩
          · cases hlocks
          · obtain ⟨rfl, hlocked⟩ := hvault fun v hv => by
              rw [hprudent hf] at hv
              cases hv
            cases a <;> exact backed_of_locked hlocked
      | renameToBackup name =>
          obtain ⟨rfl, hlocked⟩ := hvault hprudent
          cases a <;> exact backed_of_locked hlocked
      | _ => exact absurd rfl hcalm

/-- What a task does keeps every other one fit. -/
theorem Stands.beside {i : ℕ} {d : Custody} (hi : i ≠ pid) (hself : Stands K w pid c)
    (hself' : w'.holder = none → Backed K w') (h : Stands K w i d) (hallow : c.Allows K S founds op)
    (hprudent : Prudent K w founds op) (hx : World.Exec K w pid op a w') : Stands K w' i d where
  free := hself'
  held hh := by
    have hheld := (holder_of_exec hx hi).1 hh
    exact (h.held hheld).beside hi hheld hself hallow hprudent hx
  away hne := h.away fun hh => hne ((holder_of_exec hx hi).2 hh)

/-- The vault files stay lawful. -/
theorem Filed.step (hA : K.Authentic) (hfiled : Filed K w) (h : Stands K w pid c)
    (hallow : c.Allows K S founds op) (hx : World.Exec K w pid op a w') : Filed K w' := by
  have hwritten : ∀ {vault : EncryptedVault}, c.Allows K S founds (.writeTmp vault) →
      LawfulVault K (fun m r => r.Numbered K m) vault := by
    intro vault hallow
    rcases hallow with ⟨account, rfl⟩ | ⟨-, -, hfresh⟩
    · obtain ⟨-, ⟨u, v, r, hu, -, -, -, hnum⟩, u', hu', hsealed⟩ := h.matches rfl
      obtain rfl := Option.some.inj (hu.symm.trans hu')
      exact hsealed.lawful hA hnum
    · exact lawful_freshVault hA hfresh
  have hsame : ∀ {w' : World}, w'.vault = w.vault → w'.tmp = w.tmp → Filed K w' :=
    fun hv ht => ⟨hv ▸ hfiled.vault, ht ▸ hfiled.tmp⟩
  by_cases hcalm : calm op = true
  · obtain ⟨-, hv, ht, -⟩ := same_of_calm hcalm hx
    exact hsame hv ht
  cases hx
  case tornSettings => exact absurd rfl hcalm
  case failedWrite vault e left hleft =>
      refine ⟨hfiled.vault, fun v hv => ?_⟩
      simp only at hv
      subst hv
      simp only [List.mem_cons, List.not_mem_nil, or_false] at hleft
      rcases hleft with hleft | hleft | hleft
      · exact hfiled.tmp v hleft.symm
      · cases hleft
      · cases hleft
        exact hwritten hallow
  case effect ha =>
      cases op with
      | createAgentAccount id label => cases a <;> exact hsame rfl rfl
      | createUserAccount label => cases a <;> exact hsame rfl rfl
      | unlockSession v passphrase =>
          simp only [World.effect]
          split <;> exact hsame rfl rfl
      | writeTmp vault =>
          cases a with
          | error e => exact hfiled
          | ok u =>
              refine ⟨hfiled.vault, fun v hv => ?_⟩
              cases hv
              exact hwritten hallow
      | renameTmp =>
          cases a with
          | error e => exact hfiled
          | ok u =>
              refine ⟨hfiled.tmp, fun v hv => ?_⟩
              cases hv
      | renameToBackup name =>
          cases a with
          | error e => exact hfiled
          | ok u =>
              refine ⟨fun v hv => ?_, hfiled.tmp⟩
              cases hv
      | _ => first | exact hsame rfl rfl | exact absurd rfl hcalm

end Exec

/-! ## What the vault file keeps -/

/-- What a step may do to the vault file: nothing, add the account that the open session has and the
file has not, or replace a file that does not open. -/
inductive Rewrites (K : Crates) (w w' : World) : Prop
  | same (h : w'.vault = w.vault)
  | adds (account : AccountRef) (u : Unlocked) (r : Registry) (v v' : EncryptedVault)
      (hu : w.session.unlocked = some u) (hv : w.vault = some (some v))
      (hholds : OpensTo K v { u with registry := r }) (hadd : u.registry = r.add account)
      (hv' : w'.vault = some (some v')) (hsealed : SealedFrom K v' u)
  | closed (h : ∀ v, w.vault = some (some v) → v.isSupportedVersion = false)

section

variable {w w' : World} {pid : ℕ} {op : Op} {a : Ans op} {c : Custody} {founds : Bool}

theorem rewrites_of_exec (h : Stands K w pid c) (hallow : c.Allows K S founds op)
    (hprudent : Prudent K w founds op) (hx : World.Exec K w pid op a w') : Rewrites K w w' := by
  by_cases hcalm : calm op = true
  · exact .same (same_of_calm hcalm hx).2.1
  cases hx
  case tornSettings => exact absurd rfl hcalm
  case failedWrite => exact .same rfl
  case effect ha =>
      cases op with
      | createAgentAccount id label => cases a <;> exact .same rfl
      | createUserAccount label => cases a <;> exact .same rfl
      | unlockSession v passphrase =>
          simp only [World.effect]
          split <;> exact .same rfl
      | writeTmp vault => cases a <;> exact .same rfl
      | renameTmp =>
          cases a with
          | error e => exact .same rfl
          | ok _ =>
              rcases hallow with ⟨account, vault, rfl⟩ | ⟨hf, vault, rfl⟩
              · obtain ⟨-, ⟨u, v, r, hu, hv, hholds, hreg, -⟩, ⟨u', hu', hsealed⟩, htmp⟩ :=
                  h.matches rfl
                obtain rfl := Option.some.inj (hu.symm.trans hu')
                exact .adds account u r v vault hu hv hholds hreg htmp hsealed
              · refine .closed fun v hv => ?_
                rw [hprudent hf] at hv
                cases hv
      | renameToBackup name =>
          cases a with
          | error e => exact .same rfl
          | ok _ => exact .closed hprudent
      | _ => first | exact .same rfl | exact absurd rfl hcalm

end

/-- What `p` opens in the vault file of `w` it opens in that of `w'`, to the same seed with at least
the same accounts. -/
def Grows (K : Crates) (p : String) (w w' : World) : Prop :=
  ∀ v c, w.vault = some (some v) → v.contents K p = some c →
    ∃ v' c', w'.vault = some (some v') ∧ v'.contents K p = some c' ∧ c'.mnemonic = c.mnemonic ∧
      c.registry.accounts <+: c'.registry.accounts

/-- The session is locked, or open under `p`. -/
def Under (p : String) (w : World) : Prop :=
  ∀ u, w.session.unlocked = some u → u.vaultPassphrase = p

/-- The account is in what the vault file was sealed from. -/
def Vaulted (K : Crates) (w : World) (account : AccountRef) : Prop :=
  ∃ v u, w.vault = some (some v) ∧ SealedFrom K v u ∧ account ∈ u.registry.accounts

section

variable {w w' w'' : World} {p : String} {account : AccountRef}

theorem Grows.refl (p : String) (w : World) : Grows K p w w :=
  fun v c hv hc => ⟨v, c, hv, hc, rfl, List.prefix_refl _⟩

theorem Grows.trans (h : Grows K p w w') (h' : Grows K p w' w'') : Grows K p w w'' := by
  intro v c hv hc
  obtain ⟨v', c', hv', hc', hseed, hpre⟩ := h v c hv hc
  obtain ⟨v'', c'', hv'', hc'', hseed', hpre'⟩ := h' v' c' hv' hc'
  exact ⟨v'', c'', hv'', hc'', hseed'.trans hseed, hpre.trans hpre'⟩

/-- What is put in place of the vault file opens under the session's passphrase. -/
theorem Rewrites.grows (hK : K.Decrypts) (h : Rewrites K w w') (hp : Under p w) :
    Grows K p w w' := by
  intro v c hv hc
  cases h with
  | same h => exact ⟨v, c, h.trans hv, hc, rfl, List.prefix_refl _⟩
  | adds account u r v₀ v' hu hv₀ hholds hadd hv' hsealed =>
      obtain rfl := Option.some.inj (Option.some.inj (hv₀.symm.trans hv))
      obtain rfl := hp u hu
      obtain rfl := Option.some.inj (hholds.symm.trans hc)
      refine ⟨v', _, hv', hsealed.opensTo hK, rfl, ?_⟩
      rw [hadd]
      exact List.prefix_append r.accounts [account]
  | closed h =>
      have hsupported := EncryptedVault.supported_of_contents hc
      rw [h v hv] at hsupported
      cases hsupported

theorem SealedFrom.supported {v : EncryptedVault} {u : Unlocked} (h : SealedFrom K v u) :
    v.isSupportedVersion = true := by
  obtain ⟨draws, hsealed⟩ := h
  exact decide_eq_true (EncryptedVault.sealed_eq_ok hsealed).1

/-- What is put in place of the vault file has the accounts that were there. -/
theorem Rewrites.vaulted (hA : K.Authentic) (h : Rewrites K w w') (ha : Vaulted K w account) :
    Vaulted K w' account := by
  obtain ⟨v, u, hv, hfrom, hmem⟩ := ha
  cases h with
  | same h => exact ⟨v, u, h.trans hv, hfrom, hmem⟩
  | adds newest u' r v₀ v' hu' hv₀ hholds hadd hv' hsealed =>
      obtain rfl := Option.some.inj (Option.some.inj (hv₀.symm.trans hv))
      -- the session opened what the file was sealed from
      have hsame : r = u.registry := (VaultContents.mk.inj (hfrom.holds hA hholds)).2
      refine ⟨v', u', hv', hsealed, ?_⟩
      rw [hadd, hsame]
      exact List.mem_append_left _ hmem
  | closed h =>
      have hsupported := hfrom.supported
      rw [h v hv] at hsupported
      cases hsupported

/-- What is put in place with the lock in hand has the account that was created. -/
theorem vaulted_of_rename {pid : ℕ} {vault : EncryptedVault}
    (h : Stands K w pid (.wrote account vault))
    (hx : World.Exec K w pid .renameTmp (.ok ()) w') : Vaulted K w' account := by
  obtain ⟨-, ⟨u, v, r, hu, -, -, hreg, -⟩, ⟨u', hu', hsealed⟩, htmp⟩ := h.matches rfl
  obtain rfl := Option.some.inj (hu.symm.trans hu')
  cases hx
  refine ⟨vault, u, htmp, hsealed, ?_⟩
  rw [hreg]
  exact List.mem_append_right _ List.mem_cons_self

end

/-! ## Whole runs -/

/-- What users of the wallet see to before a step. -/
def Careful (K : Crates) (s : State) : Act → Prop
  | .run pid ⟨op, _⟩ =>
      ∀ p, s.procs[pid]? = some p → Prudent K s.world (Task.founds p.task) op
  | _ => True

/-- The session is opened under `p`, if the step opens it. -/
def OpensUnder (p : String) : Act → Prop
  | .run _ ⟨.unlockSession _ passphrase, .ok _⟩ => passphrase = p
  | .run _ ⟨.installSession n, _⟩ => ∀ u, n.unlocked = some u → u.vaultPassphrase = p
  | _ => True

/-- What careful runs keep. -/
structure Persisted (K : Crates) (s : State) : Prop where
  filed : Filed K s.world
  stands : ∀ i, Stands K s.world i (custody K (s.traceAt i))
  saved : ∀ i account, Saved K (s.traceAt i) account → Vaulted K s.world account

theorem Saved.append {tr : Trace} {e : Event Op Ans} {account : AccountRef}
    (h : Saved K (tr ++ [e]) account) : Saved K tr account ∨
      e = ⟨.renameTmp, .ok ()⟩ ∧ ∃ vault, custody K tr = .wrote account vault := by
  obtain ⟨tr', vault, hpre, hc⟩ := h
  rcases List.prefix_concat_iff.1 hpre with heq | hpre
  · obtain ⟨rfl, he⟩ := List.append_inj' heq rfl
    exact .inr ⟨(List.singleton_inj.1 he).symm, vault, hc⟩
  · exact .inl ⟨tr', vault, hpre, hc⟩

section

variable {s s' : State}

theorem Persisted.step (hK : K.Decrypts) (hA : K.Authentic) (hpaths : ∀ m, PathsApart K m)
    (h : Persisted K s)
    (hsafe : s.Safe (fun task => custodyRules K S (Task.founds task)) (RepliesSaved K)) {m : Act}
    (hc : Careful K s m) (hs : Sys.Step (service K S) s m s') :
    Persisted K s' ∧ Rewrites K s.world s'.world := by
  by_cases hm : ∀ pid e, m ≠ .run pid e
  · obtain ⟨hworld, htraces⟩ := hs.of_still hm
    rw [hworld]
    refine ⟨⟨hworld ▸ h.filed, fun i => ?_, fun i account hsaved => ?_⟩, .same rfl⟩
    · rw [htraces, hworld]
      exact h.stands i
    · rw [htraces] at hsaved
      exact hworld ▸ h.saved i account hsaved
  · push Not at hm
    obtain ⟨pid, ⟨op, a⟩, rfl⟩ := hm
    obtain ⟨hx, ⟨p, next, hp, hr⟩, hself, hothers⟩ := hs.of_run
    have hprudent : Prudent K s.world (Task.founds p.task) op := hc p hp
    have hallow : (custody K (s.traceAt pid)).Allows K S (Task.founds p.task) op := by
      rw [Sys.traceAt_eq hp]
      exact hsafe.allows hp hr
    have hstands := (h.stands pid).step hK hpaths h.filed hallow hprudent hx
    have hrewrites := rewrites_of_exec (h.stands pid) hallow hprudent hx
    refine ⟨⟨h.filed.step hA (h.stands pid) hallow hx, fun i => ?_, fun i account hsaved => ?_⟩,
      hrewrites⟩
    · by_cases hi : i = pid
      · rw [hi, hself, custody_append]
        exact hstands
      · rw [hothers i hi]
        exact .beside hi (h.stands pid) hstands.free (h.stands i) hallow hprudent hx
    · by_cases hi : i = pid
      · rw [hi, hself] at hsaved
        rcases hsaved.append with hsaved | ⟨he, vault, hwrote⟩
        · exact hrewrites.vaulted hA (h.saved pid account hsaved)
        · cases he
          exact vaulted_of_rename (hwrote ▸ h.stands pid) hx
      · rw [hothers i hi] at hsaved
        exact hrewrites.vaulted hA (h.saved i account hsaved)

/-- A session that is only opened under `p` is locked or open under `p`. -/
theorem Under.step {p : String} (h : Under p s.world) {m : Act} (hp : OpensUnder p m)
    (hs : Sys.Step (service K S) s m s') : Under p s'.world := by
  by_cases hm : ∀ pid e, m ≠ .run pid e
  · rw [(hs.of_still hm).1]
    exact h
  · push Not at hm
    obtain ⟨pid, ⟨op, a⟩, rfl⟩ := hm
    intro u hu
    rcases opened_of_exec hs.of_run.1 hu with ⟨v, hv, -, hsame⟩ | ⟨v, c, he, -⟩ | ⟨n, rfl, hn⟩
    · rw [← hsame]
      exact h v hv
    · rw [he] at hp
      exact hp
    · exact hp u hn

end

/-! ## The application stopped and started again -/

/-- The application started on the disk it left: its session is locked, and a write that was cut
short may have left its temporary file unreadable. -/
structure Boots (w w' : World) : Prop where
  locked : w'.session.unlocked = none
  free : w'.holder = none
  vault : w'.vault = w.vault
  tmp : w'.tmp = w.tmp ∨ w'.tmp = some none
  backups : w'.backups = w.backups

/-- A world without a lock holder whose vault file holds what the session holds. -/
structure Shelved (K : Crates) (w : World) : Prop where
  filed : Filed K w
  free : w.holder = none
  backed : Backed K w

theorem Shelved.persisted {w : World} (h : Shelved K w) : Persisted K ⟨w, []⟩ where
  filed := h.filed
  stands i := stands_of_away rfl (by rw [h.free]; nofun) fun _ => h.backed
  saved i account hsaved := by
    obtain ⟨tr, vault, hpre, -⟩ := hsaved
    have := hpre.length_le
    simp [Sys.traceAt] at this

theorem Filed.boots {w w' : World} (h : Filed K w) (hb : Boots w w') : Shelved K w' where
  filed := by
    refine ⟨hb.vault ▸ h.vault, fun v hv => ?_⟩
    rcases hb.tmp with ht | ht
    · exact h.tmp v (ht ▸ hv)
    · rw [ht] at hv
      cases hv
  free := hb.free
  backed := backed_of_locked hb.locked

/-- The careful runs of the wallet from a state, the application being stopped and started again
any number of times. -/
abbrev Runs (K : Crates) (S : Setup) (init : State → Prop) (s : State) : Prop :=
  Sys.Reopened (service K S) init Boots (Careful K) s

/-- Those of them from `s₀` in which the session is only opened under `p`. -/
abbrev RunsUnder (K : Crates) (S : Setup) (p : String) (s₀ s : State) : Prop :=
  Sys.Reopened (service K S) (fun s => s = s₀) Boots (fun s m => Careful K s m ∧ OpensUnder p m) s

/-- What holds of a state and is kept: every task is in its custody, and the files are right. -/
structure Guarded (K : Crates) (S : Setup) (s : State) : Prop where
  safe : s.Safe (fun task => custodyRules K S (Task.founds task)) (RepliesSaved K)
  persisted : Persisted K s

theorem guarded_of_shelved {w : World} (h : Shelved K w) : Guarded K S ⟨w, []⟩ :=
  ⟨fun _ _ hp => (nomatch hp), h.persisted⟩

section

variable {s s₀ : State} {w : World}
variable (hS : S.hasVaultStore = true) (hK : K.Decrypts) (hA : K.Authentic)
variable (hpaths : ∀ m, PathsApart K m)

include hS hK hA hpaths

theorem Guarded.step {m : Act} {s' : State} (h : Guarded K S s) (hc : Careful K s m)
    (hs : Sys.Step (service K S) s m s') : Guarded K S s' ∧ Rewrites K s.world s'.world := by
  obtain ⟨hpersisted, hrewrites⟩ := h.persisted.step hK hA hpaths h.safe hc hs
  exact ⟨⟨h.safe.step hs (safe_startCustody hS) fun _ _ _ _ _ _ _ _ => trivial, hpersisted⟩,
    hrewrites⟩

theorem guarded_of_runs (hw : Shelved K w) (h : Runs K S (Starts w) s) : Guarded K S s := by
  induction h with
  | init s hs =>
      rw [hs]
      exact guarded_of_shelved hw
  | step m _ hc hs ih => exact (ih.step hS hK hA hpaths hc hs).1
  | crash _ w hb ih => exact guarded_of_shelved (ih.persisted.filed.boots hb)

/-- What is in the vault file stays in it. -/
theorem vaulted_of_runs {account : AccountRef} (h₀ : Guarded K S s₀)
    (ha : Vaulted K s₀.world account) (h : Runs K S (fun s => s = s₀) s) :
    Guarded K S s ∧ Vaulted K s.world account := by
  induction h with
  | init s hs =>
      rw [hs]
      exact ⟨h₀, ha⟩
  | step m _ hc hs ih =>
      obtain ⟨hguarded, hrewrites⟩ := ih.1.step hS hK hA hpaths hc hs
      exact ⟨hguarded, hrewrites.vaulted hA ih.2⟩
  | crash _ w hb ih =>
      have hsame : Rewrites K _ w := .same hb.vault
      exact ⟨guarded_of_shelved (ih.1.persisted.filed.boots hb), hsame.vaulted hA ih.2⟩

theorem grows_of_runs {p : String} (h₀ : Guarded K S s₀) (hp : Under p s₀.world)
    (h : RunsUnder K S p s₀ s) :
    Guarded K S s ∧ Under p s.world ∧ Grows K p s₀.world s.world := by
  induction h with
  | init s hs =>
      rw [hs]
      exact ⟨h₀, hp, .refl p _⟩
  | step m _ hc hs ih =>
      obtain ⟨hguarded, hunder, hgrows⟩ := ih
      obtain ⟨hguarded', hrewrites⟩ := hguarded.step hS hK hA hpaths hc.1 hs
      exact ⟨hguarded', hunder.step hc.2 hs, hgrows.trans (hrewrites.grows hK hunder)⟩
  | crash _ w hb ih =>
      obtain ⟨hguarded, hunder, hgrows⟩ := ih
      have hsame : Rewrites K _ w := .same hb.vault
      refine ⟨guarded_of_shelved (hguarded.persisted.filed.boots hb), fun u hu => ?_,
        hgrows.trans (hsame.grows hK hunder)⟩
      rw [hb.locked] at hu
      cases hu

end

section

variable {s s₀ : State} {w : World}

/-! ## Runs of requests -/

/-- No command of the window arrives. -/
def NoCommands (_ : State) (m : Act) : Prop := ∀ c, m ≠ .arrive (.command c)

theorem prudent_of_request {task : Task} {tr : Trace} {op : Op} (htask : ∀ c, task ≠ .command c)
    (h : (taskRules K S task).allows tr op) : Prudent K w (Task.founds task) op := by
  cases task with
  | command c => exact absurd rfl (htask c)
  | request token req =>
      have h : Permitted K req.method tr op := h
      cases op with
      | unlockSession v passphrase => exact h.elim
      | installSession n => exact h.elim
      | renameToBackup name => exact h.elim
      | writeTmp v => exact fun hf => nomatch hf
      | renameTmp => exact fun hf => nomatch hf
      | _ => trivial
  | proving t =>
      have h : quiet op = true := h
      cases op <;> trivial

/-- Requests and background tasks open no session. -/
theorem opensUnder_of_request {task : Task} {tr : Trace} {op : Op} {a : Ans op} {pid : ℕ}
    (htask : ∀ c, task ≠ .command c) (h : (taskRules K S task).allows tr op) (p : String) :
    OpensUnder p (.run pid ⟨op, a⟩) := by
  cases task with
  | command c => exact absurd rfl (htask c)
  | request token req =>
      have h : Permitted K req.method tr op := h
      cases op with
      | unlockSession v passphrase => exact h.elim
      | installSession n => exact h.elim
      | _ => trivial
  | proving t =>
      have h : quiet op = true := h
      cases op with
      | unlockSession v passphrase => cases h
      | installSession n => cases h
      | _ => trivial

/-- Runs without commands of the window are careful: only those unlock, set up or archive. -/
theorem runs_of_requests (h : Sys.Reach (service K S) (Starts w) NoCommands s) :
    Sys.Reopened (service K S) (Starts w) Boots
      (fun s m => Careful K s m ∧ ∀ p, OpensUnder p m) s ∧
    ∀ p ∈ s.procs, ∀ c, p.task ≠ .command c := by
  refine h.invariant (I := fun s => Sys.Reopened (service K S) (Starts w) Boots
      (fun s m => Careful K s m ∧ ∀ p, OpensUnder p m) s ∧ ∀ p ∈ s.procs, ∀ c, p.task ≠ .command c)
    (fun s hs => ⟨.init s hs, fun p hp => ?_⟩) fun s m s' hreach ⟨hruns, htasks⟩ hc hs => ?_
  · rw [hs] at hp
    cases hp
  · have hcareful : Careful K s m ∧ ∀ p, OpensUnder p m := by
      cases m with
      | arrive task => exact ⟨trivial, fun _ => trivial⟩
      | drop pid => exact ⟨trivial, fun _ => trivial⟩
      | run pid e =>
          obtain ⟨op, a⟩ := e
          obtain ⟨-, ⟨p, next, hp, hr⟩, -⟩ := hs.of_run
          have htask := htasks p (List.mem_of_getElem? hp)
          have hallows := (safe_reach hreach fun _ => Starts.procs).allows hp hr
          refine ⟨fun q hq => ?_, opensUnder_of_request htask hallows⟩
          obtain rfl := Option.some.inj (hp.symm.trans hq)
          exact prudent_of_request htask hallows
    refine ⟨.step m hruns hcareful hs, ?_⟩
    cases hs with
    | arrive task ht =>
        intro p hp c
        rcases List.mem_append.1 hp with hp | hp
        · exact htasks p hp c
        · rw [List.mem_singleton.1 hp]
          exact fun htask => hc c (congrArg Move.arrive htask)
    | run pid p op next a w' hp hr hx =>
        intro q hq c
        rcases List.mem_append.1 hq with hq | hq
        · rcases List.mem_or_eq_of_mem_set hq with hq | rfl
          · exact htasks q hq c
          · exact htasks p (List.mem_of_getElem? hp) c
        · obtain ⟨task, htask, rfl⟩ := List.mem_map.1 hq
          have hspawn : spawns op = some task := Option.mem_toList.1 htask
          cases op <;> cases hspawn
          exact nofun
    | drop pid p op next hp hr hd =>
        intro q hq c
        rcases List.mem_or_eq_of_mem_set hq with hq | rfl
        · exact htasks q hq c
        · exact htasks p (List.mem_of_getElem? hp) c

/-- The account that a finished task answers with. -/
def newAccount : Task → Reply → Option Json
  | .request _ req, .response r =>
      if Method.ofString req.method = some .createAgentAccount then r.outcome.toOption else none
  | .command (.addUserAccount _), .window r => r.toOption
  | _, _ => none

theorem answersSaved_of_reply {task : Task} {tr : Trace} {reply : Reply} {v : Json}
    (h : RepliesSaved K task tr reply) (hv : newAccount task reply = some v) :
    AnswersSaved K tr v := by
  have hok : ∀ {ε : Type} {r : Except ε Json}, r.toOption = some v → r = .ok v := by
    intro ε r hr
    cases r with
    | ok x => rw [Option.some.inj hr]
    | error e => cases hr
  unfold newAccount at hv
  split at hv
  · split_ifs at hv with hm
    exact h hm v (hok hv)
  · exact h v (hok hv)
  · cases hv

/-- A wallet of no accounts, and an agent that holds a grant. -/
def shelvedWorld : World where
  session := .newUnlocked .sepolia "seed" "pass" .empty
  clients := [{ plainClient with tokenHash := "t", grantedUntil := some 1 }]
  vault := some (some (plainVault "pass" ⟨"seed", .empty⟩))

theorem shelved_shelvedWorld : Shelved plainCrates shelvedWorld where
  filed := by
    refine ⟨fun v hv p c hc => ?_, fun v hv => nomatch hv⟩
    cases hv
    rw [eq_of_contents_plainVault hc]
    exact Registry.numbered_empty _ _
  free := rfl
  backed u hu := by
    cases hu
    exact ⟨_, rfl, contents_plainVault "pass" _⟩

def vaultSetup : Setup := { plainSetup with hasVaultStore := true }

def accountRequest : Request where
  id := .int 1
  method := "companion_createAgentAccount"
  params := .obj []

/-- A disk that takes what is written, at time 0. -/
def saving : (op : Op) → Option (Ans op)
  | .touchActivity | .clock _ | .elapsed => some 0
  | .entropy => some plainDraws
  | .writeTmp _ => some (.ok ())
  | _ => none

/-- The request served on its own. -/
def accountMade : Option (List Act × State) :=
  Sys.play (service plainCrates vaultSetup) (answering plainCrates saving)
    ⟨shelvedWorld, [(service plainCrates vaultSetup).fresh (.request (some "t") accountRequest)]⟩
    (List.replicate 14 0)

/-- The session has an account, nobody holds its lock, and the request was answered with it. -/
def answeredWithAccount (s : State) : Bool :=
  s.world.holder.isNone && (s.world.session.unlocked.any fun u => u.registry.accounts.length = 1) &&
  match (s.procs[0]? : Option Proc) with
  | some ⟨task, _, some (.pure reply)⟩ => (newAccount task reply).isSome
  | _ => false

theorem runs_accountMade : ∃ s, RunsUnder plainCrates vaultSetup "pass" ⟨shelvedWorld, []⟩ s ∧
    answeredWithAccount s = true := by
  have hplay : accountMade.map (fun r => answeredWithAccount r.2) = some true := by decide +kernel
  obtain ⟨⟨moves, s⟩, h, hanswered⟩ := Option.map_eq_some_iff.1 hplay
  have hbegin : Sys.Reach (service plainCrates vaultSetup) (Starts shelvedWorld) NoCommands
      ⟨shelvedWorld, [] ++
        [(service plainCrates vaultSetup).fresh (.request (some "t") accountRequest)]⟩ :=
    .step (.arrive (.request (some "t") accountRequest)) (.init ⟨shelvedWorld, []⟩ rfl) nofun
      (.arrive _ _ trivial)
  have hreach := hbegin.play (fun _ _ _ _ _ _ => nofun) exec_answering h
  exact ⟨s, (runs_of_requests hreach).1.mono (fun _ hs => hs) fun _ _ hc => ⟨hc.1, hc.2 "pass"⟩,
    hanswered⟩

theorem RunsUnder.runs {p : String} (h : RunsUnder K S p ⟨w, []⟩ s) : Runs K S (Starts w) s :=
  h.mono (fun _ hs => hs) fun _ _ hc => hc.1

/-! ## The vault file -/

/-- Whenever nobody holds the session lock, the vault file opens, under the passphrase of the open
session, to exactly its seed and its accounts. -/
theorem vault_holds_session (hS : S.hasVaultStore = true) (hK : K.Decrypts) (hA : K.Authentic)
    (hpaths : ∀ m, PathsApart K m) (hw : Shelved K w) (h : Runs K S (Starts w) s)
    (hfree : s.world.holder = none) : Backed K s.world :=
  ((guarded_of_runs hS hK hA hpaths hw h).persisted.stands 0).free hfree

/-- The account an agent asked for is in the open session, and in the vault file. -/
theorem accountMade_held : ∃ s, Runs plainCrates vaultSetup (Starts shelvedWorld) s ∧
    s.world.session.isLocked = false ∧ Backed plainCrates s.world := by
  obtain ⟨s, hruns, hanswered⟩ := runs_accountMade
  simp only [answeredWithAccount, Bool.and_eq_true, Option.isNone_iff_eq_none] at hanswered
  obtain ⟨⟨hfree, hany⟩, -⟩ := hanswered
  refine ⟨s, hruns.runs, ?_, vault_holds_session rfl plainCrates_decrypts plainCrates_authentic
    plainCrates_pathsApart shelved_shelvedWorld hruns.runs hfree⟩
  cases hu : s.world.session.unlocked with
  | none =>
      rw [hu] at hany
      cases hany
  | some u => simp [WalletSession.isLocked, hu]

/-- From any state whose session is locked or open under `p`, and as long as the session is only
opened under `p`: what `p` opens the vault file to it opens it to ever after, with the same seed and
at least the same accounts. -/
theorem vault_grows (hS : S.hasVaultStore = true) (hK : K.Decrypts) (hA : K.Authentic)
    (hpaths : ∀ m, PathsApart K m) (hw : Shelved K w) (h₀ : Runs K S (Starts w) s₀) {p : String}
    (hp : Under p s₀.world) (h : RunsUnder K S p s₀ s) : Grows K p s₀.world s.world :=
  (grows_of_runs hS hK hA hpaths (guarded_of_runs hS hK hA hpaths hw h₀) hp h).2.2

/-- The vault file from before the account was made, and after the application was started again. -/
theorem accountMade_grows : ∃ s, RunsUnder plainCrates vaultSetup "pass" ⟨shelvedWorld, []⟩ s ∧
    answeredWithAccount s = true ∧ ∃ w, Boots s.world w ∧
      Grows plainCrates "pass" shelvedWorld w := by
  obtain ⟨s, hruns, hanswered⟩ := runs_accountMade
  let w : World := { s.world with session := s.world.session.lock, holder := none }
  have hboots : Boots s.world w := ⟨rfl, rfl, rfl, .inl rfl, rfl⟩
  have hunder : Under "pass" shelvedWorld := by
    intro u hu
    cases hu
    rfl
  exact ⟨s, hruns, hanswered, w, hboots, vault_grows (s := ⟨w, []⟩) rfl plainCrates_decrypts
    plainCrates_authentic plainCrates_pathsApart shelved_shelvedWorld (.init ⟨shelvedWorld, []⟩ rfl) hunder
    (.crash hruns w hboots)⟩

/-- The account is in the vault file, at the address that the seed there derives for it. -/
def Recoverable (K : Crates) (w : World) (account : AccountRef) : Prop :=
  ∃ v p c chain addr, w.vault = some (some v) ∧ v.contents K p = some c ∧
    account ∈ c.registry.accounts ∧
    accountAddress K c.mnemonic account.domain account.index chain .openZeppelin = .ok addr ∧
    account.address = addressHex addr

theorem Vaulted.recoverable (hK : K.Decrypts) {account : AccountRef} (h : Vaulted K w account)
    (hfiled : Filed K w) : Recoverable K w account := by
  obtain ⟨v, u, hv, hfrom, hmem⟩ := h
  have hopens : v.contents K u.vaultPassphrase = some ⟨u.mnemonic, u.registry⟩ := hfrom.opensTo hK
  obtain ⟨chain, addr, haddr, hhex⟩ := (hfiled.vault v hv _ _ hopens).derived account hmem
  exact ⟨v, _, _, chain, addr, hv, hopens, hmem, haddr, hhex⟩

/-- The account that a client or the window was given can be recovered from the vault file ever
after. -/
theorem answered_recoverable (hS : S.hasVaultStore = true) (hK : K.Decrypts) (hA : K.Authentic)
    (hpaths : ∀ m, PathsApart K m) (hw : Shelved K w) (h₀ : Runs K S (Starts w) s₀) {pid : ℕ}
    {p : Proc} {reply : Reply} {v : Json} (hp : s₀.procs[pid]? = some p)
    (hr : p.rest = some (.pure reply)) (hv : newAccount p.task reply = some v)
    (h : Runs K S (fun s => s = s₀) s) :
    ∃ account, v = accountToJson account ∧ Recoverable K s.world account := by
  have hguarded := guarded_of_runs hS hK hA hpaths hw h₀
  obtain ⟨account, hjson, hsaved⟩ := answersSaved_of_reply (hguarded.safe pid p hp _ hr) hv
  rw [← Sys.traceAt_eq hp] at hsaved
  obtain ⟨hlater, hvaulted⟩ := vaulted_of_runs hS hK hA hpaths hguarded
    (hguarded.persisted.saved pid account hsaved) h
  exact ⟨account, hjson, hvaulted.recoverable hK hlater.persisted.filed⟩

/-- The application is started again after it answered with an account. -/
theorem accountMade_recoverable : ∃ s, Runs plainCrates vaultSetup (Starts shelvedWorld) s ∧
    s.procs = [] ∧ ∃ account, Recoverable plainCrates s.world account := by
  obtain ⟨s, hunder, hanswered⟩ := runs_accountMade
  have hruns := hunder.runs
  simp only [answeredWithAccount, Bool.and_eq_true] at hanswered
  obtain ⟨-, hreply⟩ := hanswered
  split at hreply
  · rename_i task tr reply hp
    obtain ⟨v, hv⟩ := Option.isSome_iff_exists.1 hreply
    let w : World := { s.world with session := s.world.session.lock, holder := none }
    have hboots : Boots s.world w := ⟨rfl, rfl, rfl, .inl rfl, rfl⟩
    have hself : Runs plainCrates vaultSetup (fun s' => s' = s) s := .init s rfl
    obtain ⟨account, -, hrecoverable⟩ := answered_recoverable rfl plainCrates_decrypts
      plainCrates_authentic plainCrates_pathsApart shelved_shelvedWorld hruns hp rfl hv
      (.crash hself w hboots)
    exact ⟨⟨w, []⟩, .crash hruns w hboots, rfl, account, hrecoverable⟩
  · cases hreply

end

end Strkd.Service
