import Strkd.Service.Runs

/-!
# What the registries keep

The accounts of a seed are added by the session and removed again when they could not be written.
What every addition and every removal keeps is kept by the session, by the vault files and by what
tasks have read of them.
-/

namespace Strkd.Service

open Wallet Prover Rpc

variable {K : Crates} {S : Setup} {I : String → Registry → Prop}

/-! ## Laws of registries -/

/-- A property of a seed and its accounts that the operations of a session keep. -/
structure RegistryLaw (K : Crates) (I : String → Registry → Prop) : Prop where
  empty : ∀ mnemonic, I mnemonic .empty
  add : ∀ (s s' : WalletSession) (u : Unlocked) domain label owner account,
    (owner ≠ none → domain = .agent) → s.unlocked = some u →
    s.createAccount K domain label owner = .ok (account, s') → I u.mnemonic u.registry →
    I u.mnemonic (u.registry.add account)
  remove : ∀ mnemonic r address, I mnemonic r → I mnemonic (r.removeByAddress address)

/-- An open session has a registry that `I` holds of. -/
def LawfulSession (I : String → Registry → Prop) (s : WalletSession) : Prop :=
  ∀ u, s.unlocked = some u → I u.mnemonic u.registry

/-- What opens a vault finds a registry that `I` holds of. -/
def LawfulVault (K : Crates) (I : String → Registry → Prop) (v : EncryptedVault) : Prop :=
  ∀ passphrase contents, v.contents K passphrase = some contents →
    I contents.mnemonic contents.registry

theorem RegistryLaw.newUnlocked (h : RegistryLaw K I) (chain : ChainId)
    (mnemonic passphrase : String) :
    LawfulSession I (.newUnlocked chain mnemonic passphrase .empty) := by
  intro u hu
  cases hu
  exact h.empty mnemonic

theorem LawfulSession.mapRegistry {s : WalletSession} {f : Registry → Registry}
    (h : LawfulSession I s) (hf : ∀ u, s.unlocked = some u → I u.mnemonic u.registry →
      I u.mnemonic (f u.registry)) : LawfulSession I (s.mapRegistry f) := by
  intro u hu
  obtain ⟨v, hv, rfl⟩ := Option.map_eq_some_iff.1 hu
  exact hf v hv (h v hv)

/-- What a lawful session seals to is lawful, as nothing else authenticates. -/
theorem LawfulSession.reseal (hK : K.Authentic) {s : WalletSession} {draws : SealDraws}
    {v : EncryptedVault} (h : LawfulSession I s) (hv : s.reseal K draws = .ok v) :
    LawfulVault K I v := by
  obtain ⟨u, hu, hsealed⟩ := WalletSession.reseal_eq_ok hv
  intro passphrase contents hcontents
  rw [EncryptedVault.contents_eq_of_sealed hK hsealed hcontents]
  exact h u hu

theorem LawfulSession.unlock {s s' : WalletSession} {v : EncryptedVault} {passphrase : String}
    (hv : LawfulVault K I v) (h : s.unlock K v passphrase = .ok s') : LawfulSession I s' := by
  obtain ⟨contents, hcontents, rfl⟩ := WalletSession.unlock_eq_ok h
  intro u hu
  cases hu
  exact hv passphrase contents hcontents

/-- The session and the vault files are lawful. -/
structure LawfulWorld (K : Crates) (I : String → Registry → Prop) (w : World) : Prop where
  session : LawfulSession I w.session
  tmp : ∀ v, w.tmp = some (some v) → LawfulVault K I v
  vault : ∀ v, w.vault = some (some v) → LawfulVault K I v

/-- What a task has read is lawful. -/
def LawfulEvent (K : Crates) (I : String → Registry → Prop) : Event Op Ans → Prop
  | ⟨.session, s⟩ => LawfulSession I s
  | ⟨.loadVault, .ok (some v)⟩ => LawfulVault K I v
  | _ => True

def LawfulTrace (K : Crates) (I : String → Registry → Prop) (tr : Trace) : Prop :=
  ∀ e ∈ tr, LawfulEvent K I e

/-! ## One operation -/

section Exec

variable {w w' : World} {pid : ℕ} {op : Op} {a : Ans op} {tr : Trace} {task : Task}

/-- What an operation brings in from outside the world is lawful. -/
def LawfulOp (K : Crates) (I : String → Registry → Prop) : Op → Prop
  | .writeTmp v | .unlockSession v _ => LawfulVault K I v
  | .installSession n => LawfulSession I n
  | _ => True

theorem Resealed.lawful (hK : K.Authentic) {v : EncryptedVault} (h : Resealed K tr v)
    (htr : LawfulTrace K I tr) : LawfulVault K I v := by
  obtain ⟨tr', s, e, rfl, hv⟩ := h
  have hs : LawfulSession I s := htr ⟨.session, s⟩ (by simp)
  exact hs.reseal hK hv

theorem Staged.lawful (hK : K.Authentic) (law : RegistryLaw K I) {v : EncryptedVault}
    {n : WalletSession} (h : Staged K S tr v n) : LawfulSession I n ∧ LawfulVault K I v := by
  obtain ⟨tr', m, passphrase, e, -, rfl, hv⟩ := h
  have hn := law.newUnlocked S.desktopChain m passphrase
  exact ⟨hn, hn.reseal hK hv⟩

theorem lawfulOp_of_allowed (hK : K.Authentic) (law : RegistryLaw K I)
    (h : (taskRules K S task).allows tr op) (htr : LawfulTrace K I tr) : LawfulOp K I op := by
  cases task with
  | request token req =>
      have h : Permitted K req.method tr op := h
      cases op with
      | writeTmp v => exact h.2.1.lawful hK htr
      | unlockSession v passphrase => exact h.elim
      | installSession n => exact h.elim
      | _ => trivial
  | command c =>
      have h : CommandPermitted K S tr op := h
      cases op with
      | writeTmp v =>
          rcases h with h | ⟨n, h⟩
          · exact h.2.lawful hK htr
          · exact (h.lawful hK law).2
      | unlockSession v passphrase => exact htr _ h.2.2
      | installSession n =>
          obtain ⟨tr', v, -, h⟩ := h
          exact (h.lawful hK law).1
      | _ => trivial
  | proving t =>
      cases op <;> trivial

theorem LawfulWorld.withAccount (law : RegistryLaw K I) {domain : Domain} {label : String}
    {owner : Option String} (hd : owner ≠ none → domain = .agent) (h : LawfulWorld K I w) :
    LawfulWorld K I (w.withAccount ((w.session.createAccount K domain label owner).map Prod.fst)) := by
  cases hc : w.session.createAccount K domain label owner with
  | error e => exact h
  | ok r =>
      obtain ⟨account, s⟩ := r
      exact ⟨h.session.mapRegistry fun u hu hs => law.add _ s u _ _ _ _ hd hu hc hs, h.tmp, h.vault⟩

/-- A step keeps the world lawful. -/
theorem LawfulWorld.exec (law : RegistryLaw K I) (h : LawfulWorld K I w) (hop : LawfulOp K I op)
    (hx : World.Exec K w pid op a w') : LawfulWorld K I w' := by
  have htmp : ∀ {w' : World}, w'.session = w.session → w'.vault = w.vault →
      (∀ v, w'.tmp = some (some v) → LawfulVault K I v) → LawfulWorld K I w' := by
    intro w' hs hv ht
    exact ⟨hs ▸ h.session, ht, hv ▸ h.vault⟩
  cases hx
  case failedWrite vault e left hleft =>
      refine htmp rfl rfl fun v hv => ?_
      simp only at hv
      subst hv
      simp only [List.mem_cons, List.not_mem_nil, or_false] at hleft
      rcases hleft with hleft | hleft | hleft
      · exact h.tmp v hleft.symm
      · cases hleft
      · cases hleft
        exact hop
  case tornSettings => exact ⟨h.session, h.tmp, h.vault⟩
  case effect ha =>
      cases op with
      | setChain chain => exact ⟨fun u hu => h.session u hu, h.tmp, h.vault⟩
      | createAgentAccount id label =>
          obtain ⟨-, rfl⟩ := ha
          exact h.withAccount law fun _ => rfl
      | createUserAccount label =>
          obtain ⟨-, rfl⟩ := ha
          exact h.withAccount law fun hne => absurd rfl hne
      | rollbackAccount address =>
          exact ⟨h.session.mapRegistry fun u _ hs => law.remove _ _ address hs, h.tmp, h.vault⟩
      | unlockSession v passphrase =>
          simp only [World.effect]
          split
          · rename_i s hs
            exact ⟨LawfulSession.unlock hop hs, h.tmp, h.vault⟩
          · exact h
      | lockSession => exact ⟨fun u hu => (nomatch hu), h.tmp, h.vault⟩
      | installSession n => exact ⟨hop, h.tmp, h.vault⟩
      | writeTmp v =>
          cases a with
          | error e => exact h
          | ok _ =>
              refine htmp rfl rfl fun v' hv' => ?_
              cases hv'
              exact hop
      | renameTmp =>
          cases a with
          | error e => exact h
          | ok _ =>
              refine ⟨h.session, fun v hv => ?_, h.tmp⟩
              cases hv
      | renameToBackup name =>
          cases a with
          | error e => exact h
          | ok _ =>
              refine ⟨h.session, h.tmp, fun v hv => ?_⟩
              cases hv
      | record entry => cases a <;> exact ⟨h.session, h.tmp, h.vault⟩
      | reattach name kind => cases a <;> exact ⟨h.session, h.tmp, h.vault⟩
      | createSettings => cases a <;> exact ⟨h.session, h.tmp, h.vault⟩
      | writeSettings s => cases a <;> exact ⟨h.session, h.tmp, h.vault⟩
      | _ => exact ⟨h.session, h.tmp, h.vault⟩

/-- A session is open because it was, with the same seed and the same passphrase, or because it has
just been unlocked or set up. -/
theorem opened_of_exec (hx : World.Exec K w pid op a w') {u : Unlocked}
    (hu : w'.session.unlocked = some u) :
    (∃ v, w.session.unlocked = some v ∧ v.mnemonic = u.mnemonic ∧
      v.vaultPassphrase = u.vaultPassphrase) ∨
    (∃ v c, (⟨op, a⟩ : Event Op Ans) = ⟨.unlockSession v u.vaultPassphrase, .ok ()⟩ ∧
      v.contents K u.vaultPassphrase = some c ∧ c.mnemonic = u.mnemonic) ∨
    ∃ n, op = .installSession n ∧ n.unlocked = some u := by
  have hmap : ∀ {f : Registry → Registry}, (w.session.mapRegistry f).unlocked = some u →
      ∃ v, w.session.unlocked = some v ∧ v.mnemonic = u.mnemonic ∧
        v.vaultPassphrase = u.vaultPassphrase := by
    intro f hf
    obtain ⟨v, hv, rfl⟩ := Option.map_eq_some_iff.1 hf
    exact ⟨v, hv, rfl, rfl⟩
  cases hx
  case failedWrite => exact .inl ⟨u, hu, rfl, rfl⟩
  case tornSettings => exact .inl ⟨u, hu, rfl, rfl⟩
  case effect ha =>
      cases op with
      | createAgentAccount id label =>
          cases a with
          | error e => exact .inl ⟨u, hu, rfl, rfl⟩
          | ok account => exact .inl (hmap hu)
      | createUserAccount label =>
          cases a with
          | error e => exact .inl ⟨u, hu, rfl, rfl⟩
          | ok account => exact .inl (hmap hu)
      | rollbackAccount address => exact .inl (hmap hu)
      | unlockSession v passphrase =>
          simp only [World.effect] at hu
          obtain ⟨-, rfl⟩ := ha
          cases hopened : w.session.unlock K v passphrase with
          | ok s =>
              rw [hopened] at hu
              obtain ⟨c, hc, rfl⟩ := WalletSession.unlock_eq_ok hopened
              cases hu
              exact .inr (.inl ⟨v, c, rfl, hc, rfl⟩)
          | error e =>
              rw [hopened] at hu
              exact .inl ⟨u, hu, rfl, rfl⟩
      | lockSession => cases hu
      | installSession n => exact .inr (.inr ⟨n, rfl, hu⟩)
      | record entry => cases a <;> exact .inl ⟨u, hu, rfl, rfl⟩
      | writeTmp v => cases a <;> exact .inl ⟨u, hu, rfl, rfl⟩
      | renameTmp => cases a <;> exact .inl ⟨u, hu, rfl, rfl⟩
      | renameToBackup name => cases a <;> exact .inl ⟨u, hu, rfl, rfl⟩
      | reattach name kind => cases a <;> exact .inl ⟨u, hu, rfl, rfl⟩
      | createSettings => cases a <;> exact .inl ⟨u, hu, rfl, rfl⟩
      | writeSettings s => cases a <;> exact .inl ⟨u, hu, rfl, rfl⟩
      | _ => exact .inl ⟨u, hu, rfl, rfl⟩

/-- What is read of a lawful world is lawful. -/
theorem LawfulWorld.event (h : LawfulWorld K I w) (hx : World.Exec K w pid op a w') :
    LawfulEvent K I ⟨op, a⟩ := by
  have ha := hx.answers
  cases op with
  | session =>
      rw [show a = w.session from ha.2]
      exact h.session
  | loadVault =>
      rcases a with e | (_ | v)
      · trivial
      · trivial
      · rcases ha with ha | ⟨e, ha⟩
        · unfold World.loaded at ha
          split at ha
          · cases ha
          · rename_i v' hv
            cases ha
            exact h.vault v hv
          · cases ha
        · cases ha
  | _ => trivial

end Exec

/-! ## Whole runs -/

section Runs

variable {s s' : State} {w : World}

/-- The world is lawful, and so is what every task has read of it. -/
structure LawfulState (K : Crates) (I : String → Registry → Prop) (s : State) : Prop where
  world : LawfulWorld K I s.world
  traces : ∀ i, LawfulTrace K I (s.traceAt i)

theorem LawfulState.step (hK : K.Authentic) (law : RegistryLaw K I) (h : LawfulState K I s)
    (hsafe : s.Safe (taskRules K S) Finished) {m : Act}
    (hs : Sys.Step (service K S) s m s') : LawfulState K I s' := by
  by_cases hm : ∀ pid e, m ≠ .run pid e
  · obtain ⟨hworld, htraces⟩ := hs.of_still hm
    refine ⟨hworld ▸ h.world, fun i => ?_⟩
    rw [htraces]
    exact h.traces i
  · push Not at hm
    obtain ⟨pid, ⟨op, a⟩, rfl⟩ := hm
    obtain ⟨hx, ⟨p, next, hp, hr⟩, hself, hothers⟩ := hs.of_run
    have hop : LawfulOp K I op := by
      refine lawfulOp_of_allowed hK law (hsafe.allows hp hr) ?_
      rw [← Sys.traceAt_eq hp]
      exact h.traces pid
    refine ⟨h.world.exec law hop hx, fun i => ?_⟩
    by_cases hi : i = pid
    · rw [hi, hself]
      intro e he
      rcases List.mem_append.1 he with he | he
      · exact h.traces pid e he
      · rw [List.mem_singleton.1 he]
        exact h.world.event hx
    · rw [hothers i hi]
      exact h.traces i

/-- A law of registries holds in every state reached from a lawful start. -/
theorem lawfulState_of_reach (hK : K.Authentic) (law : RegistryLaw K I)
    {C : State → Act → Prop} (hw : LawfulWorld K I w)
    (h : Sys.Reach (service K S) (Starts w) C s) : LawfulState K I s := by
  refine h.invariant (fun s hs => ?_) fun _ _ _ hreach hlawful _ hstep =>
    hlawful.step hK law (safe_reach hreach fun _ => Starts.procs) hstep
  rw [hs]
  exact ⟨hw, fun i e he => nomatch he⟩

end Runs

/-! ## Whose accounts they are -/

/-- An account that has an owner is an agent's. -/
def OwnedByAgents (_ : String) (r : Registry) : Prop := r.OwnersAreAgents

theorem ownedByAgents_law : RegistryLaw K OwnedByAgents where
  empty _ := Registry.ownersAreAgents_empty
  add s s' u domain label owner account hd hu hc h := by
    obtain ⟨hdomain, howner, -⟩ := WalletSession.createAccount_eq_ok hc
    refine Registry.OwnersAreAgents.add h fun hne => ?_
    rw [hdomain]
    exact hd (howner ▸ hne)
  remove _ r address h := Registry.OwnersAreAgents.removeByAddress h address

end Strkd.Service
