import Strkd.Rpc.SeedKeys
import Strkd.Service.Prompts
import Strkd.Service.Registries

/-!
# Who a signature is from

The sessions, the vaults and what tasks have read of them hold accounts of their own seed.  A task
signs with the session it finds when it signs: as long as no other seed is opened under a task that
has read the accounts of one, what it signs is signed with the key of the account it signs for.
-/

namespace Strkd.Service

open Wallet Prover Rpc

variable {K : Crates} {S : Setup}

/-! ## Sound sessions and vaults -/

/-- Every account of a registry comes from the seed. -/
def SoundFor (K : Crates) (mnemonic : String) (r : Registry) : Prop :=
  ∀ a ∈ r.accounts, Derived K mnemonic a

def SoundSession (K : Crates) (s : WalletSession) : Prop :=
  ∀ u, s.unlocked = some u → SoundFor K u.mnemonic u.registry

def SoundVault (K : Crates) (v : EncryptedVault) : Prop :=
  ∀ passphrase contents, v.contents K passphrase = some contents →
    SoundFor K contents.mnemonic contents.registry

theorem SoundFor.add {mnemonic : String} {r : Registry} {a : AccountRef}
    (h : SoundFor K mnemonic r) (ha : Derived K mnemonic a) : SoundFor K mnemonic (r.add a) := by
  intro b hb
  rcases List.mem_append.1 hb with hb | hb
  · exact h b hb
  · rwa [List.mem_singleton.1 hb]

/-- Accounts that come from the seed stay so: a new one is derived from it. -/
theorem soundFor_law : RegistryLaw K (SoundFor K) where
  empty _ a ha := nomatch ha
  add s s' u domain label owner account _ hu hc h := by
    unfold WalletSession.createAccount at hc
    obtain ⟨b, hb, hc⟩ := except_bind_eq_ok.1 hc
    cases hc
    exact h.add (derived_of_nextAccount hu hb)
  remove _ r address h := fun b hb => h b (List.mem_filter.1 hb).1

/-- The session and the vault files are sound. -/
structure SoundWorld (K : Crates) (w : World) : Prop where
  session : SoundSession K w.session
  tmp : ∀ v, w.tmp = some (some v) → SoundVault K v
  vault : ∀ v, w.vault = some (some v) → SoundVault K v

theorem SoundWorld.lawful {w : World} (h : SoundWorld K w) : LawfulWorld K (SoundFor K) w :=
  ⟨h.session, h.tmp, h.vault⟩

/-! ## One seed at a time -/

/-- The seed that an operation has just opened the session with. -/
def opensWith (K : Crates) : Event Op Ans → Option String
  | ⟨.installSession n, _⟩ => n.unlocked.map Unlocked.mnemonic
  | ⟨.unlockSession v passphrase, .ok _⟩ => (v.contents K passphrase).map VaultContents.mnemonic
  | _ => none

/-- A task with something left to do. -/
def Unfinished (p : Proc) : Prop := ∃ op next, p.rest = some (.step op next)

/-- What a task has read of the session is of this seed. -/
def ReadOf (mnemonic : String) (tr : Trace) : Prop :=
  ∀ n u, (⟨.session, n⟩ : Event Op Ans) ∈ tr → n.unlocked = some u → u.mnemonic = mnemonic

/-- A session is opened only with the seed that the unfinished tasks have read, if they have read
one. -/
def OneSeed (K : Crates) (s : State) : Act → Prop
  | .run _ e => ∀ mnemonic, opensWith K e = some mnemonic → ∀ (i : ℕ) (p : Proc),
      s.procs[i]? = some p → Unfinished p → ReadOf mnemonic p.trace
  | _ => True

section Seeds

variable {s s' : State} {w w' : World} {pid : ℕ} {op : Op} {a : Ans op}

/-- The seed of an open session is the one before, unless it has just been opened. -/
theorem seed_of_exec (hx : World.Exec K w pid op a w') {u : Unlocked}
    (hu : w'.session.unlocked = some u) : opensWith K ⟨op, a⟩ = some u.mnemonic ∨
      ∃ v, w.session.unlocked = some v ∧ v.mnemonic = u.mnemonic := by
  rcases opened_of_exec hx hu with ⟨v, hv, hseed, -⟩ | ⟨v, c, he, hc, hseed⟩ | ⟨n, rfl, hn⟩
  · exact .inr ⟨v, hv, hseed⟩
  · refine .inl ?_
    rw [he, ← hseed]
    simp [opensWith, hc]
  · refine .inl ?_
    simp [opensWith, hn]

theorem world_of_session {n : WalletSession} (hx : World.Exec K w pid .session n w') : w' = w := by
  cases hx
  rfl

/-- While the session is open, what the unfinished tasks have read is of its seed. -/
def SeedKept (s : State) : Prop :=
  ∀ u, s.world.session.unlocked = some u → ∀ (i : ℕ) (p : Proc), s.procs[i]? = some p →
    Unfinished p → ReadOf u.mnemonic p.trace

theorem SeedKept.step (h : SeedKept s) {m : Act} (hc : OneSeed K s m)
    (hs : Sys.Step (service K S) s m s') : SeedKept s' := by
  intro u hu i q hq hunf
  have hworld : (∀ pid e, m ≠ .run pid e) → s'.world = s.world := fun hm => (hs.of_still hm).1
  -- the tasks that were there before the step have read the seed that is open after it
  have hbefore : ∀ (i : ℕ) (p : Proc), s.procs[i]? = some p → Unfinished p →
      ReadOf u.mnemonic p.trace := by
    intro j p hp hunf
    by_cases hm : ∀ pid e, m ≠ .run pid e
    · rw [hworld hm] at hu
      exact h u hu j p hp hunf
    · push Not at hm
      obtain ⟨pid, ⟨op, a⟩, rfl⟩ := hm
      rcases seed_of_exec hs.of_run.1 hu with hopen | ⟨v, hv, heq⟩
      · exact hc u.mnemonic hopen j p hp hunf
      · rw [← heq]
        exact h v hv j p hp hunf
  rcases hs.process hq with hq | ⟨p, op, next, a, hp, hr, rfl, hx, rfl⟩ | ⟨p, -, -, rfl⟩ |
    ⟨-, task, rfl⟩
  · exact hbefore i q hq hunf
  · intro n v hmem hv
    rcases List.mem_append.1 hmem with hmem | hmem
    · exact hbefore i p hp ⟨op, next, hr⟩ n v hmem hv
    · cases List.mem_singleton.1 hmem
      -- the session just read is the one that is open
      have hn : n = s.world.session := hx.answers.2
      rw [world_of_session hx, ← hn, hv] at hu
      rw [Option.some.inj hu]
  · obtain ⟨op, next, hr⟩ := hunf
    cases hr
  · intro n v hmem
    cases hmem

theorem seedKept_of_reach (h : Sys.Reach (service K S) (Starts w) (OneSeed K) s) : SeedKept s := by
  refine h.invariant (fun s hs => ?_) fun _ _ _ _ hkept hc hstep => hkept.step hc hstep
  rw [hs]
  intro u _ i p hp
  cases hp

end Seeds

/-! ## Whose key signs -/

section Signing

variable {s s' : State} {w w' : World} {pid : ℕ} {op : Op} {a : Ans op} {account : AccountRef}

/-- An account that a task may sign for comes from the seed of a session it has read. -/
theorem derived_of_permitted {method : String} {tr : Trace} (h : Permitted K method tr op)
    (htr : LawfulTrace K (SoundFor K) tr) (ha : signerOf ⟨op, a⟩ = some account) :
    ∃ n u, (⟨.session, n⟩ : Event Op Ans) ∈ tr ∧ n.unlocked = some u ∧
      Derived K u.mnemonic account := by
  have hscope : ∀ {c : PairedClient}, InScope tr c account →
      ∃ n u, (⟨.session, n⟩ : Event Op Ans) ∈ tr ∧ n.unlocked = some u ∧
        Derived K u.mnemonic account := by
    rintro c ⟨n, u, hn, hu, hmem⟩
    refine ⟨n, u, hn, hu, htr ⟨.session, n⟩ hn u hu account ?_⟩
    cases hc : c.scope with
    | none =>
        rw [hc] at hmem
        exact (Registry.mem_scopedFor_none.1 hmem).1
    | some id =>
        rw [hc] at hmem
        exact (Registry.mem_scopedFor_some.1 hmem).1
  cases op with
  | signTypedData b document =>
      cases a with
      | error e => cases ha
      | ok sig =>
          cases ha
          obtain ⟨c, -, hin⟩ := h
          exact hscope hin
  | signInvoke b calls chain p =>
      cases a with
      | error e => cases ha
      | ok signed =>
          cases ha
          obtain ⟨c, -, hin | ⟨-, hfunds⟩⟩ := h
          · exact hscope hin
          · obtain ⟨-, -, ⟨n, i, hn, hmanager⟩, -⟩ := hfunds
            obtain ⟨u, hu, hderived⟩ := derived_of_managerAccount hmanager
            exact ⟨n, u, hn, hu, hderived⟩
  | signDeclare b classHash compiled chain p =>
      cases a with
      | error e => cases ha
      | ok signed =>
          cases ha
          obtain ⟨c, -, hin⟩ := h
          exact hscope hin
  | signDeployAccount b chain p =>
      cases a with
      | error e => cases ha
      | ok signed =>
          cases ha
          obtain ⟨c, -, hin⟩ := h
          exact hscope hin
  | signHash b hash =>
      cases a with
      | error e => cases ha
      | ok sig =>
          cases ha
          obtain ⟨c, -, hin⟩ := h
          exact hscope hin
  | _ => cases ha

/-- A signature is made with the key that the open session's seed has for the account. -/
theorem madeWith_of_exec (hx : World.Exec K w pid op a w') (ha : signerOf ⟨op, a⟩ = some account) :
    ∃ u sk, w.session.unlocked = some u ∧
      privateKey K u.mnemonic account.domain account.index = .ok sk ∧ MadeWith K sk ⟨op, a⟩ := by
  have hanswer := hx.answers
  cases op with
  | signTypedData b document =>
      cases a with
      | error e => cases ha
      | ok sig =>
          cases ha
          exact WalletSession.madeWith_signTypedData hanswer.2.symm
  | signInvoke b calls chain p =>
      cases a with
      | error e => cases ha
      | ok signed =>
          cases ha
          exact WalletSession.madeWith_signInvoke hanswer.2.symm
  | signDeclare b classHash compiled chain p =>
      cases a with
      | error e => cases ha
      | ok signed =>
          cases ha
          exact WalletSession.madeWith_signDeclare hanswer.2.symm
  | signDeployAccount b chain p =>
      cases a with
      | error e => cases ha
      | ok signed =>
          cases ha
          exact WalletSession.madeWith_signDeployAccount hanswer.2.symm
  | signHash b hash =>
      cases a with
      | error e => cases ha
      | ok sig =>
          cases ha
          exact WalletSession.madeWith_signHash hanswer.2.symm
  | _ => cases ha

/-- What a request has just signed for `account` was signed by an open session, with the private key
the address of `account` was derived from. -/
def SignedByOwner (K : Crates) (s : State) (account : AccountRef) (e : Event Op Ans) : Prop :=
  s.world.session.isLocked = false ∧ ∃ sk, KeyOf K account sk ∧ MadeWith K sk e

theorem signedByOwner_of_reach (hK : K.Authentic) (hw : SoundWorld K w)
    (h : Sys.Reach (service K S) (Starts w) (OneSeed K) s) {token : Option String} {req : Request}
    {p : Proc} (hp : s.procs[pid]? = some p) (ht : p.task = .request token req) (hs : Sys.Step (service K S) s (.run pid ⟨op, a⟩) s')
    (ha : signerOf ⟨op, a⟩ = some account) : SignedByOwner K s account ⟨op, a⟩ := by
  obtain ⟨hx, ⟨p', next, hp', hr⟩, -⟩ := hs.of_run
  obtain rfl : p = p' := Option.some.inj (hp.symm.trans hp')
  have hallowed := (safe_reach h fun _ => Starts.procs).allows hp hr
  rw [ht] at hallowed
  have htrace : LawfulTrace K (SoundFor K) p.trace := by
    rw [← Sys.traceAt_eq hp]
    exact (lawfulState_of_reach hK soundFor_law hw.lawful h).traces pid
  obtain ⟨n, u, hn, hu, hderived⟩ := derived_of_permitted hallowed htrace ha
  obtain ⟨v, sk, hv, hsk, hmade⟩ := madeWith_of_exec hx ha
  have hseed : u.mnemonic = v.mnemonic :=
    seedKept_of_reach h v hv pid p hp ⟨op, next, hr⟩ n u hn hu
  refine ⟨?_, sk, ?_, hmade⟩
  · rw [WalletSession.isLocked, hv]
    rfl
  · rw [hseed] at hderived
    exact hderived.keyOf hsk

/-- In every run that opens one seed at a time, every signature of a request is made by an open
session with the key of the account it is for. -/
theorem signed_by_owner (hK : K.Authentic) (hw : SoundWorld K w)
    (h : Sys.Reach (service K S) (Starts w) (OneSeed K) s) {token : Option String} {req : Request}
    {p : Proc} (hp : s.procs[pid]? = some p) (ht : p.task = .request token req) (hs : Sys.Step (service K S) s (.run pid ⟨op, a⟩) s')
    (ha : signerOf ⟨op, a⟩ = some account) : SignedByOwner K s account ⟨op, a⟩ :=
  signedByOwner_of_reach hK hw h hp ht hs ha

/-- A request opens no session. -/
theorem oneSeed_of_request (h : Sys.Reach (service K S) (Starts w) (OneSeed K) s)
    {token : Option String} {req : Request} {p : Proc} {next : Ans op → Prog Op Ans Reply}
    (hp : s.procs[pid]? = some p) (ht : p.task = .request token req)
    (hr : p.rest = some (.step op next)) : OneSeed K s (.run pid ⟨op, a⟩) := by
  have hallowed := (safe_reach h fun _ => Starts.procs).allows hp hr
  rw [ht] at hallowed
  have hallowed : Permitted K req.method p.trace op := hallowed
  cases op with
  | unlockSession v passphrase => exact hallowed.elim
  | installSession n => exact hallowed.elim
  | _ => exact fun _ hopen => nomatch hopen

end Signing

/-! ## A set-up during a request -/

/-- Crates that derive another key from every length of seed. -/
def seedCrates : Crates := { plainCrates with
  derivePrivateKey := fun mnemonic addressIndex accountIndex _ =>
    some (.ofNat (2 ^ 64 * mnemonic.length + 2 ^ 32 * accountIndex.toNat + addressIndex.toNat)) }

theorem authentic_seedCrates : seedCrates.Authentic := plainCrates_authentic

/-- The first agent account of the seed. -/
def seedAccount : AccountRef := { plainAccount with
  address := addressHex (.ofNat (2 ^ 64 * "test".length + 2 ^ 32 * agentAccountIndex.toNat)) }

theorem derived_seedAccount : Derived seedCrates "test" seedAccount :=
  ⟨.sepolia, _, rfl, by decide +kernel⟩

def seedWorld : World where
  session := .newUnlocked .sepolia "test" "pass" ⟨[seedAccount]⟩
  clients := [{ plainClient with tokenHash := "t" }]

theorem soundWorld_seedWorld : SoundWorld seedCrates seedWorld := by
  refine ⟨fun u hu a ha => ?_, fun v hv => (nomatch hv), fun v hv => (nomatch hv)⟩
  cases hu
  rw [List.mem_singleton.1 ha]
  exact derived_seedAccount

def seedRequest : Request := { typedDataRequest "order 1" with
  params := .obj [("account_address", .str seedAccount.address), ("typed_data", .str "order 1")] }

/-- The user approves, and the disk takes what it is given. -/
def obliging : (op : Op) → Option (Ans op)
  | .touchActivity | .clock _ | .elapsed => some 0
  | .requestApproval _ => some .approve
  | .entropy => some plainDraws
  | .writeTmp _ => some (.ok ())
  | _ => none

/-- A request, and the set-up of another wallet. -/
def seedTasks : List Task := [.request (some "t") seedRequest, .command (.importMnemonic "another"),
  .command (.finalizeSetup "new")]

/-- The request up to its signature, with the set-up between the approval and the signature. -/
def seedPlay : Option (List Act × State) :=
  Sys.play (service seedCrates plainSetup) (answering seedCrates obliging)
    ⟨seedWorld, seedTasks.map (service seedCrates plainSetup).fresh⟩ [0, 0, 0, 0, 0, 1, 2, 2, 2, 2, 2]

/-- Whether the first process is about to sign, and what it would be given. -/
def seedSignature (s : State) : Option StarkSignature :=
  match (s.procs[0]? : Option Proc) with
  | some ⟨.request (some "t") _, _, some (.step (.signTypedData a document) _)⟩ =>
      if a = seedAccount ∧ document = "order 1" ∧ s.world.holder = none then
        (s.world.session.signTypedDataFor seedCrates a document).toOption
      else none
  | _ => none

theorem toOption_eq_some {ε α : Type} {x : Except ε α} {a : α} (h : x.toOption = some a) :
    x = .ok a := by
  cases x with
  | error e => cases h
  | ok b => rw [← Option.some.inj h]

theorem otherSeed_signs : ∃ (s s' : State) (p : Proc) (sig : StarkSignature),
    Sys.Reach (service seedCrates plainSetup) (Starts seedWorld) (fun _ _ => True) s ∧
      s.procs[0]? = some p ∧ (∃ req, p.task = .request (some "t") req) ∧
      Sys.Step (service seedCrates plainSetup) s
        (.run 0 ⟨.signTypedData seedAccount "order 1", .ok sig⟩) s' ∧
      ¬ SignedByOwner seedCrates s seedAccount ⟨.signTypedData seedAccount "order 1", .ok sig⟩ := by
  have hplay : (seedPlay.bind fun r => (seedSignature r.2).map StarkSignature.publicKey) =
      some (.ofNat (2 ^ 64 * "another".length + 2 ^ 32 * agentAccountIndex.toNat)) := by
    decide +kernel
  obtain ⟨⟨moves, s⟩, h, hsigned⟩ := Option.bind_eq_some_iff.1 hplay
  obtain ⟨sig, hsig, hkey⟩ := Option.map_eq_some_iff.1 hsigned
  have hreach := reach_tasks (C := fun _ _ => True) (fun _ _ => trivial) (fun _ _ _ _ _ => trivial)
    (fun task ht => by
      simp only [seedTasks, List.mem_cons, List.not_mem_nil, or_false] at ht
      rcases ht with rfl | rfl | rfl <;> trivial) h
  unfold seedSignature at hsig
  split at hsig
  · rename_i req tr a document next hp
    split at hsig
    · rename_i hatSign
      obtain ⟨rfl, rfl, hfree⟩ := hatSign
      have hanswer := toOption_eq_some hsig
      refine ⟨s, _, _, sig, hreach, hp, ⟨req, rfl⟩, .run s 0 _ _ next _ _ hp rfl
        (.effect s.world 0 _ _ ⟨.inl hfree, hanswer.symm⟩), ?_⟩
      rintro ⟨-, sk, ⟨pk, chain, d, hpk, hd, haddress⟩, address, hash, -, -, hraw⟩
      cases hpk
      cases hd
      cases hraw
      have hkey : sk = _ := hkey
      rw [hkey] at haddress
      exact absurd haddress (by decide +kernel)
    · cases hsig
  · cases hsig

/-- A wallet is set up from another seed while a request waits, and what the request then signs for
its account is signed with another key. -/
theorem signed_by_other : ∃ (s s' : State) (p : Proc) (sig : StarkSignature),
    Sys.Reach (service seedCrates plainSetup) (Starts seedWorld) (fun _ _ => True) s ∧
      s.procs[0]? = some p ∧ (∃ req, p.task = .request (some "t") req) ∧
      Sys.Step (service seedCrates plainSetup) s
        (.run 0 ⟨.signTypedData seedAccount "order 1", .ok sig⟩) s' ∧
      ¬ SignedByOwner seedCrates s seedAccount ⟨.signTypedData seedAccount "order 1", .ok sig⟩ :=
  otherSeed_signs

/-- Left alone, the request comes to its signature. -/
theorem reach_alone : ∃ (s : State) (sig : StarkSignature),
    Sys.Reach (service seedCrates plainSetup) (Starts seedWorld) (OneSeed seedCrates) s ∧
      seedSignature s = some sig := by
  let M := service seedCrates plainSetup
  let lone : Task := .request (some "t") seedRequest
  have hplay : ((Sys.play M (answering seedCrates obliging) ⟨seedWorld, [lone].map M.fresh⟩
      [0, 0, 0, 0, 0]).bind fun r => (seedSignature r.2).map StarkSignature.publicKey) =
      some (.ofNat (2 ^ 64 * "test".length + 2 ^ 32 * agentAccountIndex.toNat)) := by
    decide +kernel
  obtain ⟨⟨moves, s⟩, h, hsigned⟩ := Option.bind_eq_some_iff.1 hplay
  obtain ⟨sig, hsig, -⟩ := Option.map_eq_some_iff.1 hsigned
  have hbegin : Starts seedWorld ⟨seedWorld, []⟩ := rfl
  have hext : ∀ task ∈ [lone], M.external task := by
    intro task ht
    rw [List.mem_singleton.1 ht]
    trivial
  have hstart : Sys.Reach M (Starts seedWorld) (OneSeed seedCrates) ⟨seedWorld, [lone].map M.fresh⟩ :=
    .arrivals hbegin (fun _ _ => trivial) hext
  let Alone (s : State) : Prop := Sys.Reach M (Starts seedWorld) (OneSeed seedCrates) s ∧
    ∀ p : Proc, s.procs[0]? = some p → p.task = lone
  have hstep : ∀ (before : List Act) (s s' : State) (pid : ℕ) (op : Op) (a : Ans op),
      pid ∈ [0, 0, 0, 0, 0] → Alone s → Sys.Step M s (.run pid ⟨op, a⟩) s' →
      answering seedCrates obliging s.world pid op = some (a, s'.world) → Alone s' := by
    rintro before s s' pid op a hpid ⟨hreach, htask⟩ hs -
    obtain ⟨-, ⟨p, next, hp, hr⟩, -⟩ := hs.of_run
    have hpid : pid = 0 := by simpa using hpid
    subst hpid
    refine ⟨.step _ hreach (oneSeed_of_request hreach hp (htask p hp) hr) hs, fun q hq => ?_⟩
    rcases hs.process hq with hq | ⟨p, op, next, a, hp, -, -, -, rfl⟩ | ⟨p, -, hm, -⟩ | ⟨hnew, -⟩
    · exact htask q hq
    · exact htask p hp
    · cases hm
    · rw [List.getElem?_eq_none hnew] at hp
      cases hp
  have halone : Alone ⟨seedWorld, [lone].map M.fresh⟩ :=
    ⟨hstart, fun p hp => by rw [← Option.some.inj hp]; rfl⟩
  obtain ⟨hreach, -⟩ := Sys.play_induction (P := fun _ => Alone) exec_answering hstep h [] halone
  exact ⟨s, sig, hreach, hsig⟩

/-- Left alone, the request is signed with the key of its account. -/
theorem signed_by_owner_alone : ∃ (s : State) (sig : StarkSignature),
    SignedByOwner seedCrates s seedAccount ⟨.signTypedData seedAccount "order 1", .ok sig⟩ := by
  obtain ⟨s, sig, hreach, hsig⟩ := reach_alone
  unfold seedSignature at hsig
  split at hsig
  · rename_i req tr a document next hp
    split at hsig
    · rename_i hatSign
      obtain ⟨rfl, rfl, hfree⟩ := hatSign
      have hanswer := toOption_eq_some hsig
      exact ⟨s, sig, signed_by_owner authentic_seedCrates soundWorld_seedWorld hreach hp rfl
        (.run s 0 _ _ next _ _ hp rfl (.effect s.world 0 _ _ ⟨.inl hfree, hanswer.symm⟩)) rfl⟩
    · cases hsig
  · cases hsig

end Strkd.Service
