import Strkd.Desktop.Commands
import Strkd.Lib.System

/-!
# The shared state of the wallet

Everything the requests, the desktop commands and the background tasks share, with the answer and
the effect of each operation on it.  What lies outside (the user, the nodes, the provers, the
relay, the clocks, the disk's failures) answers as it likes.
-/

namespace Strkd.Service

open Wallet Prover Rpc

/-- A file at the place of a vault; `none` is one that does not parse as a vault. -/
abbrev VaultFile := Option EncryptedVault

structure World where
  session : WalletSession
  /-- The process that holds the session lock across operations. -/
  holder : Option ℕ := none
  /-- The mnemonic staged by the onboarding. -/
  onboarding : Option String := none
  clients : ClientStore := []
  watched : List Json := []
  log : List LogEntry := []
  fullPayloads : Bool := true
  jobs : Jobs := {}
  proofs : List ProofRecord := []
  backoff : PassphraseBackoff := {}
  lastActivity : U64 := 0
  /-- `config.json` -/
  settings : Desktop.SettingsFile := none
  /-- The latest reading of the monotonic clock. -/
  instant : ℕ := 0
  /-- `vault.tmp` -/
  tmp : Option VaultFile := none
  /-- `vault.bin` -/
  vault : Option VaultFile := none
  /-- The vaults moved aside, by file name. -/
  backups : List (String × VaultFile) := []

namespace World

variable (K : Crates) (w : World) (pid : ℕ)

/-- Whether the session lock can be taken by a process that does not wait. -/
def free : Prop := w.holder = none ∨ w.holder = some pid

instance : Decidable (w.free pid) := inferInstanceAs (Decidable (_ ∨ _))

/-- The shape of a client id: `client-` and 8 random bytes in hexadecimal. -/
def IsClientId (id : String) : Prop := ∃ n < 2 ^ 64, id = "client-" ++ hexPadded 16 n

/-- The shape of a bearer token: 32 random bytes in hexadecimal. -/
def IsToken (token : String) : Prop := ∃ n < 2 ^ 256, token = hexPadded 64 n

/-- The row `RequestLog::record` inserts, after the redaction. -/
def recorded (entry : LogEntry) : LogEntry :=
  if w.fullPayloads then entry else { entry with paramsJson := none, resultJson := none }

/-- `VaultStore::load` when the read goes well: a file that does not parse is an error. -/
def loaded : Except String (Option EncryptedVault) :=
  match w.vault with
  | none => .ok none
  | some (some v) => .ok (some v)
  | some none => .error "vault parse failed"

/-! ## Answers -/

/-- The answers an operation of process `pid` can get. -/
def Answers : (op : Op) → Ans op → Prop
  | .verify token, a => a = w.clients.verify K token
  | .findId name kind, a => a = w.clients.findId name kind
  | .reattach name kind, a =>
      match a with
      | some (id, token) => w.clients.findId name kind = some id ∧ IsToken token
      | none => w.clients.findId name kind = none
  | .pair _ _, (id, token) => IsClientId id ∧ IsToken token
  | .grant id _, a | .revokeGrant id, a | .revoke id, a => a = w.clients.has id
  | .session, a => w.free pid ∧ a = w.session
  | .acquireSession, _ => w.holder = none
  | .releaseSession, _ => w.holder = some pid
  | .setChain _, _ | .rollbackAccount _, _ | .lockSession, _ | .installSession _, _ => w.free pid
  | .signTypedData account doc, a => w.free pid ∧ a = w.session.signTypedDataFor K account doc
  | .signInvoke account calls chain p, a =>
      w.free pid ∧ a = w.session.signInvokeFor K account calls chain p
  | .signDeclare account classHash compiled chain p, a =>
      w.free pid ∧ a = w.session.signDeclareFor K account classHash compiled chain p
  | .signDeployAccount account chain p, a =>
      w.free pid ∧ a = w.session.signDeployAccountFor K account chain p
  | .signHash account hash, a => w.free pid ∧ a = w.session.signHashFor K account hash
  | .viewingKey account chain pool, a =>
      w.free pid ∧ a = w.session.strk20ViewingKeyFor K account chain pool
  | .createAgentAccount id label, a =>
      w.free pid ∧ a = (w.session.createAgentAccount K id label).map Prod.fst
  | .createUserAccount label, a =>
      w.free pid ∧ a = (w.session.createUserAccount K label).map Prod.fst
  | .unlockSession vault passphrase, a =>
      w.free pid ∧ a = (w.session.unlock K vault passphrase).map fun _ => ()
  | .reveal vault passphrase, a =>
      w.free pid ∧ a = w.session.revealForSession K vault passphrase
  | .takeMnemonic, a => a = w.onboarding
  | .loadVault, a => a = w.loaded ∨ ∃ e, a = .error e
  | .renameTmp, a => a = .ok () → w.tmp ≠ none
  | .renameToBackup _, a => a = .ok () → w.vault ≠ none
  | .instant, a => w.instant ≤ a
  | .backoffCheck now, a => a = w.backoff.check now
  | .lastActivity, a => a = w.lastActivity
  | .readSettings, a => a = w.settings ∨ a = none
  | .createJob label now, a => a = (w.jobs.create label now).1
  | .getJob id, a => a = w.jobs.get id
  | .recentActivity, a => a = w.jobs.recentActivity
  | _, _ => True

/-! ## Effects -/

/-- The session with a new account, if one was created. -/
def withAccount : Except WalletRpcError AccountRef → World
  | .ok account => { w with session := w.session.mapRegistry fun r => r.add account }
  | .error _ => w

/-- The world after an operation of process `pid` and its answer. -/
def effect : (op : Op) → Ans op → World
  | .reattach name kind, some (_, token) =>
      { w with clients := w.clients.reattach K name kind token }
  | .pair label kind, (id, token) => { w with clients := w.clients.pair K label kind id token }
  | .grant id untilMs, _ => { w with clients := w.clients.grant id untilMs }
  | .revokeGrant id, _ => { w with clients := w.clients.revokeGrant id }
  | .revoke id, _ => { w with clients := w.clients.revoke id }
  | .acquireSession, _ => { w with holder := some pid }
  | .releaseSession, _ => { w with holder := none }
  | .setChain chain, _ => { w with session := w.session.setChain chain }
  | .createAgentAccount _ _, a => w.withAccount a
  | .createUserAccount _, a => w.withAccount a
  | .rollbackAccount address, _ => { w with session := w.session.rollbackAccount address }
  | .unlockSession vault passphrase, _ =>
      match w.session.unlock K vault passphrase with
      | .ok s => { w with session := s }
      | .error _ => w
  | .lockSession, _ => { w with session := w.session.lock }
  | .installSession s, _ => { w with session := s }
  | .stageMnemonic m, _ => { w with onboarding := some m }
  | .takeMnemonic, _ => { w with onboarding := none }
  | .writeTmp vault, .ok () => { w with tmp := some (some vault) }
  | .renameTmp, .ok () => { w with vault := w.tmp, tmp := none }
  | .renameToBackup name, .ok () =>
      { w with
        vault := none
        backups := (w.vault.map fun f => (name, f)).toList ++
          w.backups.filter fun b => b.1 ≠ name }
  | .backoffFailure now, _ => { w with backoff := w.backoff.recordFailure now }
  | .backoffSuccess, _ => { w with backoff := .recordSuccess }
  | .touchActivity, now => { w with lastActivity := now }
  | .createSettings, .ok () => { w with settings := some none }
  | .writeSettings s, .ok () => { w with settings := some (some s) }
  | .instant, now => { w with instant := now }
  | .addWatchedAsset asset, _ => { w with watched := w.watched ++ [asset] }
  | .createJob label now, _ => { w with jobs := (w.jobs.create label now).2 }
  | .setJobStatus id status, _ => { w with jobs := w.jobs.setStatus id status }
  | .succeedJob id result, _ => { w with jobs := w.jobs.succeed id result }
  | .failJob id error, _ => { w with jobs := w.jobs.fail id error }
  | .saveProof rec', _ => { w with proofs := w.proofs ++ [rec'] }
  | .record entry, true => { w with log := w.log ++ [w.recorded entry] }
  | _, _ => w

/-- What an operation of process `pid` does: it gets a possible answer and has its effect.  A failed
write leaves the temporary file as it was, unreadable or complete.  Settings whose write fails, or
that are written over a file somebody else has filled meanwhile, may not parse. -/
inductive Exec : World → ℕ → (op : Op) → Ans op → World → Prop
  | effect (w : World) (pid : ℕ) (op : Op) (a : Ans op) (h : w.Answers K pid op a) :
      Exec w pid op a (w.effect K pid op a)
  | failedWrite (w : World) (pid : ℕ) (vault : EncryptedVault) (e : String)
      (left : Option VaultFile) (h : left ∈ [w.tmp, some none, some (some vault)]) :
      Exec w pid (.writeTmp vault) (.error e) { w with tmp := left }
  | tornSettings (w : World) (pid : ℕ) (s : Desktop.Settings) (a : Ans (.writeSettings s))
      (h : a ≠ .ok () ∨ w.settings ≠ some none) :
      Exec w pid (.writeSettings s) a { w with settings := some none }

variable {K w pid}

theorem Exec.answers {op : Op} {a : Ans op} {w' : World} (h : Exec K w pid op a w') :
    w.Answers K pid op a := by
  cases h
  case effect h => exact h
  case failedWrite => trivial
  case tornSettings => trivial

end World

/-! ## Tasks -/

/-- A command of the desktop window, or its auto-lock task. -/
inductive UiCommand where
  | generate (wordCount : ℕ)
  | importMnemonic (phrase : String)
  | finalizeSetup (passphrase : String)
  | unlock (passphrase : String)
  | archiveUnsupportedVault
  | lock
  | setNetwork (network : String)
  | revealSeed (passphrase : String)
  | addUserAccount (label : String)
  | deployAccount (address : String)
  | strk20Balances (address : String) (tokens : List String)
  | strk20Register (address : String)
  | strk20Invoke (address : String) (actions : Json)
  | strk20Prepare (address : String) (actions : Json)
  | grantPermission (clientId : String) (days : ℕ)
  | revokePermission (clientId : String)
  | revoke (clientId : String)
  | setSettings (s : Desktop.Settings)
  | autoLockTick

inductive Task where
  /-- A request with its bearer token. -/
  | request (token : Option String) (req : Request)
  | command (c : UiCommand)
  /-- A proving task left behind by a request. -/
  | proving (task : ProveTask)

/-- What a task answers to whoever started it. -/
inductive Reply where
  | response (r : Response)
  | window (r : Except String Json)
  | none

variable (K : Crates) (S : Setup)

def UiCommand.run : UiCommand → Desktop.Command Json
  | generate wordCount => Desktop.generate wordCount
  | importMnemonic phrase => Desktop.importMnemonic K phrase
  | finalizeSetup passphrase => Desktop.finalizeSetup K S passphrase
  | unlock passphrase => Desktop.unlock passphrase
  | archiveUnsupportedVault => Desktop.archiveUnsupportedVault S
  | lock => Desktop.lock
  | setNetwork network => Desktop.setNetwork K network
  | revealSeed passphrase => Desktop.revealSeed passphrase
  | addUserAccount label => Desktop.addUserAccount K label
  | deployAccount address => Desktop.deployAccount K address
  | strk20Balances address tokens => Desktop.strk20Balances K S address tokens
  | strk20Register address => Desktop.strk20Register K S address
  | strk20Invoke address actions => Desktop.strk20Invoke K S address actions
  | strk20Prepare address actions => Desktop.strk20Prepare K S address actions
  | grantPermission clientId days => Desktop.grantPermission clientId days
  | revokePermission clientId => Desktop.revokePermission clientId
  | revoke clientId => Desktop.revoke clientId
  | setSettings s => Desktop.setSettings s
  | autoLockTick => Desktop.autoLockTick

def Task.start : Task → Prog Op Ans Reply
  | request token req => do
      let r ← dispatch K S token req
      return .response r
  | command c => do
      let r ← (c.run K S).run
      return .window r
  | proving task => do
      proveInBackground task
      return .none

/-- The proving task an operation leaves behind. -/
def spawns : Op → Option Task
  | .spawnProve task => some (.proving task)
  | _ => none

/-- Operations a task may be waiting at: the rest follow the one before without a pause. -/
def awaits : Op → Bool
  | .clock _ | .seconds | .instant | .elapsed | .jobClock | .proveElapsed | .entropy | .osRandomness
  | .nodeFor _ | .writeTmp _ | .renameTmp | .renameToBackup _ | .releaseSession => false
  | _ => true

/-- A request whose client goes away is dropped where it waits. -/
def drops (w : World) (pid : ℕ) : Task → Op → Prop
  | .request _ _, op => awaits op = true ∧ w.holder ≠ some pid
  | _, _ => False

/-- Requests and commands come from outside, proving tasks from requests. -/
def external : Task → Prop
  | .proving _ => False
  | _ => True

/-- The service with the desktop app around it. -/
def service : Machine Op Ans World Task Reply where
  external
  start := Task.start K S
  exec := World.Exec K
  spawns
  drops

abbrev State := Sys Op Ans World Task Reply

abbrev Proc := Process Op Ans Task Reply

abbrev Act := Move Op Ans Task

end Strkd.Service
