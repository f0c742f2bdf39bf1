import Strkd.Desktop.Settings
import Strkd.Lib.Prog
import Strkd.Prover.Jobs
import Strkd.Rpc.Auth
import Strkd.Rpc.Backoff
import Strkd.Rpc.Session
import Strkd.Strk20.Remote

/-!
# The operations of the service

Everything a request handler, a desktop command or a proving task does outside its own locals is an
operation: on the shared state, on the disk, or towards the user, the node, the provers, the
paymaster and the clock.  An operation on the shared state stands for one critical section of the
code: what is done under one acquisition of a lock with no `await` inside.
-/

namespace Strkd.Rpc

open Wallet Prover

/-- What the clock is read for. -/
inductive ClockUse where
  /-- `companion_getStatus` -/
  | status
  /-- The grant of `client`, before an operation of `method`. -/
  | gate (client : PairedClient) (method : String)
  /-- The end of a new grant. -/
  | grant
  | log
  | archive
  | idle
  deriving DecidableEq, Repr

/-- A row of the request log. -/
structure LogEntry where
  tsUnixMs : U64
  method : String
  client : Option String
  network : Option String
  decision : String
  outcome : String
  errorCode : Option ℤ
  latencyMs : U64
  paramsJson : Option String
  resultJson : Option String
  deriving DecidableEq, Repr

/-- A background proving task (`enqueue_prove`). -/
structure ProveTask where
  jobId : String
  payload : Json
  label : Option String
  network : String

/-- A persisted record of a proving job. -/
structure ProofRecord where
  jobId : String
  label : Option String
  network : String
  createdAtMs : U128
  proveMs : U128
  status : String
  payload : Json
  proof : Option Json
  error : Option String

/-- A reply of an HTTP endpoint that speaks JSON-RPC: a transport failure, a body that is not JSON,
or a JSON body. -/
inductive HttpReply where
  | transport (message : String)
  | undecodable (message : String)
  | body (v : Json)

/-- Where a deposit gets proved. -/
inductive DepositProver where
  | jsonRpc (url label : String)
  | starkscan (apiKey : String)
  deriving DecidableEq, Repr

inductive Op where
  /-- `now_unix_ms` -/
  | clock (use : ClockUse)
  /-- The clock in seconds. -/
  | seconds
  /-- A reading of the monotonic clock. -/
  | instant
  /-- Time since a request arrived. -/
  | elapsed
  /-- `unix_ms` of the prover. -/
  | jobClock
  /-- Time since a proof was begun. -/
  | proveElapsed
  /-- The salt and the nonce of a seal. -/
  | entropy
  /-- The draws of `OsRandomness`. -/
  | osRandomness
  /-- A crash of the task, or a loop that never ends. -/
  | halt
  -- the client store
  | verify (token : String)
  | findId (name : String) (kind : ClientKind)
  | reattach (name : String) (kind : ClientKind)
  | pair (label : String) (kind : ClientKind)
  | grant (id : String) (untilMs : U64)
  | revokeGrant (id : String)
  | revoke (id : String)
  -- the session
  | session
  | acquireSession
  | releaseSession
  | setChain (chain : ChainId)
  | signTypedData (account : AccountRef) (typedDataJson : String)
  | signInvoke (account : AccountRef) (calls : List Call) (chain : ChainId) (p : InvokeV3Params)
  | signDeclare (account : AccountRef) (classHash compiledClassHash : Felt) (chain : ChainId)
      (p : InvokeV3Params)
  | signDeployAccount (account : AccountRef) (chain : ChainId) (p : InvokeV3Params)
  | signHash (account : AccountRef) (hash : Felt)
  | viewingKey (account : AccountRef) (chain : ChainId) (pool : Felt)
  | createAgentAccount (clientId label : String)
  | createUserAccount (label : String)
  | rollbackAccount (address : String)
  | unlockSession (vault : EncryptedVault) (passphrase : String)
  | lockSession
  | installSession (s : WalletSession)
  | reveal (vault : EncryptedVault) (passphrase : String)
  -- onboarding and the vault file
  | stageMnemonic (mnemonic : String)
  | takeMnemonic
  | loadVault
  | writeTmp (vault : EncryptedVault)
  | renameTmp
  | renameToBackup (name : String)
  | backoffCheck (now : ℕ)
  | backoffFailure (now : ℕ)
  | backoffSuccess
  -- the rest of the shared state
  | touchActivity
  | lastActivity
  /-- A read of the settings file. -/
  | readSettings
  /-- The settings file is created anew, or emptied. -/
  | createSettings
  | writeSettings (s : Desktop.Settings)
  | protectSettings
  | addWatchedAsset (asset : Json)
  | strk20Config (network : String)
  | createJob (label : Option String) (nowMs : ℕ)
  | setJobStatus (jobId : String) (status : JobStatus)
  | succeedJob (jobId : String) (result : Json)
  | failJob (jobId error : String)
  | getJob (jobId : String)
  | recentActivity
  | spawnProve (task : ProveTask)
  | saveProof (record : ProofRecord)
  /-- Insert a row into the request log; whether it was written. -/
  | record (entry : LogEntry)
  -- the world outside
  | requestApproval (request : ApprovalRequest)
  /-- Whether a node is configured for a chain. -/
  | nodeFor (chain : ChainId)
  | nodeRpc (chain : ChainId) (method : String) (params : Json)
  | prove (payload : Json) (label : Option String) (network : String)
  | remoteProve (prover : DepositProver) (chain : ChainId) (block : ℕ) (transaction : Json)
  | paymasterRpc (url apiKey method : String) (params : Json)
  | randomMnemonic (wordCount : ℕ)

@[reducible] def Ans : Op → Type
  | .clock _ => U64
  | .seconds => U64
  | .instant => ℕ
  | .elapsed => U64
  | .jobClock => U128
  | .proveElapsed => U128
  | .entropy => SealDraws
  | .osRandomness => ℕ → Except String ℕ
  | .halt => Empty
  | .verify _ => Option PairedClient
  | .findId _ _ => Option String
  | .reattach _ _ => Option (String × String)
  | .pair _ _ => String × String
  | .grant _ _ => Bool
  | .revokeGrant _ => Bool
  | .revoke _ => Bool
  | .session => WalletSession
  | .acquireSession => Unit
  | .releaseSession => Unit
  | .setChain _ => Unit
  | .signTypedData _ _ => Except WalletRpcError StarkSignature
  | .signInvoke _ _ _ _ => Except WalletRpcError SignedInvoke
  | .signDeclare _ _ _ _ _ => Except WalletRpcError SignedDeclare
  | .signDeployAccount _ _ _ => Except WalletRpcError SignedDeployAccount
  | .signHash _ _ => Except WalletRpcError (List Felt)
  | .viewingKey _ _ _ => Except WalletRpcError Felt
  | .createAgentAccount _ _ => Except WalletRpcError AccountRef
  | .createUserAccount _ => Except WalletRpcError AccountRef
  | .rollbackAccount _ => Unit
  | .unlockSession _ _ => Except CoreError Unit
  | .lockSession => Unit
  | .installSession _ => Unit
  | .reveal _ _ => Except WalletRpcError String
  | .stageMnemonic _ => Unit
  | .takeMnemonic => Option String
  | .loadVault => Except String (Option EncryptedVault)
  | .writeTmp _ => Except String Unit
  | .renameTmp => Except String Unit
  | .renameToBackup _ => Except String Unit
  | .backoffCheck _ => Option ℕ
  | .backoffFailure _ => Unit
  | .backoffSuccess => Unit
  | .touchActivity => U64
  | .lastActivity => U64
  | .readSettings => Desktop.SettingsFile
  | .createSettings => Except String Unit
  | .writeSettings _ => Except String Unit
  | .protectSettings => Except String Unit
  | .addWatchedAsset _ => Unit
  | .strk20Config _ => Strk20Config
  | .createJob _ _ => String
  | .setJobStatus _ _ => Unit
  | .succeedJob _ _ => Unit
  | .failJob _ _ => Unit
  | .getJob _ => Option Job
  | .recentActivity => List Activity
  | .spawnProve _ => Unit
  | .saveProof _ => Unit
  | .record _ => Bool
  | .requestApproval _ => Decision
  | .nodeFor _ => Bool
  | .nodeRpc _ _ _ => HttpReply
  | .prove _ _ _ => Except String Json
  | .remoteProve _ _ _ _ => Except Strk20.Remote.RemoteError Json
  | .paymasterRpc _ _ _ _ => HttpReply
  | .randomMnemonic _ => Option String

/-- A computation of the service that may end with a wallet RPC error. -/
abbrev Serve := Handler WalletRpcError Op Ans

/-- What was done so far, with the answers. -/
abbrev Trace := List (Event Op Ans)

/-- Perform an operation, in a computation that cannot fail. -/
def carryOut (op : Op) : Prog Op Ans (Ans op) := Prog.perform op

/-- Perform an operation. -/
def perform (op : Op) : Serve (Ans op) := ExceptT.lift (Prog.perform op)

/-- The `?` on the answer of an operation that can fail. -/
def propagate {ε α : Type} (r : Except ε α) : Handler ε Op Ans α := ExceptT.mk (pure r)

/-- Run a computation while holding the session lock; the guard is dropped however it ends. -/
def holdingSession {ε α : Type} (body : Handler ε Op Ans α) : Handler ε Op Ans α := do
  ExceptT.lift (carryOut .acquireSession)
  let r ← ExceptT.lift body.run
  ExceptT.lift (carryOut .releaseSession)
  propagate r

/-- `VaultStore::save`: the temporary file, then the rename. -/
def saveVault (vault : EncryptedVault) : Handler String Op Ans Unit := do
  let written ← ExceptT.lift (carryOut (.writeTmp vault))
  propagate written
  let renamed ← ExceptT.lift (carryOut .renameTmp)
  propagate renamed

/-- How a deployment of the service is set up. -/
structure Setup where
  apiVersion : String := "0.1.0"
  specVersions : List String := ["0.10.2"]
  issueRepo : String := "starknet-innovation/strkd"
  /-- Whether a prover is attached, and its kind. -/
  hasProver : Bool
  proverKind : String
  /-- Whether registry changes are written back to the vault file. -/
  hasVaultStore : Bool
  /-- The network a session set up on the desktop starts on. -/
  desktopChain : ChainId
  /-- The directory of the vault file. -/
  dataDir : String
  /-- Bound on the loops that nothing else bounds. -/
  fuel : ℕ

/-- A service without a prover, which writes nothing back. -/
def plainSetup : Setup where
  hasProver := false
  proverKind := ""
  hasVaultStore := false
  desktopChain := .sepolia
  dataDir := "/data"
  fuel := 0

end Strkd.Rpc
