import Strkd.Rpc.Dispatch

/-!
# The desktop commands

The IPC commands of the desktop app that touch what the service shares with it: onboarding, the
vault file, the session, the accounts, the grants and the STRK20 panel, with the auto-lock task.
-/

namespace Strkd.Desktop

open Wallet Prover Rpc

/-- A desktop command: its error is a text for the window. -/
abbrev Command := Handler String Op Ans

def act (op : Op) : Command (Ans op) := ExceptT.lift (carryOut op)

variable (K : Crates) (S : Setup)

/-- Record a user-initiated action in the request log. -/
def logUiAction (method network outcome : String) (errorCode : Option ℤ)
    (resultJson : Option String) : Command Unit := do
  let now ← act (.clock .log)
  let _ ← act (.record {
    tsUnixMs := now
    method
    client := some "desktop (you)"
    network := some network
    decision := "user"
    outcome
    errorCode
    latencyMs := 0
    paramsJson := none
    resultJson })
  return ()

/-- Log a failed action and return its error. -/
def failUi {α : Type} (method network : String) (code : ℤ) (message : String) : Command α := do
  logUiAction method network ("error: " ++ message) (some code) none
  throw message

/-- The error of an RPC-layer computation as its text. -/
def orMessage {α : Type} (m : Serve α) : Command α := mapErr WalletRpcError.message m

/-! ## Onboarding and the vault -/

/-- Generate a fresh mnemonic and stage it. -/
def generate (wordCount : ℕ) : Command Json := do
  match ← act (.randomMnemonic wordCount) with
  | some m => do
      act (.stageMnemonic m)
      return .str m
  | none => throw CoreError.derivation.display

/-- Stage an imported mnemonic. -/
def importMnemonic (phrase : String) : Command Json := do
  if K.validateMnemonic phrase = false then throw "invalid mnemonic"
  act (.stageMnemonic phrase)
  return .null

/-- Encrypt the staged mnemonic, write the vault and enter the unlocked state. -/
def finalizeSetup (passphrase : String) : Command Json := do
  let some mnemonic ← act .takeMnemonic | throw "no mnemonic staged; generate or import first"
  let session := WalletSession.newUnlocked S.desktopChain mnemonic passphrase .empty
  let draws ← act .entropy
  let vault ← orMessage (propagate (session.reseal K draws))
  saveVault vault
  act (.installSession session)
  return .null

/-- The vault file, which has to be there. -/
def loadVault (missing : String) : Command EncryptedVault := do
  let loaded ← act .loadVault
  match ← propagate loaded with
  | some vault => return vault
  | none => throw missing

/-- Count what a guess at the passphrase says about who is guessing. -/
def countGuess : Except CoreError Unit → Command Unit
  | .ok () => act .backoffSuccess
  | .error (.unsupportedVaultVersion _) => return ()
  | .error _ => do
      let now ← act .instant
      act (.backoffFailure now)

def unlockError : CoreError → String
  | .unsupportedVaultVersion found =>
      "this vault is version " ++ toString found.toNat ++ "; this build of strkd uses version " ++
      toString vaultVersion.toNat ++ ". Your vault is not damaged and your passphrase is not wrong — " ++
      "this version changed how accounts are derived, so old vaults are deliberately not opened. " ++
      "Start over from your recovery phrase; the old vault file is kept as a backup."
  | _ => "incorrect passphrase"

def tooManyGuesses (wait : ℕ) : String :=
  "too many wrong passphrases — try again in " ++ toString (max (wait / 10 ^ 9) 1) ++ "s"

/-- Unlock the vault on disk. -/
def unlock (passphrase : String) : Command Json := do
  let now ← act .instant
  match ← act (.backoffCheck now) with
  | some wait => throw (tooManyGuesses wait)
  | none => do
      let vault ← loadVault "no vault file"
      holdingSession do
        let opened ← act (.unlockSession vault passphrase)
        countGuess opened
        propagate (opened.mapError unlockError)
      let _ ← act .touchActivity
      return .null

/-- The file name a vault is moved aside to. -/
def backupName (version : U8) (stamp : U64) : String :=
  "vault.bin.v" ++ toString version.toNat ++ "." ++ toString stamp.toNat ++ ".bak"

/-- Move an unopenable vault aside, next to where it was; a vault this build can open is refused. -/
def archiveUnsupportedVault : Command Json := do
  let vault ← loadVault "no vault file to archive"
  if vault.isSupportedVersion then
    throw "this vault is readable by this build; refusing to move it aside"
  let stamp ← act (.clock .archive)
  let backup := backupName vault.version stamp
  let renamed ← act (.renameToBackup backup)
  propagate (renamed.mapError ("could not move the vault aside: " ++ ·))
  let place := S.dataDir ++ "/" ++ backup
  logUiAction "ui_archiveVault" (chainName S.desktopChain) "ok" none
    (some ("\x7b\"backup\":\"" ++ place ++ "\"\x7d"))
  return .str place

/-- Re-lock the wallet. -/
def lock : Command Json := do
  act .lockSession
  return .null

/-- Set the active network. -/
def setNetwork (network : String) : Command Json := do
  let name := K.toLowercase network
  if name = "mainnet" ∨ name = "sn_main" then act (.setChain .mainnet)
  else if name = "testnet" ∨ name = "sepolia" ∨ name = "sn_sepolia" then act (.setChain .sepolia)
  else throw ("unknown network '" ++ name ++ "'")
  return .null

/-- Reveal the recovery phrase, after re-authenticating against the vault on disk. -/
def revealSeed (passphrase : String) : Command Json := do
  let network := chainName (← act .session).chain
  let now ← act .instant
  match ← act (.backoffCheck now) with
  | some wait => failUi "ui_revealSeed" network 114 (tooManyGuesses wait)
  | none => do
      let vault ← match ← act .loadVault with
        | .ok (some v) => pure v
        | .ok none => failUi "ui_revealSeed" network 163 "no vault on disk"
        | .error e => failUi "ui_revealSeed" network 163 e
      match ← act (.reveal vault passphrase) with
      | .ok phrase => do
          act .backoffSuccess
          logUiAction "ui_revealSeed" network "ok" none none
          return .str phrase
      | .error .locked => failUi "ui_revealSeed" network (-32001) "unlock the wallet first"
      | .error e => do
          let now ← act .instant
          act (.backoffFailure now)
          failUi "ui_revealSeed" network 114 e.message

/-! ## Accounts -/

/-- Re-seal the session and save it, with the error as its text. -/
def saveSession : Command Unit := do
  let vault ← orMessage (resealSession K)
  saveVault vault

/-- Derive the next user account and persist the vault, or roll the account back. -/
def addUserAccount (label : String) : Command Json := holdingSession do
  let network := chainName (← act .session).chain
  match ← act (.createUserAccount label) with
  | .error e => failUi "ui_addUserAccount" network 163 e.message
  | .ok account => do
      match ← ExceptT.lift (saveSession K).run with
      | .error e => do
          act (.rollbackAccount account.address)
          failUi "ui_addUserAccount" network 163 e
      | .ok () => do
          logUiAction "ui_addUserAccount" network "ok" none (some ("\x7b\"address\":\"" ++
            account.address ++ "\",\"label\":\"" ++ account.label ++ "\"\x7d"))
          return accountToJson account

/-- An answer of the node, or its error logged and returned. -/
def fromNode {α : Type} (network : String) (m : Handler NodeError Op Ans α) : Command α := do
  match ← ExceptT.lift m.run with
  | .ok a => return a
  | .error e => failUi "ui_deployAccount" network (-32004) e.display

/-- Deploy an account of the registry. -/
def deployAccount (address : String) : Command Json := do
  let some f := K.feltFromHex address | throw "bad address"
  let want := addressHex f
  holdingSession do
    let s ← act .session
    let chain := s.chain
    let network := chainName chain
    if (← act (.nodeFor chain)) = false then throw "set a Starknet RPC URL in Settings to deploy"
    let reg ← orMessage (propagate s.registry)
    let some account := reg.accounts.find? fun a => a.address = want | throw "unknown account"
    let some addr := K.feltFromHex account.address | throw "bad address"
    if ← fromNode network (Node.isDeployed chain addr) then
      failUi "ui_deployAccount" network (-32006)
        ("account " ++ account.address ++ " is already deployed on " ++ network)
    let d ← orMessage (propagate (s.deploymentDataFor K account))
    let bounds ← fromNode network
      (Node.estimateDeployAccount chain d.classHash d.constructorCalldata d.salt)
    let p : InvokeV3Params := {
      nonce := 0
      tip := 0
      l1Gas := bounds.l1Gas
      l2Gas := bounds.l2Gas
      l1DataGas := bounds.l1DataGas }
    let answer ← act (.signDeployAccount account chain p)
    let signed ← orMessage (propagate answer)
    let hash ← fromNode network (Node.addDeployAccount K chain signed.classHash
      signed.constructorCalldata signed.salt signed.signature bounds)
    logUiAction "ui_deployAccount" network "ok" none (some ("\x7b\"transaction_hash\":\"" ++
      feltHex hash ++ "\",\"address\":\"" ++ account.address ++ "\"\x7d"))
    return .obj [("transaction_hash", .str (feltHex hash))]

/-! ## STRK20 -/

def uiError (e : WalletRpcError) : String := e.message ++ " (" ++ toString e.code ++ ")"

/-- Log a STRK20 action: its transaction hash only. -/
def strk20Run (uiMethod : String) (m : Serve Json) : Command Json := do
  let result ← ExceptT.lift m.run
  let network := chainName (← act .session).chain
  match result with
  | .ok v => do
      logUiAction uiMethod network "ok" none ((v.get? "transaction_hash").map Json.render)
      return v
  | .error e => do
      logUiAction uiMethod network ("error " ++ toString e.code) (some e.code) none
      throw (uiError e)

def strk20Balances (address : String) (tokens : List String) : Command Json :=
  mapErr uiError (Rpc.Strk20.balances K S .desktop
    (.obj [("account_address", .str address), ("tokens", .arr (tokens.map .str))]))

def strk20Register (address : String) : Command Json :=
  strk20Run "ui_strk20Register"
    (Rpc.Strk20.register K S .desktop (.obj [("account_address", .str address)]))

def strk20Invoke (address : String) (actions : Json) : Command Json :=
  strk20Run "ui_strk20Invoke" (Rpc.Strk20.invokeTransaction K S .desktop
    (.obj [("account_address", .str address), ("actions", actions)]))

def strk20Prepare (address : String) (actions : Json) : Command Json :=
  strk20Run "ui_strk20Prepare" (Rpc.Strk20.prepareInvoke K S .desktop
    (.obj [("account_address", .str address), ("actions", actions)]))

/-! ## Grants -/

/-- The answer of a change to one client. -/
def knownClient (found : Bool) : Command Json :=
  if found then return .null else throw "unknown client"

/-- Grant a client an auto-approval window. -/
def grantPermission (clientId : String) (days : ℕ) : Command Json := do
  let now ← act (.clock .grant)
  let untilMs := now + BitVec.ofNat 64 (clampDays days * 24 * 60 * 60 * 1000)
  knownClient (← act (.grant clientId untilMs))

def revokePermission (clientId : String) : Command Json := do
  knownClient (← act (.revokeGrant clientId))

/-- `ClientStore::revoke`, which no command of the window calls yet. -/
def revoke (clientId : String) : Command Json := do
  knownClient (← act (.revoke clientId))

/-! ## Settings -/

/-- Persist the settings, for the owner's eyes only. -/
def saveSettings (s : Settings) : Command Unit := do
  let created ← act .createSettings
  propagate created
  let written ← act (.writeSettings s)
  propagate written
  let guarded ← act .protectSettings
  propagate guarded

def setSettings (s : Settings) : Command Json := do
  propagate s.validate
  saveSettings s
  return .null

/-! ## The auto-lock task -/

/-- One tick: lock the session after the configured time without activity. -/
def autoLockTick : Command Json := do
  let file ← act .readSettings
  let mins := (Settings.load file).autoLockMinutes
  if mins ≠ 0 then
    let now ← act (.clock .idle)
    let last ← act .lastActivity
    if (mins * 60 * 1000).toNat ≤ now.toNat - last.toNat then
      act .lockSession
  return .null

end Strkd.Desktop
