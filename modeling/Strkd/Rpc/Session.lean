import Strkd.Rpc.Error
import Strkd.Wallet.Keys
import Strkd.Wallet.Vault

/-!
# The wallet session

The unlocked seed with the account registry, and the operations that need them.  The seed stays
inside `WalletSession`.
-/

namespace Strkd.Rpc

open Wallet

structure Unlocked where
  mnemonic : String
  vaultPassphrase : String
  registry : Registry
  deriving DecidableEq, Repr

/-- A wallet session, locked or unlocked, bound to a network. -/
structure WalletSession where
  chain : ChainId
  unlocked : Option Unlocked
  deriving DecidableEq, Repr

namespace WalletSession

def newUnlocked (chain : ChainId) (mnemonic vaultPassphrase : String) (registry : Registry) :
    WalletSession :=
  ⟨chain, some ⟨mnemonic, vaultPassphrase, registry⟩⟩

def isLocked (s : WalletSession) : Bool := s.unlocked.isNone

def lock (s : WalletSession) : WalletSession := { s with unlocked := none }

def setChain (s : WalletSession) (chain : ChainId) : WalletSession := { s with chain }

/-- The current registry, if unlocked. -/
def registry (s : WalletSession) : Except WalletRpcError Registry :=
  match s.unlocked with
  | some u => .ok u.registry
  | none => .error .locked

def requireUnlocked (s : WalletSession) : Except WalletRpcError Unlocked :=
  match s.unlocked with
  | some u => .ok u
  | none => .error .locked

/-- Change the registry of an unlocked session. -/
def mapRegistry (s : WalletSession) (f : Registry → Registry) : WalletSession :=
  { s with unlocked := s.unlocked.map fun u => { u with registry := f u.registry } }

def rollbackAccount (s : WalletSession) (address : String) : WalletSession :=
  s.mapRegistry fun r => r.removeByAddress address

variable (K : Crates)

/-- Decrypt the vault and enter the unlocked state. -/
def unlock (s : WalletSession) (vault : EncryptedVault) (passphrase : String) :
    Except CoreError WalletSession := do
  let plaintext ← vault.opened K passphrase
  match VaultContents.ofBytes plaintext with
  | some contents =>
      return { s with unlocked := some ⟨contents.mnemonic, passphrase, contents.registry⟩ }
  | none => throw .serialization

/-- Re-seal the current contents under the stored vault passphrase. -/
def reseal (s : WalletSession) (draws : SealDraws) : Except WalletRpcError EncryptedVault := do
  let u ← s.requireUnlocked
  let contents : VaultContents := ⟨u.mnemonic, u.registry⟩
  liftCore (EncryptedVault.sealed K draws u.vaultPassphrase contents.toBytes)

/-- The sender felt of an account's stored address. -/
def storedAddress (account : AccountRef) : Except WalletRpcError Felt :=
  match K.feltFromHex account.address with
  | some f => .ok f
  | none => .error (.unknown "bad stored address")

def deploymentDataFor (s : WalletSession) (a : AccountRef) : Except WalletRpcError DeploymentData := do
  let u ← s.requireUnlocked
  liftCore (deploymentData K u.mnemonic a.domain a.index s.chain a.contract)

def signTypedDataFor (s : WalletSession) (a : AccountRef) (typedDataJson : String) :
    Except WalletRpcError StarkSignature := do
  let u ← s.requireUnlocked
  let address ← storedAddress K a
  liftCore (signTypedData K u.mnemonic a.domain a.index typedDataJson address)

def strk20ViewingKeyFor (s : WalletSession) (a : AccountRef) (chain : ChainId) (pool : Felt) :
    Except WalletRpcError Felt := do
  let u ← s.requireUnlocked
  liftCore (strk20ViewingKey K u.mnemonic a.domain a.index chain.asFelt pool)

def signHashFor (s : WalletSession) (a : AccountRef) (hash : Felt) :
    Except WalletRpcError (List Felt) := do
  let u ← s.requireUnlocked
  let sig ← liftCore (signHash K u.mnemonic a.domain a.index hash)
  return a.contract.serializeSignature sig

def signInvokeFor (s : WalletSession) (a : AccountRef) (calls : List Call) (chain : ChainId)
    (p : InvokeV3Params) : Except WalletRpcError SignedInvoke := do
  let u ← s.requireUnlocked
  let sender ← storedAddress K a
  liftCore (signInvokeV3 K u.mnemonic a.domain a.index sender calls chain p a.contract)

def signDeclareFor (s : WalletSession) (a : AccountRef) (classHash compiledClassHash : Felt)
    (chain : ChainId) (p : InvokeV3Params) : Except WalletRpcError SignedDeclare := do
  let u ← s.requireUnlocked
  let sender ← storedAddress K a
  liftCore (signDeclareV3 K u.mnemonic a.domain a.index sender classHash compiledClassHash chain p
    a.contract)

def signDeployAccountFor (s : WalletSession) (a : AccountRef) (chain : ChainId)
    (p : InvokeV3Params) : Except WalletRpcError SignedDeployAccount := do
  let u ← s.requireUnlocked
  liftCore (signDeployAccountV3 K u.mnemonic a.domain a.index chain p a.contract)

/-- The next account of a domain, derived from the session's seed. -/
def nextAccount (s : WalletSession) (domain : Domain) (label : String) (owner : Option String) :
    Except WalletRpcError AccountRef := do
  let u ← s.requireUnlocked
  let index := u.registry.nextIndex domain
  let addr ← liftCore (accountAddress K u.mnemonic domain index s.chain .openZeppelin)
  return {
    domain
    index
    address := addressHex addr
    label
    contract := .openZeppelin
    ownerClientId := owner }

/-- Derive and register the next account of a domain. -/
def createAccount (s : WalletSession) (domain : Domain) (label : String) (owner : Option String) :
    Except WalletRpcError (AccountRef × WalletSession) := do
  let account ← s.nextAccount K domain label owner
  return (account, s.mapRegistry fun r => r.add account)

/-- Derive and register the next agent-domain account owned by a client. -/
def createAgentAccount (s : WalletSession) (clientId label : String) :
    Except WalletRpcError (AccountRef × WalletSession) :=
  s.createAccount K .agent label (some clientId)

/-- Derive and register the next user-domain account. -/
def createUserAccount (s : WalletSession) (label : String) :
    Except WalletRpcError (AccountRef × WalletSession) :=
  s.createAccount K .user label none

/-- The funding source: a user-domain account derived on demand. -/
def managerAccount (s : WalletSession) (index : U32) : Except WalletRpcError AccountRef := do
  let u ← s.requireUnlocked
  let addr ← liftCore (accountAddress K u.mnemonic .user index s.chain .openZeppelin)
  return {
    domain := .user
    index
    address := addressHex addr
    label := "manager"
    contract := .openZeppelin
    ownerClientId := none }

/-- The phrase a vault holds, for the passphrase given now. -/
def revealMnemonic (vault : EncryptedVault) (passphrase : String) :
    Except WalletRpcError String :=
  match vault.opened K passphrase with
  | .error _ => .error (.invalidRequest "wrong passphrase (or the vault file is damaged)")
  | .ok plaintext =>
      match VaultContents.ofBytes plaintext with
      | none => .error (.unknown "vault contents are unreadable")
      | some contents => .ok contents.mnemonic

/-- Refused while locked; otherwise the vault decides. -/
def revealForSession (s : WalletSession) (vault : EncryptedVault) (passphrase : String) :
    Except WalletRpcError String :=
  if s.isLocked then .error .locked else revealMnemonic K vault passphrase

/-! ## What the operations guarantee -/

variable {K}

theorem registry_eq_ok {s : WalletSession} {r : Registry} (h : s.registry = .ok r) :
    ∃ u, s.unlocked = some u ∧ u.registry = r := by
  unfold registry at h
  split at h
  · rename_i u hu
    exact ⟨u, hu, Except.ok.inj h⟩
  · cases h

theorem requireUnlocked_eq_ok {s : WalletSession} {u : Unlocked} (h : s.requireUnlocked = .ok u) :
    s.unlocked = some u := by
  unfold requireUnlocked at h
  split at h
  · rename_i v hv
    rw [hv, Except.ok.inj h]
  · cases h

theorem unlock_of_contents {s : WalletSession} {vault : EncryptedVault} {passphrase : String}
    {c : VaultContents} (h : vault.contents K passphrase = some c) :
    s.unlock K vault passphrase =
      .ok { s with unlocked := some ⟨c.mnemonic, passphrase, c.registry⟩ } := by
  obtain ⟨plaintext, hopened, hc⟩ := EncryptedVault.contents_eq_some h
  refine except_bind_eq_ok.2 ⟨plaintext, hopened, ?_⟩
  rw [hc]
  rfl

/-- An unlocked session holds what the passphrase opened the vault to. -/
theorem unlock_eq_ok {s s' : WalletSession} {vault : EncryptedVault} {passphrase : String}
    (h : s.unlock K vault passphrase = .ok s') : ∃ c, vault.contents K passphrase = some c ∧
      s' = { s with unlocked := some ⟨c.mnemonic, passphrase, c.registry⟩ } := by
  unfold unlock at h
  obtain ⟨plaintext, hopened, h⟩ := except_bind_eq_ok.1 h
  split at h
  · rename_i c hc
    refine ⟨c, ?_, (Except.ok.inj h).symm⟩
    rw [EncryptedVault.contents, hopened]
    exact hc
  · cases h

/-- What a session is resealed to holds its seed and its accounts, under its passphrase. -/
theorem reseal_eq_ok {s : WalletSession} {draws : SealDraws} {v : EncryptedVault}
    (h : s.reseal K draws = .ok v) : ∃ u, s.unlocked = some u ∧
      EncryptedVault.sealed K draws u.vaultPassphrase
        (VaultContents.toBytes ⟨u.mnemonic, u.registry⟩) = .ok v := by
  unfold reseal at h
  obtain ⟨u, hu, h⟩ := except_bind_eq_ok.1 h
  exact ⟨u, requireUnlocked_eq_ok hu, liftCore_eq_ok h⟩

theorem managerAccount_domain {s : WalletSession} {index : U32} {a : AccountRef}
    (h : s.managerAccount K index = .ok a) : a.domain = .user := by
  simp only [managerAccount, except_bind_eq_ok, except_pure_eq_ok] at h
  obtain ⟨u, -, addr, -, rfl⟩ := h
  rfl

/-- The session after a created account: the account at the end of the same seed's registry. -/
theorem createAccount_eq_ok {s s' : WalletSession} {domain : Domain} {label : String}
    {owner : Option String} {a : AccountRef}
    (h : s.createAccount K domain label owner = .ok (a, s')) :
    a.domain = domain ∧ a.ownerClientId = owner ∧ s' = s.mapRegistry fun r => r.add a := by
  simp only [createAccount, nextAccount, except_bind_eq_ok, except_pure_eq_ok, Prod.mk.injEq] at h
  obtain ⟨b, ⟨u, -, addr, -, rfl⟩, rfl, rfl⟩ := h
  exact ⟨rfl, rfl, rfl⟩

theorem storedAddress_eq_ok {a : AccountRef} {f : Felt} (h : storedAddress K a = .ok f) :
    K.feltFromHex a.address = some f := by
  unfold storedAddress at h
  split at h
  · rename_i g hg
    rw [hg, Except.ok.inj h]
  · cases h

theorem signInvokeFor_eq_ok {s : WalletSession} {a : AccountRef} {calls : List Call}
    {chain : ChainId} {p : InvokeV3Params} {signed : SignedInvoke}
    (h : s.signInvokeFor K a calls chain p = .ok signed) :
    ∃ sender, K.feltFromHex a.address = some sender ∧
      signed.transactionHash = invokeV3Hash K sender calls chain p ∧
      signed.calldata = encodeCalls calls := by
  simp only [signInvokeFor, except_bind_eq_ok] at h
  obtain ⟨u, -, sender, hs, h⟩ := h
  exact ⟨sender, storedAddress_eq_ok hs, signInvokeV3_spec K (liftCore_eq_ok h)⟩

theorem signDeclareFor_eq_ok {s : WalletSession} {a : AccountRef}
    {classHash compiledClassHash : Felt} {chain : ChainId} {p : InvokeV3Params}
    {signed : SignedDeclare}
    (h : s.signDeclareFor K a classHash compiledClassHash chain p = .ok signed) :
    ∃ sender, K.feltFromHex a.address = some sender ∧
      signed.transactionHash = declareV3Hash K sender classHash compiledClassHash chain p := by
  simp only [signDeclareFor, except_bind_eq_ok] at h
  obtain ⟨u, -, sender, hs, h⟩ := h
  exact ⟨sender, storedAddress_eq_ok hs, signDeclareV3_spec K (liftCore_eq_ok h)⟩

end WalletSession

end Strkd.Rpc
