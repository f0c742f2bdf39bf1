import Strkd.Core.Felt
import Strkd.Lib.Numeral

/-!
# Accounts and the registry

The derived accounts of a wallet, partitioned by derivation domain and tagged with the client that
owns an agent account, and the scoping rule a caller is confined by.
-/

namespace Strkd

/-- `{:#x}` of a felt. -/
def feltHex (f : Felt) : String := "0x" ++ hexText f.val

/-- A felt as a zero-padded string of 64 hexadecimal digits. -/
def addressHex (f : Felt) : String := "0x" ++ hexPadded 64 f.val

/-- The decimal `Display` of a felt. -/
def feltDecimal (f : Felt) : String := toString f.val

end Strkd

namespace Strkd.Wallet

/-! ## Derivation domains -/

/-- Which derivation branch an account belongs to. -/
inductive Domain where
  /-- Human-created, portable accounts. -/
  | user
  /-- Agent-created, segregated accounts. -/
  | agent
  deriving DecidableEq, Repr

/-- `{:?}` of a domain. -/
def Domain.debug : Domain → String
  | .user => "User"
  | .agent => "Agent"

def Domain.wireName : Domain → String
  | .user => "user"
  | .agent => "agent"

/-- Failures of the wallet core. -/
inductive CoreError where
  | invalidMnemonic
  | derivation
  | signing
  | address
  | locked
  | badPassphraseOrCorrupt
  | serialization
  | kdf
  | unsupportedVaultVersion (version : U8)
  | crypto
  | invalidContractClass (message : String)
  | indexOutOfRange (domain : Domain) (index : U32)
  deriving DecidableEq, Repr

def CoreError.display : CoreError → String
  | invalidMnemonic => "invalid mnemonic"
  | derivation => "key derivation failed"
  | signing => "signing failed"
  | address => "account address computation failed"
  | locked => "vault is locked"
  | badPassphraseOrCorrupt => "incorrect passphrase or corrupt vault"
  | serialization => "vault serialization error"
  | kdf => "key derivation function failure"
  | unsupportedVaultVersion v => s!"unsupported vault version: {v.toNat}"
  | crypto => "crypto subsystem error"
  | invalidContractClass m => s!"invalid contract class: {m}"
  | indexOutOfRange domain index =>
      s!"account index {index.toNat} is out of range for the {domain.debug} branch"

/-- Hardened BIP-44 account index reserved for the agent branch, `"AGNT"`. -/
def agentAccountIndex : U32 := 0x41474E54

/-- Exclusive upper bound on a user account number. -/
def userIndexLimit : U32 := agentAccountIndex

/-- Exclusive upper bound on an agent account number. -/
def agentIndexLimit : U32 := 0x80000000

/-- The BIP-44 `(account_index, address_index)` of the `n`-th account of a branch. -/
def Domain.pathIndices (d : Domain) (n : U32) : U32 × U32 :=
  match d with
  | .user => (n, 0)
  | .agent => (agentAccountIndex, n)

/-- The SLIP-44 coin type of Starknet. -/
def starknetCoinType : U32 := 9004

/-- The BIP-44 coin type of a domain: always Starknet. -/
def Domain.coinType (_ : Domain) : U32 := starknetCoinType

/-- Refuse an account number outside the branch's range. -/
def Domain.checkIndex (d : Domain) (n : U32) : Except CoreError Unit :=
  let limit := match d with
    | .user => userIndexLimit
    | .agent => agentIndexLimit
  if n < limit then .ok () else .error (.indexOutOfRange d n)

/-! ## Accounts -/

/-- Which contract family an account is. -/
inductive AccountContract where
  | openZeppelin
  deriving DecidableEq, Repr

/-- A single derived account's metadata. -/
structure AccountRef where
  domain : Domain
  /-- Address index within the domain branch. -/
  index : U32
  /-- Cached counterfactual address. -/
  address : String
  label : String
  contract : AccountContract
  /-- For agent accounts: the client that created and owns it. -/
  ownerClientId : Option String
  deriving DecidableEq, Repr

/-- The account registry persisted inside the vault. -/
structure Registry where
  accounts : List AccountRef
  deriving DecidableEq, Repr

namespace Registry

def empty : Registry := ⟨[]⟩

/-- Next free address index of a domain: the largest existing index plus one, or zero. -/
def nextIndex (r : Registry) (domain : Domain) : U32 :=
  match ((r.accounts.filter fun a => a.domain = domain).map fun a => a.index.toNat).max? with
  | none => 0
  | some m => BitVec.ofNat 32 m + 1

def add (r : Registry) (a : AccountRef) : Registry := ⟨r.accounts ++ [a]⟩

/-- Remove the accounts with the given address. -/
def removeByAddress (r : Registry) (address : String) : Registry :=
  ⟨r.accounts.filter fun a => a.address ≠ address⟩

/-- All user-domain accounts. -/
def userAccounts (r : Registry) : List AccountRef := r.accounts.filter fun a => a.domain = .user

/-- Accounts visible to a caller: an agent sees the accounts it owns, anyone else the user
accounts. -/
def scopedFor (r : Registry) : Option String → List AccountRef
  | none => r.userAccounts
  | some clientId => r.accounts.filter fun a => a.ownerClientId = some clientId

/-- An account with an owner is an agent account. -/
def OwnersAreAgents (r : Registry) : Prop :=
  ∀ a ∈ r.accounts, a.ownerClientId ≠ none → a.domain = .agent

theorem mem_scopedFor_none {r : Registry} {a : AccountRef} :
    a ∈ r.scopedFor none ↔ a ∈ r.accounts ∧ a.domain = .user := by
  simp [scopedFor, userAccounts]

theorem mem_scopedFor_some {r : Registry} {id : String} {a : AccountRef} :
    a ∈ r.scopedFor (some id) ↔ a ∈ r.accounts ∧ a.ownerClientId = some id := by
  simp [scopedFor]

theorem ownersAreAgents_empty : empty.OwnersAreAgents := by
  intro a ha
  simp [empty] at ha

theorem OwnersAreAgents.add {r : Registry} (h : r.OwnersAreAgents) {a : AccountRef}
    (ha : a.ownerClientId ≠ none → a.domain = .agent) : (r.add a).OwnersAreAgents := by
  intro b hb
  rcases List.mem_append.mp hb with hb | hb
  · exact h b hb
  · rw [List.mem_singleton.mp hb]
    exact ha

theorem OwnersAreAgents.removeByAddress {r : Registry} (h : r.OwnersAreAgents) (address : String) :
    (r.removeByAddress address).OwnersAreAgents :=
  fun b hb => h b (List.mem_filter.mp hb).1

end Registry

end Strkd.Wallet
