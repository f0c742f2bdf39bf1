import Strkd.Lib.JsonPrint
import Strkd.Wallet.Keys

/-!
# The encrypted vault

The seed and the accounts as JSON, and the bytes of that text sealed under a passphrase:
`passphrase --Argon2id--> 32-byte key --AES-256-GCM--> ciphertext`.  What is promised of the cipher
is named here (`Decrypts`, `Authentic`); a vault that was sealed then opens to what was sealed, and
to nothing else.
-/

namespace Strkd.Wallet

/-! ## The payload -/

/-- The plaintext payload of a vault. -/
structure VaultContents where
  mnemonic : String
  registry : Registry
  deriving DecidableEq, Repr

def Domain.toJson (d : Domain) : Json := .str d.wireName

def Domain.ofJson (v : Json) : Option Domain :=
  match v.asStr with
  | some s => if s = "user" then some .user else if s = "agent" then some .agent else none
  | none => none

def AccountContract.toJson : AccountContract → Json
  | .openZeppelin => .str "openzeppelin"

def AccountContract.ofJson (v : Json) : Option AccountContract :=
  match v.asStr with
  | some s => if s = "openzeppelin" then some .openZeppelin else none
  | none => none

namespace AccountRef

/-- The owner is left out where there is none. -/
def ownerFields : Option String → List (String × Json)
  | some id => [("owner_client_id", .str id)]
  | none => []

def toJson (a : AccountRef) : Json := .obj ([("domain", a.domain.toJson),
  ("index", .int a.index.toNat), ("address", .str a.address), ("label", .str a.label),
  ("contract", a.contract.toJson)] ++ ownerFields a.ownerClientId)

def indexOfJson (v : Json) : Option U32 :=
  v.asU64.bind fun n => if n < 2 ^ 32 then some (BitVec.ofNat 32 n) else none

/-- An account written before there was a choice of contracts is an OpenZeppelin account. -/
def contractOfJson : Option Json → Option AccountContract
  | none => some .openZeppelin
  | some v => AccountContract.ofJson v

/-- An owner that is absent or null is none. -/
def ownerOfJson : Option Json → Option (Option String)
  | none | some .null => some none
  | some v => v.asStr.map some

def ofJson (v : Json) : Option AccountRef := do
  let domain ← (v.get? "domain").bind Domain.ofJson
  let index ← (v.get? "index").bind indexOfJson
  let address ← (v.get? "address").bind Json.asStr
  let label ← (v.get? "label").bind Json.asStr
  let contract ← contractOfJson (v.get? "contract")
  let ownerClientId ← ownerOfJson (v.get? "owner_client_id")
  return ⟨domain, index, address, label, contract, ownerClientId⟩

end AccountRef

namespace Registry

def toJson (r : Registry) : Json := .obj [("accounts", .arr (r.accounts.map AccountRef.toJson))]

def ofJson (v : Json) : Option Registry := do
  let items ← (v.get? "accounts").bind Json.asArray
  let accounts ← items.mapM AccountRef.ofJson
  return ⟨accounts⟩

/-- A payload without a registry has no accounts. -/
def ofField : Option Json → Option Registry
  | none => some .empty
  | some v => ofJson v

end Registry

namespace VaultContents

def toJson (c : VaultContents) : Json := .obj [("mnemonic", .str c.mnemonic),
  ("registry", c.registry.toJson)]

def ofJson (v : Json) : Option VaultContents := do
  let mnemonic ← (v.get? "mnemonic").bind Json.asStr
  let registry ← Registry.ofField (v.get? "registry")
  return ⟨mnemonic, registry⟩

/-- `serde_json::to_vec` -/
def toBytes (c : VaultContents) : List UInt8 := c.toJson.render.toUTF8.data.toList

/-- `serde_json::from_slice` -/
def ofBytes (bytes : List UInt8) : Option VaultContents := do
  let text ← String.fromUTF8? ⟨⟨bytes⟩⟩
  let v ← Json.parse text
  ofJson v

end VaultContents

/-! ### It reads back -/

theorem Domain.ofJson_toJson (d : Domain) : ofJson d.toJson = some d := by
  cases d <;> decide

theorem AccountContract.ofJson_toJson (c : AccountContract) : ofJson c.toJson = some c := by
  cases c
  decide

theorem AccountRef.indexOfJson_int (n : U32) : indexOfJson (.int n.toNat) = some n := by
  have hn : n.toNat < 2 ^ 32 := n.isLt
  have h64 : (0 : ℤ) ≤ n.toNat ∧ (n.toNat : ℤ) < 2 ^ 64 :=
    ⟨Int.natCast_nonneg _, by exact_mod_cast hn.trans (by norm_num)⟩
  have hread : (Json.int n.toNat).asU64 = some n.toNat := by
    rw [Json.asU64, if_pos h64, Int.toNat_natCast]
  have hindex : (if n.toNat < 2 ^ 32 then some (BitVec.ofNat 32 n.toNat) else none) = some n := by
    rw [if_pos hn, BitVec.ofNat_toNat, BitVec.setWidth_eq]
  exact Option.bind_eq_some_iff.2 ⟨n.toNat, hread, hindex⟩

theorem AccountRef.ownerOfJson_toJson (a : AccountRef) :
    ownerOfJson (a.toJson.get? "owner_client_id") = some a.ownerClientId := by
  obtain ⟨domain, index, address, label, contract, owner⟩ := a
  cases owner <;> rfl

theorem AccountRef.ofJson_toJson (a : AccountRef) : ofJson a.toJson = some a := by
  have hdomain : (a.toJson.get? "domain").bind Domain.ofJson = some a.domain :=
    Domain.ofJson_toJson a.domain
  have hindex : a.toJson.get? "index" = some (.int a.index.toNat) := rfl
  have haddress : (a.toJson.get? "address").bind Json.asStr = some a.address := rfl
  have hlabel : (a.toJson.get? "label").bind Json.asStr = some a.label := rfl
  have hcontract : contractOfJson (a.toJson.get? "contract") = some a.contract :=
    AccountContract.ofJson_toJson a.contract
  rw [ofJson, hdomain, hindex, Option.bind_some, indexOfJson_int, haddress, hlabel, hcontract,
    ownerOfJson_toJson]
  rfl

theorem Registry.ofJson_toJson (r : Registry) : ofJson r.toJson = some r := by
  have hall : ∀ l : List AccountRef, (l.map AccountRef.toJson).mapM AccountRef.ofJson = some l := by
    intro l
    induction l with
    | nil => rfl
    | cons a l ih => simp [AccountRef.ofJson_toJson, ih]
  simp [ofJson, toJson, Json.get?, List.lookup, Json.asArray, hall]

theorem VaultContents.ofJson_toJson (c : VaultContents) : ofJson c.toJson = some c := by
  have hregistry := Registry.ofJson_toJson c.registry
  simp [ofJson, toJson, Json.get?, List.lookup, Json.asStr, Registry.ofField, hregistry]

theorem AccountRef.printable (a : AccountRef) : a.toJson.Printable := by
  have hindex : (Json.int a.index.toNat).Printable := by
    have := a.index.isLt
    constructor <;> omega
  have hstr : ∀ s, (Json.str s).Printable := fun _ => trivial
  have hcontract : a.contract.toJson.Printable := by
    cases a.contract
    exact hstr _
  rw [toJson, Json.Printable]
  cases howner : a.ownerClientId <;>
    exact ⟨by simp [ownerFields, Json.PrintableFields, Domain.toJson, hstr, hindex, hcontract],
      by simp [ownerFields]⟩

theorem VaultContents.printable (c : VaultContents) : c.toJson.Printable := by
  have haccounts : Json.PrintableItems (c.registry.accounts.map AccountRef.toJson) := by
    rw [Json.printableItems_iff]
    intro v hv
    obtain ⟨a, -, rfl⟩ := List.mem_map.1 hv
    exact a.printable
  simp [toJson, Registry.toJson, Json.Printable, Json.PrintableFields, haccounts]

theorem fromUTF8?_toUTF8 (s : String) : String.fromUTF8? ⟨⟨s.toUTF8.data.toList⟩⟩ = some s :=
  dif_pos s.isValidUTF8

/-- What was written into the vault is what is read from it. -/
theorem VaultContents.ofBytes_toBytes (c : VaultContents) : ofBytes c.toBytes = some c := by
  rw [ofBytes, toBytes, fromUTF8?_toUTF8, Option.bind_eq_bind, Option.bind_some,
    Json.parse_render c.printable]
  exact ofJson_toJson c

/-! ## The vault -/

/-- The vault format this build writes and can open. -/
def vaultVersion : U8 := 2

/-- KDF parameters persisted with the vault. -/
structure KdfParams where
  mCost : U32
  tCost : U32
  pCost : U32
  salt : List UInt8
  deriving DecidableEq, Repr

/-- A sealed vault. -/
structure EncryptedVault where
  version : U8
  kdf : KdfParams
  nonce : List UInt8
  ciphertext : List UInt8
  deriving DecidableEq, Repr

/-- What the OS gives for a salt and a nonce, if it gives anything. -/
structure SealDraws where
  salt : Option (Vector UInt8 16)
  nonce : Option (Vector UInt8 12)
  deriving DecidableEq, Repr

def randomBytes {n : ℕ} (drawn : Option (Vector UInt8 n)) : Except CoreError (List UInt8) :=
  match drawn with
  | some bytes => .ok bytes.toList
  | none => .error .crypto

variable (K : Crates)

def deriveKey (passphrase : String) (params : KdfParams) : Except CoreError VaultKey :=
  match K.argon2id params.mCost params.tCost params.pCost params.salt passphrase with
  | some key => .ok key
  | none => .error .kdf

namespace EncryptedVault

/-- Encrypt a plaintext under a passphrase. -/
def sealed (draws : SealDraws) (passphrase : String) (plaintext : List UInt8) :
    Except CoreError EncryptedVault := do
  let salt ← randomBytes draws.salt
  let kdf : KdfParams := ⟨64 * 1024, 3, 1, salt⟩
  let key ← deriveKey K passphrase kdf
  let nonce ← randomBytes draws.nonce
  match K.aesGcmEncrypt key nonce plaintext with
  | some ciphertext => return ⟨vaultVersion, kdf, nonce, ciphertext⟩
  | none => throw .crypto

/-- Decrypt the vault with a passphrase. -/
def opened (v : EncryptedVault) (passphrase : String) : Except CoreError (List UInt8) :=
  if v.version ≠ vaultVersion then .error (.unsupportedVaultVersion v.version)
  else if v.nonce.length ≠ 12 then .error .badPassphraseOrCorrupt
  else do
    let key ← deriveKey K passphrase v.kdf
    match K.aesGcmDecrypt key v.nonce v.ciphertext with
    | some plaintext => return plaintext
    | none => throw .badPassphraseOrCorrupt

def isSupportedVersion (v : EncryptedVault) : Bool := v.version = vaultVersion

/-- What a passphrase finds in the vault, if it opens it and finds a wallet's payload. -/
def contents (v : EncryptedVault) (passphrase : String) : Option VaultContents :=
  (v.opened K passphrase).toOption.bind VaultContents.ofBytes

end EncryptedVault

/-! ## What is promised of the cipher -/

/-- What was encrypted decrypts under its key and nonce. -/
def Crates.Decrypts : Prop :=
  ∀ key nonce plaintext ciphertext, K.aesGcmEncrypt key nonce plaintext = some ciphertext →
    K.aesGcmDecrypt key nonce ciphertext = some plaintext

/-- What a ciphertext decrypts to, under whatever key, is what was encrypted: the tag fails under
another key. -/
def Crates.Authentic : Prop :=
  ∀ key key' nonce plaintext plaintext' ciphertext,
    K.aesGcmEncrypt key nonce plaintext = some ciphertext →
    K.aesGcmDecrypt key' nonce ciphertext = some plaintext' → plaintext' = plaintext

theorem plainCrates_decrypts : plainCrates.Decrypts := by
  intro key nonce plaintext ciphertext h
  cases h
  simp [plainCrates]

theorem plainCrates_authentic : plainCrates.Authentic := by
  intro key key' nonce plaintext plaintext' ciphertext h hdecrypt
  cases h
  have hdecrypt : key.toList = key'.toList ∧ plaintext = plaintext' := by
    simpa [plainCrates] using hdecrypt
  exact hdecrypt.2.symm

/-! ## Sealing and opening -/

namespace EncryptedVault

variable {K} {v : EncryptedVault} {draws : SealDraws} {passphrase : String}
  {plaintext : List UInt8}

/-- What a sealed vault is made of. -/
theorem sealed_eq_ok (h : sealed K draws passphrase plaintext = .ok v) :
    v.version = vaultVersion ∧ v.nonce.length = 12 ∧ ∃ key,
      deriveKey K passphrase v.kdf = .ok key ∧
      K.aesGcmEncrypt key v.nonce plaintext = some v.ciphertext := by
  unfold sealed at h
  obtain ⟨salt, -, h⟩ := except_bind_eq_ok.1 h
  obtain ⟨key, hkey, h⟩ := except_bind_eq_ok.1 h
  obtain ⟨nonce, hnonce, h⟩ := except_bind_eq_ok.1 h
  have hlength : nonce.length = 12 := by
    unfold randomBytes at hnonce
    split at hnonce
    · rw [← Except.ok.inj hnonce, Vector.length_toList]
    · cases hnonce
  split at h
  · rename_i ciphertext hciphertext
    cases h
    exact ⟨rfl, hlength, key, hkey, hciphertext⟩
  · cases h

/-- What an opened vault was decrypted with. -/
theorem opened_eq_ok (h : v.opened K passphrase = .ok plaintext) :
    v.version = vaultVersion ∧ ∃ key,
      deriveKey K passphrase v.kdf = .ok key ∧
      K.aesGcmDecrypt key v.nonce v.ciphertext = some plaintext := by
  unfold opened at h
  split_ifs at h with hversion hnonce
  obtain ⟨key, hkey, h⟩ := except_bind_eq_ok.1 h
  refine ⟨not_not.1 hversion, key, hkey, ?_⟩
  split at h
  · rename_i p hp
    rw [hp, Except.ok.inj h]
  · cases h

theorem contents_eq_some {c : VaultContents} (h : v.contents K passphrase = some c) :
    ∃ plaintext, v.opened K passphrase = .ok plaintext ∧
      VaultContents.ofBytes plaintext = some c := by
  obtain ⟨plaintext, hopened, hc⟩ := Option.bind_eq_some_iff.1 h
  refine ⟨plaintext, ?_, hc⟩
  cases hv : v.opened K passphrase with
  | error e =>
      rw [hv] at hopened
      cases hopened
  | ok p =>
      rw [hv] at hopened
      rw [Option.some.inj hopened]

/-- What opens is of this build's version. -/
theorem supported_of_contents {c : VaultContents} (h : v.contents K passphrase = some c) :
    v.isSupportedVersion = true := by
  obtain ⟨plaintext, hopened, -⟩ := contents_eq_some h
  exact decide_eq_true (opened_eq_ok hopened).1

/-- A sealed vault opens, under its passphrase, to what was sealed. -/
theorem contents_of_sealed (hK : K.Decrypts) {c : VaultContents}
    (h : sealed K draws passphrase c.toBytes = .ok v) : v.contents K passphrase = some c := by
  obtain ⟨hversion, hnonce, key, hkey, hencrypt⟩ := sealed_eq_ok h
  have hopened : v.opened K passphrase = .ok c.toBytes := by
    have hdecrypt := hK _ _ _ _ hencrypt
    rw [opened, if_neg (not_not.2 hversion), if_neg (not_not.2 hnonce), except_bind_eq_ok]
    refine ⟨key, hkey, ?_⟩
    rw [hdecrypt]
    rfl
  rw [contents, hopened, Except.toOption, Option.bind_some, VaultContents.ofBytes_toBytes]

/-- A sealed vault opens to nothing else, under no passphrase. -/
theorem contents_eq_of_sealed (hK : K.Authentic) {c d : VaultContents} {other : String}
    (h : sealed K draws passphrase c.toBytes = .ok v) (hd : v.contents K other = some d) :
    d = c := by
  obtain ⟨-, -, key, -, hencrypt⟩ := sealed_eq_ok h
  obtain ⟨plaintext, hopened, hd⟩ := contents_eq_some hd
  obtain ⟨-, key', -, hdecrypt⟩ := opened_eq_ok hopened
  rw [hK _ _ _ _ _ _ hencrypt hdecrypt, VaultContents.ofBytes_toBytes] at hd
  exact (Option.some.inj hd).symm

end EncryptedVault

/-! ## Vaults of the stand-ins -/

/-- Randomness that is always there. -/
def plainDraws : SealDraws := ⟨some (.replicate 16 0), some (.replicate 12 0)⟩

/-- What the stand-ins seal with that randomness. -/
def plainSealed (passphrase : String) (plaintext : List UInt8) : EncryptedVault where
  version := vaultVersion
  kdf := ⟨64 * 1024, 3, 1, List.replicate 16 0⟩
  nonce := List.replicate 12 0
  ciphertext := (Vector.ofFn fun i : Fin 32 => passphrase.toUTF8.data.toList.getD i 0).toList ++
    plaintext

theorem sealed_plainSealed (passphrase : String) (plaintext : List UInt8) :
    EncryptedVault.sealed plainCrates plainDraws passphrase plaintext =
      .ok (plainSealed passphrase plaintext) := rfl

def plainVault (passphrase : String) (c : VaultContents) : EncryptedVault :=
  plainSealed passphrase c.toBytes

theorem contents_plainVault (passphrase : String) (c : VaultContents) :
    (plainVault passphrase c).contents plainCrates passphrase = some c :=
  EncryptedVault.contents_of_sealed plainCrates_decrypts (sealed_plainSealed passphrase c.toBytes)

/-- It holds nothing else, for whatever passphrase. -/
theorem eq_of_contents_plainVault {passphrase other : String} {c d : VaultContents}
    (h : (plainVault passphrase c).contents plainCrates other = some d) : d = c :=
  EncryptedVault.contents_eq_of_sealed plainCrates_authentic
    (sealed_plainSealed passphrase c.toBytes) h

end Strkd.Wallet
