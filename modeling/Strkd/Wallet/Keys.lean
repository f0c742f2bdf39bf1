import Strkd.Lib.Except
import Strkd.Lib.Json
import Strkd.Wallet.Accounts
import Strkd.Strk20.Hashes

/-!
# Keys, transaction hashes and signatures

Derivation and signing for a domain and an index, and the V3 transactions the wallet signs.  What
the wallet takes from other crates (`krusty-kms`, `starknet-types-core`, `sha2`, `sha3`, `argon2`,
`aes-gcm`, `serde`), and the Unicode tables of the standard library, is the structure `Crates`, a
parameter of the whole model.
-/

namespace Strkd.Wallet

/-! ## Data of the other crates -/

structure ResourceBounds where
  maxAmount : U64
  maxPricePerUnit : U128
  deriving DecidableEq, Repr

def ResourceBounds.zero : ResourceBounds := ⟨0, 0⟩

/-- Data availability mode. -/
inductive DaMode where
  | l1
  | l2
  deriving DecidableEq, Repr

structure StarkSignature where
  publicKey : Felt
  r : Felt
  s : Felt
  deriving DecidableEq, Repr

/-- Counterfactual deployment parameters of an account. -/
structure DeploymentData where
  address : Felt
  classHash : Felt
  salt : Felt
  constructorCalldata : List Felt
  deriving DecidableEq, Repr

/-- The arguments of `compute_invoke_v3_hash_with_proof_facts`. -/
structure InvokeV3 where
  sender : Felt
  calldata : List Felt
  chainId : Felt
  nonce : Felt
  accountDeploymentData : List Felt
  tip : U64
  l1Gas : ResourceBounds
  l2Gas : ResourceBounds
  l1DataGas : ResourceBounds
  paymasterData : List Felt
  nonceDa : DaMode
  feeDa : DaMode
  proofFacts : List Felt
  deriving DecidableEq, Repr

/-- The arguments of `compute_declare_v3_hash`. -/
structure DeclareV3 where
  sender : Felt
  classHash : Felt
  compiledClassHash : Felt
  chainId : Felt
  nonce : Felt
  tip : U64
  l1Gas : ResourceBounds
  l2Gas : ResourceBounds
  l1DataGas : ResourceBounds
  paymasterData : List Felt
  nonceDa : DaMode
  feeDa : DaMode
  accountDeploymentData : List Felt
  deriving DecidableEq, Repr

/-- The arguments of `compute_deploy_account_v3_hash`. -/
structure DeployAccountV3 where
  deployment : DeploymentData
  chainId : Felt
  nonce : Felt
  tip : U64
  l1Gas : ResourceBounds
  l2Gas : ResourceBounds
  l1DataGas : ResourceBounds
  paymasterData : List Felt
  nonceDa : DaMode
  feeDa : DaMode
  deriving DecidableEq, Repr

/-- A key of AES-256-GCM. -/
abbrev VaultKey := Vector UInt8 32

/-- What the wallet calls in other crates. -/
structure Crates where
  /-- `Felt::from_hex` -/
  feltFromHex : String → Option Felt
  /-- `Felt::from_dec_str` -/
  feltFromDecStr : String → Option Felt
  /-- Poseidon and the Stark curve. -/
  curve : Strk20.Curve
  /-- The Keccak-256 digest as a big-endian number. -/
  keccak256 : List UInt8 → BitVec 256
  /-- The SHA-256 digest in hexadecimal. -/
  sha256Hex : String → String
  invokeV3Hash : InvokeV3 → Felt
  declareV3Hash : DeclareV3 → Felt
  deployAccountV3Hash : DeployAccountV3 → Felt
  typedDataMessageHash : String → Felt → Option Felt
  /-- Mnemonic, address index, account index and coin type; no BIP-39 passphrase is ever given. -/
  derivePrivateKey : String → U32 → U32 → U32 → Option Felt
  starkPublicKey : Felt → Option Felt
  signStarkHash : Felt → Felt → Option StarkSignature
  /-- Private key, chain id and pool, both in hexadecimal. -/
  deriveScopedStrk20ViewingKey : Felt → String → String → Option Felt
  /-- The OpenZeppelin account of a public key on a chain, deployed with a zero salt. -/
  ozDeployment : ChainId → Felt → Option DeploymentData
  generateMnemonic : ℕ → Option String
  validateMnemonic : String → Bool
  /-- Argon2id: memory cost, passes, lanes, salt and passphrase. -/
  argon2id : U32 → U32 → U32 → List UInt8 → String → Option VaultKey
  /-- AES-256-GCM: key, nonce and plaintext. -/
  aesGcmEncrypt : VaultKey → List UInt8 → List UInt8 → Option (List UInt8)
  /-- AES-256-GCM: key, nonce and ciphertext. -/
  aesGcmDecrypt : VaultKey → List UInt8 → List UInt8 → Option (List UInt8)
  /-- A screening attestation read by `serde_json`: `issued_at`, `sig_r` and `sig_s`. -/
  attestationFields : Json → Except String (U64 × Felt × Felt)
  /-- `str::to_lowercase` -/
  toLowercase : String → String

/-- Stand-ins that are easy to compute with; numbers are read as the crates read them. -/
def plainCrates : Crates where
  feltFromHex s := (parseRadix 16 feltPrime ((stripPrefix "0x" s).getD s)).map Felt.ofNat
  feltFromDecStr s := (parseRadix 10 feltPrime s).map Felt.ofNat
  curve := Strk20.plainCurve
  keccak256 data := BitVec.ofNat 256 (data.foldl (fun n b => 256 * n + b.toNat) 0)
  sha256Hex s := s
  invokeV3Hash x := x.nonce
  declareV3Hash x := x.nonce
  deployAccountV3Hash x := x.nonce
  typedDataMessageHash _ address := some address
  derivePrivateKey _ addressIndex accountIndex _ :=
    some (.ofNat (2 ^ 32 * accountIndex.toNat + addressIndex.toNat + 1))
  starkPublicKey sk := some sk
  signStarkHash sk hash := some ⟨sk, sk, hash⟩
  deriveScopedStrk20ViewingKey sk _ _ := some sk
  ozDeployment _ pk := some ⟨pk, 1, 0, [pk]⟩
  generateMnemonic _ := some "test"
  validateMnemonic _ := true
  argon2id _ _ _ _ passphrase := some (.ofFn fun i => passphrase.toUTF8.data.toList.getD i 0)
  aesGcmEncrypt key _ plaintext := some (key.toList ++ plaintext)
  aesGcmDecrypt key _ ciphertext :=
    if ciphertext.take 32 = key.toList then some (ciphertext.drop 32) else none
  attestationFields _ := .error "no attestation"
  toLowercase s := s.map Char.toLower

/-- The stand-in reads back what `felt_hex` prints. -/
theorem plainCrates_feltFromHex (f : Felt) : plainCrates.feltFromHex (feltHex f) = some f := by
  show (parseRadix 16 feltPrime ((stripPrefix "0x" ("0x" ++ hexText f.val)).getD _)).map _ = _
  rw [stripPrefix_append, Option.getD_some, parseRadix_hexText f.isLt, Option.map_some,
    Felt.ofNat_val]

variable (K : Crates)

/-! ## Keys -/

/-- The Stark private key of `(domain, index)`. -/
def privateKey (mnemonic : String) (domain : Domain) (index : U32) : Except CoreError Felt := do
  domain.checkIndex index
  let (accountIndex, addressIndex) := domain.pathIndices index
  match K.derivePrivateKey mnemonic addressIndex accountIndex domain.coinType with
  | some sk => return sk
  | none => throw .derivation

/-- The STRK20 viewing key of `(domain, index)`, scoped to one pool on one chain. -/
def strk20ViewingKey (mnemonic : String) (domain : Domain) (index : U32) (chainId pool : Felt) :
    Except CoreError Felt := do
  let sk ← privateKey K mnemonic domain index
  match K.deriveScopedStrk20ViewingKey sk (feltHex chainId) (feltHex pool) with
  | some key => return key
  | none => throw .derivation

def publicKey (mnemonic : String) (domain : Domain) (index : U32) : Except CoreError Felt := do
  let sk ← privateKey K mnemonic domain index
  match K.starkPublicKey sk with
  | some pk => return pk
  | none => throw .derivation

/-- Full counterfactual deployment data of a public key on a chain. -/
def AccountContract.deployment (contract : AccountContract) (pk : Felt) (chain : ChainId) :
    Except CoreError DeploymentData :=
  match contract with
  | .openZeppelin =>
      match K.ozDeployment chain pk with
      | some d => .ok d
      | none => .error .address

/-- Serialize a raw signature the way the account's `__validate__` expects it. -/
def AccountContract.serializeSignature (contract : AccountContract) (sig : StarkSignature) :
    List Felt :=
  match contract with
  | .openZeppelin => [sig.r, sig.s]

def deploymentData (mnemonic : String) (domain : Domain) (index : U32) (chain : ChainId)
    (contract : AccountContract) : Except CoreError DeploymentData := do
  let pk ← publicKey K mnemonic domain index
  contract.deployment K pk chain

/-- Counterfactual address of `(domain, index)` under `contract` on `chain`. -/
def accountAddress (mnemonic : String) (domain : Domain) (index : U32) (chain : ChainId)
    (contract : AccountContract) : Except CoreError Felt := do
  return (← deploymentData K mnemonic domain index chain contract).address

/-- Sign an already-computed hash with the key of `(domain, index)`. -/
def signHash (mnemonic : String) (domain : Domain) (index : U32) (hash : Felt) :
    Except CoreError StarkSignature := do
  let sk ← privateKey K mnemonic domain index
  match K.signStarkHash sk hash with
  | some sig => return sig
  | none => throw .signing

def typedDataMessageHash (typedDataJson : String) (address : Felt) : Except CoreError Felt :=
  match K.typedDataMessageHash typedDataJson address with
  | some h => .ok h
  | none => .error .signing

def signTypedData (mnemonic : String) (domain : Domain) (index : U32) (typedDataJson : String)
    (address : Felt) : Except CoreError StarkSignature := do
  let hash ← typedDataMessageHash K typedDataJson address
  signHash K mnemonic domain index hash

/-! ## Calls -/

/-- A single contract call in a multicall. -/
structure Call where
  toAddr : Felt
  selector : Felt
  calldata : List Felt
  deriving DecidableEq, Repr

/-- Keccak-256 with the top six bits cleared. -/
def starknetKeccak (data : List UInt8) : Felt := .ofNat ((K.keccak256 data).toNat % 2 ^ 250)

def getSelectorFromName (name : String) : Felt := starknetKeccak K name.toUTF8.toList

/-- A selector given as hexadecimal or as a function name. -/
def resolveSelector (s : String) : Except CoreError Felt :=
  match stripPrefix "0x" s <|> stripPrefix "0X" s with
  | some hex =>
      match K.feltFromHex ("0x" ++ hex) with
      | some f => .ok f
      | none => .error .address
  | none => .ok (getSelectorFromName K s)

/-- Encode a multicall into the Cairo 1 `__execute__` calldata array. -/
def encodeCalls (calls : List Call) : List Felt :=
  Felt.ofNat calls.length :: calls.flatMap fun c =>
    c.toAddr :: c.selector :: Felt.ofNat c.calldata.length :: c.calldata

/-! ## V3 transactions -/

/-- Fee and nonce parameters of a V3 transaction. -/
structure InvokeV3Params where
  nonce : Felt := 0
  tip : U64 := 0
  l1Gas : ResourceBounds := .zero
  l2Gas : ResourceBounds := .zero
  l1DataGas : ResourceBounds := .zero
  paymasterData : List Felt := []
  accountDeploymentData : List Felt := []
  proofFacts : List Felt := []
  deriving DecidableEq, Repr

def invokeV3Hash (sender : Felt) (calls : List Call) (chain : ChainId) (p : InvokeV3Params) :
    Felt :=
  K.invokeV3Hash {
    sender
    calldata := encodeCalls calls
    chainId := chain.asFelt
    nonce := p.nonce
    accountDeploymentData := p.accountDeploymentData
    tip := p.tip
    l1Gas := p.l1Gas
    l2Gas := p.l2Gas
    l1DataGas := p.l1DataGas
    paymasterData := p.paymasterData
    nonceDa := .l1
    feeDa := .l1
    proofFacts := p.proofFacts }

def declareV3Hash (sender classHash compiledClassHash : Felt) (chain : ChainId)
    (p : InvokeV3Params) : Felt :=
  K.declareV3Hash {
    sender
    classHash
    compiledClassHash
    chainId := chain.asFelt
    nonce := p.nonce
    tip := p.tip
    l1Gas := p.l1Gas
    l2Gas := p.l2Gas
    l1DataGas := p.l1DataGas
    paymasterData := p.paymasterData
    nonceDa := .l1
    feeDa := .l1
    accountDeploymentData := p.accountDeploymentData }

/-- The product of signing an invoke. -/
structure SignedInvoke where
  transactionHash : Felt
  calldata : List Felt
  signature : List Felt
  r : Felt
  s : Felt
  deriving DecidableEq, Repr

/-- The product of signing a deployment. -/
structure SignedDeployAccount where
  transactionHash : Felt
  address : Felt
  classHash : Felt
  salt : Felt
  constructorCalldata : List Felt
  signature : List Felt
  r : Felt
  s : Felt
  deriving DecidableEq, Repr

/-- The product of signing a declaration. -/
structure SignedDeclare where
  transactionHash : Felt
  signature : List Felt
  r : Felt
  s : Felt
  deriving DecidableEq, Repr

def signInvokeV3 (mnemonic : String) (domain : Domain) (index : U32) (sender : Felt)
    (calls : List Call) (chain : ChainId) (p : InvokeV3Params) (contract : AccountContract) :
    Except CoreError SignedInvoke := do
  let hash := invokeV3Hash K sender calls chain p
  let sig ← signHash K mnemonic domain index hash
  return {
    transactionHash := hash
    calldata := encodeCalls calls
    signature := contract.serializeSignature sig
    r := sig.r
    s := sig.s }

def signDeclareV3 (mnemonic : String) (domain : Domain) (index : U32)
    (sender classHash compiledClassHash : Felt) (chain : ChainId) (p : InvokeV3Params)
    (contract : AccountContract) : Except CoreError SignedDeclare := do
  let hash := declareV3Hash K sender classHash compiledClassHash chain p
  let sig ← signHash K mnemonic domain index hash
  return {
    transactionHash := hash
    signature := contract.serializeSignature sig
    r := sig.r
    s := sig.s }

def signDeployAccountV3 (mnemonic : String) (domain : Domain) (index : U32) (chain : ChainId)
    (p : InvokeV3Params) (contract : AccountContract) : Except CoreError SignedDeployAccount := do
  let d ← deploymentData K mnemonic domain index chain contract
  let hash := K.deployAccountV3Hash {
    deployment := d
    chainId := chain.asFelt
    nonce := p.nonce
    tip := p.tip
    l1Gas := p.l1Gas
    l2Gas := p.l2Gas
    l1DataGas := p.l1DataGas
    paymasterData := p.paymasterData
    nonceDa := .l1
    feeDa := .l1 }
  let sig ← signHash K mnemonic domain index hash
  return {
    transactionHash := hash
    address := d.address
    classHash := d.classHash
    salt := d.salt
    constructorCalldata := d.constructorCalldata
    signature := contract.serializeSignature sig
    r := sig.r
    s := sig.s }

/-- What a signed invoke commits to. -/
theorem signInvokeV3_spec {mnemonic : String} {domain : Domain} {index : U32} {sender : Felt}
    {calls : List Call} {chain : ChainId} {p : InvokeV3Params} {contract : AccountContract}
    {signed : SignedInvoke}
    (h : signInvokeV3 K mnemonic domain index sender calls chain p contract = .ok signed) :
    signed.transactionHash = invokeV3Hash K sender calls chain p ∧
      signed.calldata = encodeCalls calls := by
  simp only [signInvokeV3, except_bind_eq_ok, except_pure_eq_ok] at h
  obtain ⟨sig, -, rfl⟩ := h
  exact ⟨rfl, rfl⟩

theorem signDeclareV3_spec {mnemonic : String} {domain : Domain} {index : U32}
    {sender classHash compiledClassHash : Felt} {chain : ChainId} {p : InvokeV3Params}
    {contract : AccountContract} {signed : SignedDeclare}
    (h : signDeclareV3 K mnemonic domain index sender classHash compiledClassHash chain p contract
      = .ok signed) :
    signed.transactionHash = declareV3Hash K sender classHash compiledClassHash chain p := by
  simp only [signDeclareV3, except_bind_eq_ok, except_pure_eq_ok] at h
  obtain ⟨sig, -, rfl⟩ := h
  rfl

end Strkd.Wallet
