import Strkd.Wallet.ClassHash

/-!
# Reading a V3 transaction off the wire

What a node or a prover takes from the JSON of a broadcast transaction: the arguments of the V3
hash and the signature.  The reader is independent of the code that prints the transactions.
-/

namespace Strkd.Wallet.Wire

/-! ## Fields -/

/-- The number a `0x`-prefixed hexadecimal string stands for. -/
def number (limit : ℕ) (v : Json) : Option ℕ := do
  let s ← v.asStr
  let digits ← stripPrefix "0x" s
  parseRadix 16 limit digits

def felt (v : Json) : Option Felt := (number feltPrime v).map Felt.ofNat

def word (w : ℕ) (v : Json) : Option (BitVec w) := (number (2 ^ w) v).map (BitVec.ofNat w)

def felts (v : Json) : Option (List Felt) := v.asArray.bind fun items => items.mapM felt

def bound (v : Json) : Option ResourceBounds := do
  let maxAmount ← (v.get? "max_amount").bind (word 64)
  let maxPricePerUnit ← (v.get? "max_price_per_unit").bind (word 128)
  return ⟨maxAmount, maxPricePerUnit⟩

def daMode (v : Json) : Option DaMode :=
  match v.asStr with
  | some "L1" => some .l1
  | some "L2" => some .l2
  | _ => none

/-- Proof facts are left out of a transaction that has none. -/
def proofFacts (tx : Json) : Option (List Felt) :=
  match tx.get? "proof_facts" with
  | none => some []
  | some v => felts v

/-! ## Transactions -/

/-- A transaction of the given type, in version 3. -/
def isV3 (kind : String) (tx : Json) : Prop :=
  (tx.get? "type").bind Json.asStr = some kind ∧ (tx.get? "version").bind Json.asStr = some "0x3"

/-- The V3 hash arguments of an invoke on a chain. -/
def invoke (chain : ChainId) (tx : Json) : Option InvokeV3 := do
  let bounds ← tx.get? "resource_bounds"
  let sender ← (tx.get? "sender_address").bind felt
  let calldata ← (tx.get? "calldata").bind felts
  let nonce ← (tx.get? "nonce").bind felt
  let accountDeploymentData ← (tx.get? "account_deployment_data").bind felts
  let tip ← (tx.get? "tip").bind (word 64)
  let l1Gas ← (bounds.get? "l1_gas").bind bound
  let l2Gas ← (bounds.get? "l2_gas").bind bound
  let l1DataGas ← (bounds.get? "l1_data_gas").bind bound
  let paymasterData ← (tx.get? "paymaster_data").bind felts
  let nonceDa ← (tx.get? "nonce_data_availability_mode").bind daMode
  let feeDa ← (tx.get? "fee_data_availability_mode").bind daMode
  let proofFacts ← proofFacts tx
  return { sender, calldata, chainId := chain.asFelt, nonce, accountDeploymentData, tip, l1Gas,
           l2Gas, l1DataGas, paymasterData, nonceDa, feeDa, proofFacts }

/-- The V3 hash arguments of a declaration on a chain, for a class hash. -/
def declare (chain : ChainId) (classHash : Felt) (tx : Json) : Option DeclareV3 := do
  let bounds ← tx.get? "resource_bounds"
  let sender ← (tx.get? "sender_address").bind felt
  let compiledClassHash ← (tx.get? "compiled_class_hash").bind felt
  let nonce ← (tx.get? "nonce").bind felt
  let tip ← (tx.get? "tip").bind (word 64)
  let l1Gas ← (bounds.get? "l1_gas").bind bound
  let l2Gas ← (bounds.get? "l2_gas").bind bound
  let l1DataGas ← (bounds.get? "l1_data_gas").bind bound
  let paymasterData ← (tx.get? "paymaster_data").bind felts
  let nonceDa ← (tx.get? "nonce_data_availability_mode").bind daMode
  let feeDa ← (tx.get? "fee_data_availability_mode").bind daMode
  let accountDeploymentData ← (tx.get? "account_deployment_data").bind felts
  return { sender, classHash, compiledClassHash, chainId := chain.asFelt, nonce, tip, l1Gas, l2Gas,
           l1DataGas, paymasterData, nonceDa, feeDa, accountDeploymentData }

/-- The V3 hash arguments of a deployment on a chain; `address` is the address that a class hash, a
salt and constructor calldata determine. -/
def deployAccount (address : Felt → Felt → List Felt → Felt) (chain : ChainId) (tx : Json) :
    Option DeployAccountV3 := do
  let bounds ← tx.get? "resource_bounds"
  let classHash ← (tx.get? "class_hash").bind felt
  let salt ← (tx.get? "contract_address_salt").bind felt
  let constructorCalldata ← (tx.get? "constructor_calldata").bind felts
  let nonce ← (tx.get? "nonce").bind felt
  let tip ← (tx.get? "tip").bind (word 64)
  let l1Gas ← (bounds.get? "l1_gas").bind bound
  let l2Gas ← (bounds.get? "l2_gas").bind bound
  let l1DataGas ← (bounds.get? "l1_data_gas").bind bound
  let paymasterData ← (tx.get? "paymaster_data").bind felts
  let nonceDa ← (tx.get? "nonce_data_availability_mode").bind daMode
  let feeDa ← (tx.get? "fee_data_availability_mode").bind daMode
  let deployment := ⟨address classHash salt constructorCalldata, classHash, salt,
    constructorCalldata⟩
  return { deployment, chainId := chain.asFelt, nonce, tip, l1Gas, l2Gas, l1DataGas, paymasterData,
           nonceDa, feeDa }

/-- The class hash a node derives from the class a declaration carries. -/
def classHash (K : Crates) (tx : Json) : Option Felt := do
  let v ← tx.get? "contract_class"
  match SierraClass.fromJson K v with
  | .ok c => some (c.classHash K)
  | .error _ => none

/-- The signature of a transaction. -/
def signature (tx : Json) : Option (List Felt) := (tx.get? "signature").bind felts

/-! ## Printed fields read back -/

theorem number_hexText {n limit : ℕ} (hn : n < limit) :
    number limit (.str ("0x" ++ hexText n)) = some n := by
  simp only [number, Json.asStr, Option.bind_eq_bind, Option.bind_some, stripPrefix_append]
  exact parseRadix_hexText hn

theorem number_hexPadded (width : ℕ) {n limit : ℕ} (hn : n < limit) :
    number limit (.str ("0x" ++ hexPadded width n)) = some n := by
  simp only [number, Json.asStr, Option.bind_eq_bind, Option.bind_some, stripPrefix_append]
  exact parseRadix_hexPadded width hn

@[simp] theorem felt_feltHex (f : Felt) : felt (.str (feltHex f)) = some f := by
  rw [felt, feltHex, number_hexText f.isLt, Option.map_some, Felt.ofNat_val]

@[simp] theorem felt_addressHex (f : Felt) : felt (.str (addressHex f)) = some f := by
  rw [felt, addressHex, number_hexPadded 64 f.isLt, Option.map_some, Felt.ofNat_val]

theorem word_hexText {w : ℕ} (x : BitVec w) :
    word w (.str ("0x" ++ hexText x.toNat)) = some x := by
  rw [word, number_hexText x.isLt, Option.map_some, BitVec.ofNat_toNat, BitVec.setWidth_eq]

@[simp] theorem word_zero (w : ℕ) : word w (.str "0x0") = some 0 := by
  have h := word_hexText (0#w)
  rwa [BitVec.toNat_zero, show "0x" ++ hexText 0 = "0x0" by decide] at h

theorem mapM_map_eq_some {α β : Type} {read : β → Option α} {print : α → β}
    (h : ∀ a, read (print a) = some a) (l : List α) : (l.map print).mapM read = some l := by
  induction l with
  | nil => rfl
  | cons a l ih => simp [h a, ih]

@[simp] theorem felts_map (l : List Felt) :
    felts (.arr (l.map fun f => .str (feltHex f))) = some l := by
  simp only [felts, Json.asArray, Option.bind_some]
  exact mapM_map_eq_some felt_feltHex l

@[simp] theorem felts_nil : felts (.arr []) = some [] := rfl

theorem bound_obj {amount price : Json} {maxAmount : U64} {maxPricePerUnit : U128}
    (ha : word 64 amount = some maxAmount) (hp : word 128 price = some maxPricePerUnit) :
    bound (.obj [("max_amount", amount), ("max_price_per_unit", price)]) =
      some ⟨maxAmount, maxPricePerUnit⟩ := by
  have h₁ : (Json.obj [("max_amount", amount), ("max_price_per_unit", price)]).get? "max_amount" =
      some amount := rfl
  have h₂ : (Json.obj [("max_amount", amount), ("max_price_per_unit", price)]).get?
      "max_price_per_unit" = some price := rfl
  simp [bound, h₁, h₂, ha, hp]

/-- Reading an invoke, from its fields. -/
theorem invoke_eq_some {chain : ChainId} {tx bounds : Json} {x : InvokeV3}
    (hchain : x.chainId = chain.asFelt) (hbounds : tx.get? "resource_bounds" = some bounds)
    (hsender : (tx.get? "sender_address").bind felt = some x.sender)
    (hcalldata : (tx.get? "calldata").bind felts = some x.calldata)
    (hnonce : (tx.get? "nonce").bind felt = some x.nonce)
    (hdeploy : (tx.get? "account_deployment_data").bind felts = some x.accountDeploymentData)
    (htip : (tx.get? "tip").bind (word 64) = some x.tip)
    (hl1 : (bounds.get? "l1_gas").bind bound = some x.l1Gas)
    (hl2 : (bounds.get? "l2_gas").bind bound = some x.l2Gas)
    (hl1Data : (bounds.get? "l1_data_gas").bind bound = some x.l1DataGas)
    (hpaymaster : (tx.get? "paymaster_data").bind felts = some x.paymasterData)
    (hnonceDa : (tx.get? "nonce_data_availability_mode").bind daMode = some x.nonceDa)
    (hfeeDa : (tx.get? "fee_data_availability_mode").bind daMode = some x.feeDa)
    (hfacts : proofFacts tx = some x.proofFacts) : invoke chain tx = some x := by
  simp only [invoke, hbounds, hsender, hcalldata, hnonce, hdeploy, htip, hl1, hl2, hl1Data,
    hpaymaster, hnonceDa, hfeeDa, hfacts, ← hchain, Option.bind_eq_bind, Option.bind_some,
    Option.pure_def]

/-- Reading a declaration, from its fields. -/
theorem declare_eq_some {chain : ChainId} {tx bounds : Json} {x : DeclareV3}
    (hchain : x.chainId = chain.asFelt) (hbounds : tx.get? "resource_bounds" = some bounds)
    (hsender : (tx.get? "sender_address").bind felt = some x.sender)
    (hcompiled : (tx.get? "compiled_class_hash").bind felt = some x.compiledClassHash)
    (hnonce : (tx.get? "nonce").bind felt = some x.nonce)
    (htip : (tx.get? "tip").bind (word 64) = some x.tip)
    (hl1 : (bounds.get? "l1_gas").bind bound = some x.l1Gas)
    (hl2 : (bounds.get? "l2_gas").bind bound = some x.l2Gas)
    (hl1Data : (bounds.get? "l1_data_gas").bind bound = some x.l1DataGas)
    (hpaymaster : (tx.get? "paymaster_data").bind felts = some x.paymasterData)
    (hnonceDa : (tx.get? "nonce_data_availability_mode").bind daMode = some x.nonceDa)
    (hfeeDa : (tx.get? "fee_data_availability_mode").bind daMode = some x.feeDa)
    (hdeploy : (tx.get? "account_deployment_data").bind felts = some x.accountDeploymentData) :
    declare chain x.classHash tx = some x := by
  simp only [declare, hbounds, hsender, hcompiled, hnonce, htip, hl1, hl2, hl1Data, hpaymaster,
    hnonceDa, hfeeDa, hdeploy, ← hchain, Option.bind_eq_bind, Option.bind_some, Option.pure_def]

end Strkd.Wallet.Wire
