import Strkd.Rpc.Node
import Strkd.Wallet.Wire

/-!
# What the transaction objects carry

Each of the three transaction objects, read off the wire, gives back the arguments of the V3 hash
it was built from, and the signature.
-/

namespace Strkd.Rpc

open Wallet

theorem bound_boundJson (b : ResourceBounds) : Wire.bound (boundJson b) = some b :=
  Wire.bound_obj (Wire.word_hexText _) (Wire.word_hexText _)

/-! ## Invokes -/

theorem proofFacts_invokeV3TxJson (sender : Felt) (calldata signature : List Felt) (nonce : Felt)
    (bounds : FeeBounds) (proofFacts : List Felt) (proof : Option String) :
    Wire.proofFacts (invokeV3TxJson sender calldata signature nonce bounds proofFacts proof) =
      some proofFacts := by
  cases proofFacts with
  | nil => rfl
  | cons f rest => exact Wire.felts_map (f :: rest)

/-- The V3 hash arguments a node reads in the JSON of an invoke. -/
theorem wire_invokeV3TxJson (chain : ChainId) (sender : Felt) (calldata signature : List Felt)
    (nonce : Felt) (bounds : FeeBounds) (proofFacts : List Felt) (proof : Option String) :
    Wire.invoke chain (invokeV3TxJson sender calldata signature nonce bounds proofFacts proof) =
      some {
        sender
        calldata
        chainId := chain.asFelt
        nonce
        accountDeploymentData := []
        tip := 0
        l1Gas := bounds.l1Gas
        l2Gas := bounds.l2Gas
        l1DataGas := bounds.l1DataGas
        paymasterData := []
        nonceDa := .l1
        feeDa := .l1
        proofFacts } :=
  Wire.invoke_eq_some rfl rfl (Wire.felt_addressHex _) (Wire.felts_map _) (Wire.felt_feltHex _)
    rfl (Wire.word_zero 64) (bound_boundJson _) (bound_boundJson _) (bound_boundJson _) rfl rfl rfl
    (proofFacts_invokeV3TxJson ..)

/-- An invoke carries what its signature was made over: the sender's calls under `p`. -/
theorem invokeV3TxJson_signed (K : Crates) (chain : ChainId) (sender : Felt) (calls : List Call)
    (signature : List Felt) (nonce : Felt) (bounds : FeeBounds) (proofFacts : List Felt)
    (proof : Option String) :
    let tx := invokeV3TxJson sender (encodeCalls calls) signature nonce bounds proofFacts proof
    Wire.isV3 "INVOKE" tx ∧ Wire.signature tx = some signature ∧
      ∃ x, Wire.invoke chain tx = some x ∧ K.invokeV3Hash x = invokeV3Hash K sender calls chain
        { nonce, l1Gas := bounds.l1Gas, l2Gas := bounds.l2Gas, l1DataGas := bounds.l1DataGas,
          proofFacts } :=
  ⟨⟨rfl, rfl⟩, Wire.felts_map _, _, wire_invokeV3TxJson .., rfl⟩

/-! ## Declarations -/

theorem wire_declareV3TxJson (chain : ChainId) (sender classHash compiledClassHash : Felt)
    (contractClass : Option Json) (signature : List Felt) (nonce : Felt) (bounds : FeeBounds) :
    Wire.declare chain classHash
        (declareV3TxJson sender compiledClassHash contractClass signature nonce bounds) =
      some {
        sender
        classHash
        compiledClassHash
        chainId := chain.asFelt
        nonce
        tip := 0
        l1Gas := bounds.l1Gas
        l2Gas := bounds.l2Gas
        l1DataGas := bounds.l1DataGas
        paymasterData := []
        nonceDa := .l1
        feeDa := .l1
        accountDeploymentData := [] } := by
  cases contractClass <;>
    exact Wire.declare_eq_some (x := ⟨_, _, _, _, _, _, _, _, _, _, _, _, _⟩) rfl rfl
      (Wire.felt_feltHex _) (Wire.felt_feltHex _) (Wire.felt_feltHex _) (Wire.word_zero 64)
      (bound_boundJson _) (bound_boundJson _) (bound_boundJson _) rfl rfl rfl rfl

theorem declareV3TxJson_signed (K : Crates) (chain : ChainId)
    (sender classHash compiledClassHash : Felt) (contractClass : Option Json)
    (signature : List Felt) (nonce : Felt) (bounds : FeeBounds) :
    let tx := declareV3TxJson sender compiledClassHash contractClass signature nonce bounds
    Wire.isV3 "DECLARE" tx ∧ Wire.signature tx = some signature ∧
      ∃ x, Wire.declare chain classHash tx = some x ∧
        K.declareV3Hash x = declareV3Hash K sender classHash compiledClassHash chain
          { nonce, l1Gas := bounds.l1Gas, l2Gas := bounds.l2Gas, l1DataGas := bounds.l1DataGas } :=
  ⟨⟨rfl, rfl⟩, Wire.felts_map _, _, wire_declareV3TxJson .., rfl⟩

/-! ## Deployments -/

theorem wire_deployAccountTxJson (address : Felt → Felt → List Felt → Felt) (chain : ChainId)
    (classHash : Felt) (constructorCalldata : List Felt) (salt : Felt) (signature : List Felt)
    (bounds : FeeBounds) :
    Wire.deployAccount address chain
        (deployAccountTxJson classHash constructorCalldata salt signature bounds) =
      some {
        deployment := ⟨address classHash salt constructorCalldata, classHash, salt,
          constructorCalldata⟩
        chainId := chain.asFelt
        nonce := 0
        tip := 0
        l1Gas := bounds.l1Gas
        l2Gas := bounds.l2Gas
        l1DataGas := bounds.l1DataGas
        paymasterData := []
        nonceDa := .l1
        feeDa := .l1 } := by
  generalize htx : deployAccountTxJson classHash constructorCalldata salt signature bounds = tx
  have hbounds : tx.get? "resource_bounds" = some (boundsJson bounds) := by rw [← htx]; rfl
  have hclass : (tx.get? "class_hash").bind Wire.felt = some classHash := by
    rw [← htx]
    exact Wire.felt_feltHex _
  have hsalt : (tx.get? "contract_address_salt").bind Wire.felt = some salt := by
    rw [← htx]
    exact Wire.felt_feltHex _
  have hcalldata : (tx.get? "constructor_calldata").bind Wire.felts = some constructorCalldata := by
    rw [← htx]
    exact Wire.felts_map _
  have hnonce : (tx.get? "nonce").bind Wire.felt = some 0 := by
    rw [← htx]
    exact Wire.felt_feltHex 0
  have htip : (tx.get? "tip").bind (Wire.word 64) = some 0 := by
    rw [← htx]
    exact Wire.word_zero 64
  have hl1 : ((boundsJson bounds).get? "l1_gas").bind Wire.bound = some bounds.l1Gas :=
    bound_boundJson _
  have hl2 : ((boundsJson bounds).get? "l2_gas").bind Wire.bound = some bounds.l2Gas :=
    bound_boundJson _
  have hl1Data : ((boundsJson bounds).get? "l1_data_gas").bind Wire.bound = some bounds.l1DataGas :=
    bound_boundJson _
  have hpaymaster : (tx.get? "paymaster_data").bind Wire.felts = some [] := by rw [← htx]; rfl
  have hnonceDa : (tx.get? "nonce_data_availability_mode").bind Wire.daMode = some .l1 := by
    rw [← htx]
    rfl
  have hfeeDa : (tx.get? "fee_data_availability_mode").bind Wire.daMode = some .l1 := by
    rw [← htx]
    rfl
  simp only [Wire.deployAccount, hbounds, hclass, hsalt, hcalldata, hnonce, htip, hl1, hl2, hl1Data,
    hpaymaster, hnonceDa, hfeeDa, Option.bind_eq_bind, Option.bind_some, Option.pure_def]

end Strkd.Rpc
