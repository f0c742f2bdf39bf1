import Strkd.Rpc.Ops
import Strkd.Rpc.Params

/-!
# The Starknet node client

Nonces, fee estimates and broadcasts over the node's JSON-RPC, and the V3 transaction objects that
are broadcast and returned.
-/

namespace Strkd.Rpc

open Wallet

inductive NodeError where
  | transport (message : String)
  | rpc (message : String)
  | decode (message : String)
  deriving DecidableEq, Repr

def NodeError.display : NodeError → String
  | transport m => "transport: " ++ m
  | rpc m => "rpc: " ++ m
  | decode m => "decode: " ++ m

/-! ## Transaction objects -/

/-- A complete RPC `INVOKE_TXN_V3` object. -/
def invokeV3TxJson (sender : Felt) (calldata signature : List Felt) (nonce : Felt)
    (bounds : FeeBounds) (proofFacts : List Felt) (proof : Option String) : Json := .obj <| [
  ("type", .str "INVOKE"),
  ("version", .str "0x3"),
  ("sender_address", .str (addressHex sender)),
  ("calldata", feltArr calldata),
  ("signature", feltArr signature),
  ("nonce", .str (feltHex nonce)),
  ("resource_bounds", boundsJson bounds),
  ("tip", .str "0x0"),
  ("paymaster_data", .arr []),
  ("account_deployment_data", .arr []),
  ("nonce_data_availability_mode", .str "L1"),
  ("fee_data_availability_mode", .str "L1")]
  ++ if proofFacts = [] then []
    else ("proof_facts", feltArr proofFacts) :: match proof with
      | some p => [("proof", .str p)]
      | none => []

/-- A complete RPC `BROADCASTED_DECLARE_TXN_V3` object. -/
def declareV3TxJson (sender compiledClassHash : Felt) (contractClass : Option Json)
    (signature : List Felt) (nonce : Felt) (bounds : FeeBounds) : Json := .obj <| [
  ("type", .str "DECLARE"),
  ("version", .str "0x3"),
  ("sender_address", .str (feltHex sender)),
  ("compiled_class_hash", .str (feltHex compiledClassHash)),
  ("signature", feltArr signature),
  ("nonce", .str (feltHex nonce)),
  ("resource_bounds", boundsJson bounds),
  ("tip", .str "0x0"),
  ("paymaster_data", .arr []),
  ("account_deployment_data", .arr []),
  ("nonce_data_availability_mode", .str "L1"),
  ("fee_data_availability_mode", .str "L1")]
  ++ match contractClass with
    | some cc => [("contract_class", cc)]
    | none => []

/-- The `DEPLOY_ACCOUNT` object of an estimate or a broadcast; its nonce is always 0. -/
def deployAccountTxJson (classHash : Felt) (constructorCalldata : List Felt) (salt : Felt)
    (signature : List Felt) (bounds : FeeBounds) : Json := .obj [
  ("type", .str "DEPLOY_ACCOUNT"),
  ("version", .str "0x3"),
  ("class_hash", .str (feltHex classHash)),
  ("contract_address_salt", .str (feltHex salt)),
  ("constructor_calldata", feltArr constructorCalldata),
  ("signature", feltArr signature),
  ("nonce", .str "0x0"),
  ("resource_bounds", boundsJson bounds),
  ("tip", .str "0x0"),
  ("paymaster_data", .arr []),
  ("nonce_data_availability_mode", .str "L1"),
  ("fee_data_availability_mode", .str "L1")]

def zeroBounds : FeeBounds := ⟨.zero, .zero, .zero⟩

/-! ## Answers -/

/-- The result of a JSON-RPC reply. -/
def rpcResult : HttpReply → Except NodeError Json
  | .transport m => .error (.transport m)
  | .undecodable m => .error (.decode m)
  | .body v =>
      match v.get? "error" with
      | some err => .error (.rpc err.render)
      | none =>
          match v.get? "result" with
          | some r => .ok r
          | none => .error (.decode "missing result")

section

variable (K : Crates)

def parseFelt (v : Json) (what : String) : Except NodeError Felt :=
  match v.asStr with
  | none => .error (.decode (what ++ ": expected hex string"))
  | some s =>
      match K.feltFromHex s with
      | some f => .ok f
      | none => .error (.decode (what ++ ": bad felt " ++ s))

end

def parseU128 (v : Json) (what : String) : Except NodeError ℕ :=
  match v.asStr with
  | none => .error (.decode (what ++ ": expected hex string"))
  | some s =>
      match parseRadix 16 (2 ^ 128) ((stripPrefix "0x" s).getD s) with
      | some n => .ok n
      | none => .error (.decode (what ++ ": bad u128"))

/-- A figure with half of it on top, saturating at the largest `u128`. -/
def withMargin (v : ℕ) : ℕ := min (v * 150) (2 ^ 128 - 1) / 100

/-- `est[key]` -/
def field (est : Json) (key : String) : Json := (est.get? key).getD .null

def boundFromEstimate (est : Json) (amountKey priceKey : String) :
    Except NodeError ResourceBounds := do
  let amount ← parseU128 (field est amountKey) amountKey
  let price ← parseU128 (field est priceKey) priceKey
  return ⟨BitVec.ofNat 64 (withMargin amount), BitVec.ofNat 128 (withMargin price)⟩

def boundsFromEstimate (est : Json) : Except NodeError FeeBounds := do
  let l1Gas ← boundFromEstimate est "l1_gas_consumed" "l1_gas_price"
  let l2Gas ← boundFromEstimate est "l2_gas_consumed" "l2_gas_price"
  let l1DataGas ← boundFromEstimate est "l1_data_gas_consumed" "l1_data_gas_price"
  return ⟨l1Gas, l2Gas, l1DataGas⟩

/-- The first element of an array result. -/
def firstItem (r : Json) (message : String) : Except NodeError Json :=
  match r.asArray.bind List.head? with
  | some v => .ok v
  | none => .error (.decode message)

/-! ## The client -/

namespace Node

abbrev NodeM := Handler NodeError Op Ans

variable (K : Crates) (chain : ChainId)

def call (method : String) (params : Json) : NodeM Json := do
  let reply ← ExceptT.lift (Prog.perform (.nodeRpc chain method params))
  rpcResult reply

def getNonce (address : Felt) : NodeM Felt := do
  let r ← call chain "starknet_getNonce" (.arr [.str "latest", .str (feltHex address)])
  parseFelt K r "nonce"

def estimate (tx : Json) : NodeM FeeBounds := do
  let r ← call chain "starknet_estimateFee" (.obj [("request", .arr [tx]),
    ("simulation_flags", .arr [.str "SKIP_VALIDATE"]), ("block_id", .str "latest")])
  let est ← firstItem r "empty estimate array"
  boundsFromEstimate est

def estimateInvoke (sender : Felt) (calldata : List Felt) (nonce : Felt) : NodeM FeeBounds :=
  estimate chain (invokeV3TxJson sender calldata [] nonce zeroBounds [] none)

def estimateInvokeWithProof (sender : Felt) (calldata : List Felt) (nonce : Felt)
    (proofFacts : List Felt) (proof : String) : NodeM FeeBounds :=
  estimate chain (invokeV3TxJson sender calldata [] nonce zeroBounds proofFacts (some proof))

def estimateDeployAccount (classHash : Felt) (constructorCalldata : List Felt) (salt : Felt) :
    NodeM FeeBounds :=
  estimate chain (deployAccountTxJson classHash constructorCalldata salt [] zeroBounds)

def estimateDeclare (sender compiledClassHash : Felt) (contractClass : Json) (nonce : Felt) :
    NodeM FeeBounds :=
  estimate chain (declareV3TxJson sender compiledClassHash (some contractClass) [] nonce zeroBounds)

def transactionHash (r : Json) : Except NodeError Felt :=
  parseFelt K (field r "transaction_hash") "transaction_hash"

def addInvoke (sender : Felt) (calldata signature : List Felt) (nonce : Felt) (bounds : FeeBounds)
    (proofFacts : List Felt) (proof : Option String) : NodeM Felt := do
  let tx := invokeV3TxJson sender calldata signature nonce bounds proofFacts proof
  let r ← call chain "starknet_addInvokeTransaction" (.obj [("invoke_transaction", tx)])
  transactionHash K r

def addDeployAccount (classHash : Felt) (constructorCalldata : List Felt) (salt : Felt)
    (signature : List Felt) (bounds : FeeBounds) : NodeM Felt := do
  let tx := deployAccountTxJson classHash constructorCalldata salt signature bounds
  let r ← call chain "starknet_addDeployAccountTransaction"
    (.obj [("deploy_account_transaction", tx)])
  transactionHash K r

def addDeclare (sender compiledClassHash : Felt) (contractClass : Json) (signature : List Felt)
    (nonce : Felt) (bounds : FeeBounds) : NodeM Felt := do
  let tx := declareV3TxJson sender compiledClassHash (some contractClass) signature nonce bounds
  let r ← call chain "starknet_addDeclareTransaction" (.obj [("declare_transaction", tx)])
  transactionHash K r

/-- Whether an address has a class; an RPC error counts as no. -/
def isDeployed (address : Felt) : NodeM Bool := do
  let reply ← ExceptT.lift (Prog.perform
    (.nodeRpc chain "starknet_getClassHashAt" (.arr [.str "latest", .str (feltHex address)])))
  match rpcResult reply with
  | .ok _ => return true
  | .error (.rpc _) => return false
  | .error e => throw e

end Node

end Strkd.Rpc
