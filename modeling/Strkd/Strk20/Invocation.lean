import Strkd.Lib.Json
import Strkd.Strk20.Actions
import Strkd.Wallet.Wire

/-!
# The proof invocation and the call it proves

The virtual invoke a prover runs, the pool calling its own `compile_actions` with the user's viewing
key in its calldata, and the on-chain `apply_actions` call made from the proof's output.
-/

namespace Strkd.Strk20

open Wallet

/-- `Display` of an error of the STRK20 client. -/
def Error.display : Error → String
  | notOnCurve x => feltHex x ++ " is not the x-coordinate of a point on the Stark curve"
  | emptyProofOutput => "the proof carries no message from the pool"
  | notRegistered a => feltHex a ++ " has not registered a viewing key with the pool"
  | insufficientBalance token shortfall available =>
      "insufficient private balance of " ++ feltHex token ++ ": " ++ toString shortfall.toNat ++
        " short (have " ++ toString available.toNat ++ ")"
  | zeroAmount => "amount must be positive"
  | read m => "pool read failed: " ++ m
  | random m => "randomness unavailable: " ++ m

/-! ## The invocation -/

/-- L2 gas budget of a proof invocation. -/
def l2GasMaxAmount : U64 := 100000000

/-- An unsigned proof invocation. -/
structure ProofInvocation where
  pool : Felt
  chain : ChainId
  nonce : Felt
  /-- `__execute__` calldata: one call to `pool.compile_actions`. -/
  calldata : List Felt

namespace ProofInvocation

variable (K : Crates)

def new (pool : Felt) (chain : ChainId) (poolNonce userAddr userSk : Felt)
    (actions : List ClientAction) : ProofInvocation where
  pool
  chain
  nonce := poolNonce
  calldata := encodeCalls [{
    toAddr := pool
    selector := getSelectorFromName K "compile_actions"
    calldata := userAddr :: userSk :: serializeActions actions }]

def params (i : ProofInvocation) : InvokeV3Params where
  nonce := i.nonce
  l1Gas := ⟨1, 0⟩
  l2Gas := ⟨l2GasMaxAmount, 0⟩
  l1DataGas := ⟨1, 0⟩

/-- The one call of the calldata `[1, to, selector, len, ...inner]`. -/
def innerCall (i : ProofInvocation) : Call where
  toAddr := i.calldata.getD 1 0
  selector := i.calldata.getD 2 0
  calldata := i.calldata.drop 4

/-- The V3 transaction hash the user's account signs. -/
def hash (i : ProofInvocation) : Felt := invokeV3Hash K i.pool [i.innerCall] i.chain i.params

/-- The signed transaction in the shape `starknet_proveTransaction` takes. -/
def toRpcJson (i : ProofInvocation) (signature : List Felt) : Json :=
  let hex := fun f => Json.str (feltHex f)
  let bounds := fun amount : ℕ => Json.obj [
    ("max_amount", .str ("0x" ++ hexText amount)), ("max_price_per_unit", .str "0x0")]
  .obj [
    ("type", .str "INVOKE"),
    ("version", .str "0x3"),
    ("sender_address", hex i.pool),
    ("calldata", .arr (i.calldata.map hex)),
    ("signature", .arr (signature.map hex)),
    ("nonce", hex i.nonce),
    ("resource_bounds", .obj [("l1_gas", bounds 1), ("l2_gas", bounds l2GasMaxAmount.toNat),
      ("l1_data_gas", bounds 1)]),
    ("tip", .str "0x0"),
    ("paymaster_data", .arr []),
    ("account_deployment_data", .arr []),
    ("nonce_data_availability_mode", .str "L1"),
    ("fee_data_availability_mode", .str "L1")]

/-! ### What is hashed is what is sent -/

/-- The call an invocation proves. -/
def compileActions (pool userAddr userSk : Felt) (actions : List ClientAction) : Call where
  toAddr := pool
  selector := getSelectorFromName K "compile_actions"
  calldata := userAddr :: userSk :: serializeActions actions

theorem calldata_new (pool : Felt) (chain : ChainId) (poolNonce userAddr userSk : Felt)
    (actions : List ClientAction) :
    (new K pool chain poolNonce userAddr userSk actions).calldata =
      encodeCalls [compileActions K pool userAddr userSk actions] := rfl

/-- Slicing the calldata gives back the call that was encoded. -/
theorem innerCall_eq {i : ProofInvocation} {call : Call} (h : i.calldata = encodeCalls [call]) :
    i.innerCall = call := by
  simp [innerCall, h, encodeCalls]

/-- The V3 hash arguments the prover reads in the JSON of an invocation. -/
theorem invoke_toRpcJson (i : ProofInvocation) (chain : ChainId) (signature : List Felt) :
    Wire.invoke chain (i.toRpcJson signature) = some {
      sender := i.pool
      calldata := i.calldata
      chainId := chain.asFelt
      nonce := i.nonce
      accountDeploymentData := []
      tip := 0
      l1Gas := i.params.l1Gas
      l2Gas := i.params.l2Gas
      l1DataGas := i.params.l1DataGas
      paymasterData := []
      nonceDa := .l1
      feeDa := .l1
      proofFacts := [] } := by
  have one : Wire.word 64 (.str ("0x" ++ hexText 1)) = some 1 := Wire.word_hexText 1
  have l2 : Wire.word 64 (.str ("0x" ++ hexText l2GasMaxAmount.toNat)) = some l2GasMaxAmount :=
    Wire.word_hexText l2GasMaxAmount
  have hone := Wire.bound_obj one (Wire.word_zero 128)
  have hl2 := Wire.bound_obj l2 (Wire.word_zero 128)
  exact Wire.invoke_eq_some rfl rfl (Wire.felt_feltHex _) (Wire.felts_map _) (Wire.felt_feltHex _)
    rfl (Wire.word_zero 64) hone hl2 hone rfl rfl rfl rfl

/-- The hash an account signs is computed over exactly the fields the JSON of the invocation
carries, and its calldata is the encoding of the one `compile_actions` call. -/
theorem hash_toRpcJson (pool : Felt) (chain : ChainId) (poolNonce userAddr userSk : Felt)
    (actions : List ClientAction) (signature : List Felt) :
    let i := new K pool chain poolNonce userAddr userSk actions
    let tx := i.toRpcJson signature
    Wire.isV3 "INVOKE" tx ∧ Wire.signature tx = some signature ∧
      (∃ x, Wire.invoke chain tx = some x ∧ i.hash K = K.invokeV3Hash x) ∧
      i.calldata = encodeCalls [compileActions K pool userAddr userSk actions] ∧
      i.innerCall = compileActions K pool userAddr userSk actions ∧
      encodeCalls [i.innerCall] = i.calldata := by
  intro i tx
  have hcall : i.calldata = encodeCalls [compileActions K pool userAddr userSk actions] :=
    calldata_new K pool chain poolNonce userAddr userSk actions
  have hinner := innerCall_eq hcall
  refine ⟨⟨rfl, rfl⟩, Wire.felts_map signature, ⟨_, invoke_toRpcJson i chain signature, ?_⟩, hcall,
    hinner, by rw [hinner, hcall]⟩
  -- the slice is encoded again before it is hashed
  rw [hash, invokeV3Hash, hinner, ← hcall]
  rfl

end ProofInvocation

/-! ## Applying a proof -/

/-- A depositor screening attestation. -/
structure ScreeningAttestation where
  issuedAt : U64
  sigR : Felt
  sigS : Felt
  deriving DecidableEq, Repr

/-- Seconds an attestation stays valid. -/
def attestationMaxAgeSecs : U64 := 300

/-- The `apply_actions` call made from the pool's message payload. -/
def applyActionsCall (K : Crates) (pool : Felt) (messagePayload : List Felt)
    (screening : Option ScreeningAttestation) : Except Error Call :=
  match messagePayload with
  | [] => .error .emptyProofOutput
  | _ :: actions => .ok {
      toAddr := pool
      selector := getSelectorFromName K "apply_actions"
      calldata := actions ++ match screening with
        | none => [1]
        | some a => [0, .ofNat a.issuedAt.toNat, a.sigR, a.sigS] }

/-! ## The prover's result -/

/-- The pieces of a prover result the wallet uses. -/
structure ProvedInvocation where
  proof : String
  proofFacts : List Felt
  /-- The pool's L2→L1 payload: `[class_hash, ...server_actions]`. -/
  output : List Felt
  screening : Option ScreeningAttestation

section

variable (K : Crates)

def resultFelt (what : String) (x : Json) : Except String Felt :=
  match x.asStr.bind K.feltFromHex with
  | some f => .ok f
  | none => .error (what ++ ": bad felt " ++ x.render)

def resultFelts (v : Json) (what : String) : Except String (List Felt) :=
  match v.asArray with
  | none => .error (what ++ ": not an array")
  | some items => items.mapM (resultFelt K what)

def fromPool (pool : Felt) (message : Json) : Bool :=
  ((message.get? "from_address").bind Json.asStr).bind K.feltFromHex = some pool

/-- The screening attestation of a result, if it has one. -/
def attestationOf (result : Json) : Except String (Option ScreeningAttestation) :=
  match (result.get? "additional_data").bind fun d => d.get? "signature" with
  | none | some .null => .ok none
  | some sig =>
      match K.attestationFields sig with
      | .ok (issuedAt, sigR, sigS) => .ok (some { issuedAt, sigR, sigS })
      | .error e => .error ("bad screening attestation: " ++ e)

def parseResult (result : Json) (pool : Felt) : Except String ProvedInvocation := do
  let some proof := (result.get? "proof").bind Json.asStr | .error "no proof in the prover result"
  let proofFacts ← resultFelts K ((result.get? "proof_facts").getD .null) "proof_facts"
  let some messages := (result.get? "l2_to_l1_messages").bind Json.asArray |
    .error "no l2_to_l1_messages"
  let some message := messages.find? (fromPool K pool) |
    .error "the proof carries no message from the pool"
  let output ← resultFelts K ((message.get? "payload").getD .null) "payload"
  let screening ← attestationOf K result
  return { proof, proofFacts, output, screening }

end

end Strkd.Strk20
