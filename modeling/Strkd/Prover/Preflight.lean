import Strkd.Lib.Twins
import Strkd.Prover.Reports
import Strkd.Prover.Settings

/-!
# Before a native proof

What the native prover checks of a payload, and asks a node, before it hands the payload to the
prover CLI.  Of the transaction it looks at the signature's presence, the sender and the nonce: the
calldata has no part in what it asks (`twins_prove`).
-/

namespace Strkd.Prover

/-! ## The code -/

/-- `STRK_FEE_TOKEN` -/
def strkFeeToken : String := "0x04718f5a0fc34cc1af16a1cdee98ffb20c31f5cd61d6ab07201858f4287c938d"

/-- Validated inputs for one prove. -/
structure ProveInputs where
  tx : Json
  blockNumber : ℕ
  chainId : String
  strk : String
  rpcUrl : String

/-- How a post to a node ends. -/
inductive PostReply where
  | failed (e : String)
  | redirect (status location : String)
  | unreadable (e : String)
  | refused (status text : String)
  | undecodable (e text : String)
  | body (v : Json)

inductive ProverOp where
  /-- Whether the CLI is there. -/
  | binExists
  /-- `SettingsStore::for_network` -/
  | forNetwork (network : String)
  /-- A JSON-RPC post to a node. -/
  | post (rpc method : String) (params : Json)
  /-- The CLI, from its start to the outputs read. -/
  | runCli (inputs : ProveInputs)

@[reducible] def ProverAns : ProverOp → Type
  | .binExists => Bool
  | .forNetwork _ => NetworkConfig
  | .post _ _ _ => PostReply
  | .runCli _ => Except String Json

/-- A computation of the native prover. -/
abbrev Proves := Handler String ProverOp ProverAns

def consult (op : ProverOp) : Proves (ProverAns op) := ExceptT.lift (Prog.perform op)

/-- What a reply of a node comes to. -/
def PostReply.result (method : String) : PostReply → Except String Json
  | .failed e => .error ("rpc " ++ method ++ ": request failed (" ++ e ++ ")")
  | .redirect status location => .error ("rpc " ++ method ++ ": rpc_url returned " ++ status ++
      " → " ++ location ++ ". JSON-RPC needs the final URL — set the https URL directly in " ++
      "Settings (a 301 silently turns the POST into a GET).")
  | .unreadable e => .error ("rpc " ++ method ++ ": reading body failed (" ++ e ++ ")")
  | .refused status text => .error ("rpc " ++ method ++ ": HTTP " ++ status ++ ": " ++ snippet text)
  | .undecodable e text => .error ("rpc " ++ method ++ ": non-JSON response (" ++ e ++ "); body: " ++
      snippet text)
  | .body v => .ok v

/-- A JSON-RPC call. -/
def rpcCall (rpc method : String) (params : Json) : Proves Json := do
  let reply ← consult (.post rpc method params)
  reply.result method

def latestBlock (rpc : String) : Proves ℕ := do
  let v ← rpcCall rpc "starknet_blockNumber" (.arr [])
  match (v.get? "result").bind Json.asU64 with
  | some n => return n
  | none => throw ("rpc blockNumber: unexpected response " ++ v.render)

/-- `trim_start_matches("0x")` -/
def trimStart0x : List Char → List Char
  | '0' :: 'x' :: cs => trimStart0x cs
  | cs => cs

/-- A nonce that fits 64 bits. -/
def nonceValue (s : String) : Option ℕ :=
  parseRadix 16 (2 ^ 64) (String.ofList (trimStart0x s.toList))

/-- The sender and the nonce of a transaction, when it has both as text. -/
def senderAndNonce (tx : Json) : Option (String × String) := do
  let sender ← (tx.get? "sender_address").bind Json.asStr
  let nonce ← (tx.get? "nonce").bind Json.asStr
  return (sender, nonce)

/-- Check the nonce of a transaction against the account's at a block. -/
def checkNonce (rpc : String) (tx : Json) (block : ℕ) : Proves Unit :=
  match senderAndNonce tx with
  | none => return ()
  | some (sender, txNonce) => do
      let v ← rpcCall rpc "starknet_getNonce"
        (.arr [.obj [("block_number", .int block)], .str sender])
      match (v.get? "result").bind Json.asStr with
      | none => return ()
      | some chainNonce =>
          match nonceValue txNonce, nonceValue chainNonce with
          | some a, some b =>
              if a ≠ b then
                throw ("nonce mismatch: virtual tx has nonce " ++ txNonce ++ " but account " ++
                  sender ++ " had nonce " ++ chainNonce ++ " at block " ++ toString block ++
                  ". The virtual tx nonce must equal the account nonce at the reference block, " ++
                  "not just the current nonce.")
          | _, _ => return ()

/-- `(chain_id, strk_fee_token)` of a network name. -/
def netParams (network : String) : String × String :=
  if network = "testnet" ∨ network = "sepolia" then ("SN_SEPOLIA", strkFeeToken)
  else ("SN_MAIN", strkFeeToken)

/-- Whether a transaction carries a signature. -/
def isSigned (tx : Json) : Bool :=
  match (tx.get? "signature").bind Json.asArray with
  | some items => !items.isEmpty
  | none => false

/-- The block to prove at: the payload's own, or two behind the latest. -/
def referenceBlock (rpc : String) (payload : Json) : Proves ℕ :=
  match (payload.get? "block_number").bind Json.asU64 with
  | some n => return n
  | none => do
      let latest ← latestBlock rpc
      return latest - 2

/-- Validate the request and resolve its reference block and nonce. -/
def preflight (payload : Json) (network : String) : Proves ProveInputs := do
  let net ← consult (.forNetwork network)
  if net.rpcUrl = "" then
    throw ("no RPC URL configured for " ++ network ++ " (set it in Settings)")
  match payload.get? "transaction" with
  | none => throw "payload missing `transaction` (the signed Tx A)"
  | some tx => do
      if isSigned tx = false then
        throw ("transaction is not signed (missing/empty `signature`); the prover proves " ++
          "pre-signed transactions only and never signs")
      let blockNumber ← referenceBlock net.rpcUrl payload
      checkNonce net.rpcUrl tx blockNumber
      let (chainId, strk) := netParams network
      return { tx, blockNumber, chainId, strk, rpcUrl := net.rpcUrl }

/-- The native prover: its checks, then the CLI. -/
def prove (bin : String) (payload : Json) (network : String) : Proves Json := do
  let found ← consult .binExists
  if found = false then
    throw ("snip36 binary not found at " ++ bin ++ " (set STRKD_SNIP36_BIN)")
  let inputs ← preflight payload network
  let result ← consult (.runCli inputs)
  result

/-! ## What the checks read -/

/-- What the checks read of a payload. -/
structure Checked where
  transaction : Option (Bool × Option (String × String))
  blockNumber : Option ℕ
  deriving DecidableEq

def checkedOf (payload : Json) : Checked where
  transaction := (payload.get? "transaction").map fun tx => (isSigned tx, senderAndNonce tx)
  blockNumber := (payload.get? "block_number").bind Json.asU64

/-- The same request to the settings and the nodes, and one answer; what the CLI is handed and what
it does is left open. -/
def likeProver : Likeness ProverOp ProverAns where
  op
    | .runCli _, .runCli _ => True
    | op₁, op₂ => op₁ = op₂
  ans
    | .runCli _, _, .runCli _, _ => True
    | _, a₁, _, a₂ => HEq a₁ a₂

/-- A post to a node: where it goes, the method and the parameters. -/
def postOf : ProverOp → Option (String × String × Json)
  | .post rpc method params => some (rpc, method, params)
  | _ => none

/-- The posts of a run. -/
def posts (tr : List (Event ProverOp ProverAns)) : List (String × String × Json) :=
  tr.filterMap fun e => postOf e.1

theorem postOf_alike (op₁ op₂ : ProverOp) (h : likeProver.op op₁ op₂) :
    Option.Rel Eq (postOf op₁) (postOf op₂) := by
  cases op₁ with
  | runCli inputs₁ =>
      cases op₂ with
      | runCli inputs₂ => exact .none
      | _ => cases h
  | post rpc method params =>
      cases h
      exact .some rfl
  | _ =>
      cases h
      exact .none

theorem posts_alike {tr₁ tr₂ : List (Event ProverOp ProverAns)}
    (h : List.Forall₂ (LikeEvents likeProver) tr₁ tr₂) : posts tr₁ = posts tr₂ :=
  List.forall₂_eq_eq_eq ▸ filterMap_alike postOf_alike h

/-- An operation that does not start the CLI. -/
def beforeCli : ProverOp → Bool
  | .runCli _ => false
  | _ => true

theorem likeProver_same {op : ProverOp} (h : beforeCli op = true) :
    likeProver.op op op ∧ ∀ a b, likeProver.ans op a op b → a = b := by
  cases op with
  | runCli inputs => cases h
  | _ => exact ⟨rfl, fun a b hab => eq_of_heq hab⟩

section

variable {α β : Type} {Q : α → β → Prop}

theorem twins_consult {op : ProverOp} (hop : beforeCli op = true)
    {f : ProverAns op → Proves α} {g : ProverAns op → Proves β}
    (h : ∀ a, TwinHandlers likeProver (f a) (g a) Q) :
    TwinHandlers likeProver (consult op >>= f) (consult op >>= g) Q :=
  .act (likeProver_same hop).1 fun a b hab => by
    rw [(likeProver_same hop).2 a b hab]
    exact h b

theorem beforeCli_rpcCall (rpc method : String) (params : Json) :
    Confined (fun op => beforeCli op = true) (rpcCall rpc method params) :=
  .bind (show Confined _ (consult _) from ⟨rfl, fun _ => trivial⟩) fun _ => .lift _

theorem beforeCli_latestBlock (rpc : String) :
    Confined (fun op => beforeCli op = true) (latestBlock rpc) := by
  refine .bind (beforeCli_rpcCall ..) fun v => ?_
  split
  · exact .pure _
  · exact .throw _

/-- The block depends on what the checks read. -/
theorem twins_referenceBlock {rpc : String} {p₁ p₂ : Json}
    (h : (p₁.get? "block_number").bind Json.asU64 = (p₂.get? "block_number").bind Json.asU64)
    {f : ℕ → Proves α} {g : ℕ → Proves β} (hf : ∀ n, TwinHandlers likeProver (f n) (g n) Q) :
    TwinHandlers likeProver (referenceBlock rpc p₁ >>= f) (referenceBlock rpc p₂ >>= g) Q := by
  have heq : referenceBlock rpc p₁ = referenceBlock rpc p₂ := by rw [referenceBlock, h]; rfl
  have hconf : Confined (fun op => beforeCli op = true) (referenceBlock rpc p₂) := by
    rw [referenceBlock]
    split
    · exact .pure _
    · exact .bind (beforeCli_latestBlock rpc) fun _ => .pure _
  rw [heq]
  exact .same hconf (fun _ => likeProver_same) hf

theorem beforeCli_checkNonce (rpc : String) (tx : Json) (block : ℕ) :
    Confined (fun op => beforeCli op = true) (checkNonce rpc tx block) := by
  rw [checkNonce]
  split
  · exact .pure _
  · refine .bind (beforeCli_rpcCall ..) fun v => ?_
    split
    · exact .pure _
    · split
      · exact .exit (.throw _) fun _ => .pure _
      · exact .pure _

theorem checkNonce_congr {rpc : String} {tx₁ tx₂ : Json}
    (h : senderAndNonce tx₁ = senderAndNonce tx₂) (block : ℕ) :
    checkNonce rpc tx₁ block = checkNonce rpc tx₂ block := by
  rw [checkNonce, h]; rfl

end

/-- What the checks ask depends on what they read of a payload only. -/
theorem twins_preflight {p₁ p₂ : Json} (h : checkedOf p₁ = checkedOf p₂) (network : String) :
    TwinHandlers likeProver (preflight p₁ network) (preflight p₂ network) fun _ _ => True := by
  obtain ⟨htx, hblock⟩ := Checked.mk.inj h
  refine twins_consult rfl fun net => .refuse Iff.rfl fun _ => ?_
  cases h₁ : p₁.get? "transaction" with
  | none =>
      cases h₂ : p₂.get? "transaction" with
      | none => exact .throw
      | some tx₂ => rw [h₁, h₂] at htx; cases htx
  | some tx₁ =>
      cases h₂ : p₂.get? "transaction" with
      | none => rw [h₁, h₂] at htx; cases htx
      | some tx₂ =>
          rw [h₁, h₂] at htx
          obtain ⟨hsigned, hsender⟩ := Prod.mk.inj (Option.some.inj htx)
          refine .refuse (by rw [hsigned]) fun _ => twins_referenceBlock hblock fun block => ?_
          rw [checkNonce_congr hsender]
          exact .same (beforeCli_checkNonce ..) (fun _ => likeProver_same) fun _ => .pure trivial

/-- What the prover asks before the CLI depends on what its checks read of a payload only. -/
theorem twins_prove {p₁ p₂ : Json} (h : checkedOf p₁ = checkedOf p₂) (bin network : String) :
    Twins likeProver (fun _ _ => True) (prove bin p₁ network).run (prove bin p₂ network).run := by
  refine ⟨rfl, fun found₁ found₂ hfound => ?_⟩
  cases eq_of_heq hfound
  cases found₁ with
  | false => trivial
  | true =>
      refine Twins.bind (p := (preflight p₁ network).run) (q := (preflight p₂ network).run)
        (twins_preflight h network) fun r₁ r₂ hr => ?_
      cases r₁ with
      | error e₁ =>
          cases r₂ with
          | error e₂ => trivial
          | ok inputs₂ => exact hr.elim
      | ok inputs₁ =>
          cases r₂ with
          | error e₂ => exact hr.elim
          | ok inputs₂ =>
              refine ⟨trivial, fun a₁ a₂ _ => ?_⟩
              cases a₁ <;> cases a₂ <;> trivial

end Strkd.Prover
