import Strkd.Lib.Binary64
import Strkd.Lib.Except
import Strkd.Rpc.Error
import Strkd.Wallet.ClassHash

/-!
# Request parameters

Reading the parameters of a request, and the short texts its approval prompt shows.
-/

namespace Strkd.Rpc

open Wallet

/-- The three V3 resource bounds. -/
structure FeeBounds where
  l1Gas : ResourceBounds
  l2Gas : ResourceBounds
  l1DataGas : ResourceBounds
  deriving DecidableEq, Repr

def feltArr (felts : List Felt) : Json := .arr (felts.map fun f => .str (feltHex f))

/-- `ChainId::from_felt` -/
def chainOfFelt (f : Felt) : Option ChainId :=
  if f = ChainId.mainnet.asFelt then some .mainnet
  else if f = ChainId.sepolia.asFelt then some .sepolia
  else none

/-! ## Scalars -/

def parseU128Str (text : String) : Except WalletRpcError ℕ :=
  let s := trim text
  let parsed := match stripPrefix "0x" s with
    | some h => parseRadix 16 (2 ^ 128) h
    | none => parseRadix 10 (2 ^ 128) s
  match parsed with
  | some n => .ok n
  | none => invalidRequest ("invalid u128 value '" ++ s ++ "'")

def parseU128Field (params : Json) (key : String) : Except WalletRpcError ℕ :=
  match params.get? key with
  | some (.str s) => parseU128Str s
  | some (.int n) =>
      match (Json.int n).asU64 with
      | some n => .ok n
      | none => invalidRequest ("bad " ++ key)
  | some (.float _) => invalidRequest ("bad " ++ key)
  | _ => invalidRequest ("missing '" ++ key ++ "'")

def optParamStr (params : Json) (key : String) : Option String := (params.get? key).bind Json.asStr

def paramStr (params : Json) (key : String) : Except WalletRpcError String :=
  match optParamStr params key with
  | some s => .ok s
  | none => invalidRequest ("missing string param '" ++ key ++ "'")

/-- A boolean flag that counts only when it is `true`. -/
def paramFlag (params : Json) (key : String) : Bool :=
  (params.get? key).bind Json.asBool = some true

/-- A parameter that is present and not null. -/
def presentParam (params : Json) (key : String) : Option Json :=
  match params.get? key with
  | some v => if v.isNull then none else some v
  | none => none

section

variable (K : Crates)

def normalizeAddress (s : String) : Except WalletRpcError String :=
  match K.feltFromHex s with
  | some f => .ok (addressHex f)
  | none => invalidRequest "invalid account_address"

def feltFrom (value : Json) (what : String) : Except WalletRpcError Felt :=
  match value.asStr with
  | none => invalidRequest (what ++ " must be a hex string")
  | some s =>
      match K.feltFromHex s with
      | some f => .ok f
      | none => invalidRequest ("invalid felt for " ++ what)

end

/-! ## Fee bounds -/

/-- One number of a resource bound: a string, an integer, or zero when absent. -/
def boundField (v : Json) (field : String) : Except WalletRpcError ℕ :=
  match v.get? field with
  | some (.str text) =>
      let s := trim text
      let parsed := match stripPrefix "0x" s with
        | some h => parseRadix 16 (2 ^ 128) h
        | none => parseRadix 10 (2 ^ 128) s
      match parsed with
      | some n => .ok n
      | none => invalidRequest ("bad " ++ field)
  | some (.int n) =>
      match (Json.int n).asU64 with
      | some n => .ok n
      | none => invalidRequest ("bad " ++ field)
  | some (.float _) => invalidRequest ("bad " ++ field)
  | _ => .ok 0

/-- A resource bound; the amount is cast to 64 bits. -/
def parseResourceBounds (v : Json) : Except WalletRpcError ResourceBounds := do
  let maxAmount ← boundField v "max_amount"
  let maxPricePerUnit ← boundField v "max_price_per_unit"
  return ⟨BitVec.ofNat 64 maxAmount, BitVec.ofNat 128 maxPricePerUnit⟩

def boundsOf (rb : Json) (key : String) : Except WalletRpcError ResourceBounds :=
  match rb.get? key with
  | some v => parseResourceBounds v
  | none => invalidRequest ("resource_bounds missing '" ++ key ++ "'")

/-- Optional caller-supplied resource bounds. -/
def optFeeBounds (params : Json) : Except WalletRpcError (Option FeeBounds) :=
  match presentParam params "resource_bounds" with
  | none => .ok none
  | some rb => do
      let l1Gas ← boundsOf rb "l1_gas"
      let l2Gas ← boundsOf rb "l2_gas"
      let l1DataGas ← boundsOf rb "l1_data_gas"
      return some ⟨l1Gas, l2Gas, l1DataGas⟩

/-! ## Calls -/

section

variable (K : Crates)

/-- The first of several keys that is present. -/
def firstOf (v : Json) : List String → Option Json
  | [] => none
  | key :: rest => v.get? key <|> firstOf v rest

def parseCalldata (c : Json) : Except WalletRpcError (List Felt) :=
  match c.get? "calldata" with
  | some (.arr items) => items.mapM fun v => feltFrom K v "calldata element"
  | none | some .null => .ok []
  | some _ => invalidRequest "calldata must be an array"

def parseSelector (c : Json) : Except WalletRpcError Felt :=
  match (firstOf c ["entry_point_selector", "entrypoint", "entry_point", "selector"]).bind
      Json.asStr with
  | none => invalidRequest ("call missing entry_point_selector (or entrypoint) — a function name " ++
      "or 0x selector")
  | some s =>
      match resolveSelector K s with
      | .ok f => .ok f
      | .error _ => invalidRequest "bad entry_point_selector"

def parseCall (c : Json) : Except WalletRpcError Call :=
  match firstOf c ["contract_address", "contractAddress", "to"] with
  | none => invalidRequest "call missing contract_address"
  | some v => do
      let toAddr ← feltFrom K v "contract_address"
      let selector ← parseSelector K c
      let calldata ← parseCalldata K c
      return { toAddr, selector, calldata }

def parseCalls (params : Json) : Except WalletRpcError (List Call) :=
  match (params.get? "calls").bind Json.asArray with
  | none => invalidRequest "missing 'calls' array"
  | some [] => invalidRequest "'calls' is empty"
  | some (c :: rest) => (c :: rest).mapM (parseCall K)

/-- Optional caller-supplied nonce. -/
def optNonce (params : Json) : Except WalletRpcError (Option Felt) :=
  match presentParam params "nonce" with
  | none => .ok none
  | some v => do return some (← feltFrom K v "nonce")

/-- Optional SNIP-36 proof facts. -/
def parseProofFacts (params : Json) : Except WalletRpcError (List Felt) :=
  match params.get? "proof_facts" with
  | some (.arr items) => items.mapM fun v => feltFrom K v "proof_facts element"
  | none | some .null => .ok []
  | some _ => invalidRequest "proof_facts must be an array"

end

/-- The typed-data document of a request, as text. -/
def typedDataJson (params : Json) : Except WalletRpcError String :=
  match params.get? "typed_data" with
  | none => invalidRequest "missing 'typed_data'"
  | some (.str s) => .ok s
  | some other => .ok other.render

/-! ## Proofs -/

def isBase64 (c : Char) : Bool := c.isAlphanum ∨ c = '+' ∨ c = '/'

def isAsciiSpace (c : Char) : Bool :=
  c = ' ' ∨ c = '\t' ∨ c = '\n' ∨ c = '\r' ∨ c.toNat = 12

/-- Strip ASCII whitespace from a proof and check that it is base64. -/
def normalizeProofB64 (raw : String) : Except WalletRpcError String :=
  let cleaned := raw.toList.filter fun c => !isAsciiSpace c
  let pad := (cleaned.reverse.takeWhile (· = '=')).length
  let body := cleaned.take (cleaned.length - pad)
  if body = [] then invalidRequest "proof is empty or all padding after trimming whitespace"
  else if 2 < pad ∨ body.any (fun c => !isBase64 c) then
    invalidRequest ("proof is not valid standard base64 (expected A-Za-z0-9+/ with optional " ++
      "trailing '='; check for url-safe '-'/'_', embedded '=' padding, or stray characters)")
  else .ok (String.ofList cleaned)

def parseProof (params : Json) : Except WalletRpcError (Option String) :=
  match optParamStr params "proof" with
  | some s => do return some (← normalizeProofB64 s)
  | none => .ok none

/-! ## Texts -/

def boundText (b : ResourceBounds) : String :=
  toString b.maxAmount.toNat ++ "×" ++ toString b.maxPricePerUnit.toNat

def boundsSummary (b : FeeBounds) : String :=
  "l1 " ++ boundText b.l1Gas ++ " / l2 " ++ boundText b.l2Gas ++ " / l1_data " ++
    boundText b.l1DataGas

/-- One line about a list of calls for the approval prompt. -/
def summarizeCalls (calls : List Call) : String :=
  String.intercalate "; " (calls.map fun c =>
    "→ " ++ feltHex c.toAddr ++ " :: selector " ++ feltHex c.selector)

/-- An amount in fri shown as STRK (`{:.4}`). -/
def strkText (amount : ℕ) : String :=
  let (n, d) := binary64 amount 1
  let (n, d) := binary64 n (10 ^ 18 * d)
  fixed4 n d

def accountToJson (a : AccountRef) : Json := .obj [
  ("domain", .str a.domain.wireName), ("index", .int a.index.toNat), ("address", .str a.address),
  ("label", .str a.label)]

def boundJson (b : ResourceBounds) : Json := .obj [
  ("max_amount", .str ("0x" ++ hexText b.maxAmount.toNat)),
  ("max_price_per_unit", .str ("0x" ++ hexText b.maxPricePerUnit.toNat))]

def boundsJson (b : FeeBounds) : Json := .obj [
  ("l1_gas", boundJson b.l1Gas), ("l2_gas", boundJson b.l2Gas),
  ("l1_data_gas", boundJson b.l1DataGas)]

end Strkd.Rpc
