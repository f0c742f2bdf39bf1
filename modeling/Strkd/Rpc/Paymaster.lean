import Strkd.Rpc.Params
import Strkd.Rpc.Ops

/-!
# The AVNU paymaster

Quoting the relay's fee and handing it a proven batch.
-/

namespace Strkd.Rpc

open Wallet

structure Paymaster where
  url : String
  apiKey : String
  feeToken : Felt

namespace Paymaster

/-- The relay's fee, paid by a withdraw from the private batch. -/
structure FeeAction where
  token : Felt
  amount : U128
  recipient : Felt
  deriving DecidableEq, Repr

def defaultUrl : ChainId → String
  | .mainnet => "https://starknet.paymaster.avnu.fi"
  | .sepolia => "https://sepolia.paymaster.avnu.fi"

def new (url apiKey : String) (feeToken : Felt) : Paymaster where
  url := String.ofList (url.toList.reverse.dropWhile (· = '/')).reverse
  apiKey
  feeToken

abbrev PaymasterM := Handler String Op Ans

variable (K : Crates) (p : Paymaster)

def parameters : Json := .obj [("version", .str "0x1"), ("fee_mode", .obj [
  ("mode", .str "sponsored_private"), ("pool_fee_token", .str (feltHex p.feeToken)),
  ("tip", .str "normal")])]

/-- The result of a reply of the paymaster. -/
def replyResult (method : String) : HttpReply → Except String Json
  | .transport e => .error ("paymaster unreachable: " ++ e)
  | .undecodable e => .error ("paymaster: bad response: " ++ e)
  | .body v =>
      match v.get? "error" with
      | some err => .error ("paymaster refused " ++ method ++ ": " ++ err.render)
      | none =>
          match v.get? "result" with
          | some r => .ok r
          | none => .error ("paymaster: " ++ method ++ " returned no result")

def rpc (method : String) (params : Json) : PaymasterM Json := do
  let reply ← ExceptT.lift (Prog.perform (.paymasterRpc p.url p.apiKey method params))
  replyResult method reply

def feeFelt (fa : Json) (key : String) : Except String Felt :=
  match ((fa.get? key).bind Json.asStr).bind K.feltFromHex with
  | some f => .ok f
  | none => .error ("fee_action." ++ key ++ " missing")

/-- The fee of a quote, refusing one that would pay the user's own address or in another token. -/
def parseFeeAction (quote : Json) (feeToken user : Felt) : Except String FeeAction := do
  if (quote.get? "type").bind Json.asStr ≠ some "apply_action" then
    .error ("unexpected paymaster quote: " ++ quote.render)
  let some fa := quote.get? "fee_action" | .error "the paymaster quote has no fee_action"
  if (fa.get? "type").bind Json.asStr ≠ some "withdraw" then
    .error ("unexpected paymaster fee action: " ++ fa.render)
  let token ← feeFelt K fa "token"
  let recipient ← feeFelt K fa "recipient"
  let amount ← feeFelt K fa "amount"
  if 2 ^ 128 ≤ amount.val then .error "fee_action.amount exceeds u128"
  if token ≠ feeToken then
    .error ("the paymaster asked for its fee in " ++ feltHex token ++ ", not the configured " ++
      feltHex feeToken)
  if recipient = user ∨ recipient = 0 then
    .error ("the paymaster's fee recipient is your own address, which would link the batch to you")
  return { token, amount := BitVec.ofNat 128 amount.val, recipient }

/-- Quote the relay fee of a batch on a pool. -/
def quote (pool user : Felt) : PaymasterM FeeAction := do
  let r ← rpc p "paymaster_buildTransaction" (.obj [
    ("transaction", .obj [("type", .str "apply_action"),
      ("apply_action", .obj [("pool_address", .str (feltHex pool))])]),
    ("parameters", parameters p)])
  parseFeeAction K r p.feeToken user

def relayHash (r : Json) : Except String Felt :=
  match (((r.get? "transaction_hash").bind Json.asStr).bind K.feltFromHex).filter (· ≠ 0) with
  | some h => .ok h
  | none => .error
      "the relay accepted the batch but returned no transaction hash: check before retrying"

/-- Hand the proven batch to the relay. -/
def execute (c : Call) (proof : String) (proofFacts : List Felt) : PaymasterM Felt := do
  let r ← mapErr (· ++ " (the relay may still have submitted it: check before retrying)")
    (rpc p "paymaster_executeTransaction" (.obj [
      ("transaction", .obj [("type", .str "apply_action"), ("apply_action", .obj [
        ("apply_actions_call", .obj [("to", .str (feltHex c.toAddr)),
          ("selector", .str (feltHex c.selector)), ("calldata", feltArr c.calldata)]),
        ("proof", .str proof),
        ("proof_facts", feltArr proofFacts)])]),
      ("parameters", parameters p)]))
  relayHash K r

end Paymaster

end Strkd.Rpc
