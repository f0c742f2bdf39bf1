import Strkd.Lib.Json
import Strkd.Wallet.Accounts

/-!
# Errors, requests and responses

The wallet RPC errors with their wire codes and messages, the JSON-RPC envelope, and what the user
is asked to approve.
-/

namespace Strkd.Rpc

open Wallet (CoreError)

inductive WalletRpcError where
  | userRefused
  | invalidRequest (message : String)
  | deploymentDataNotAvailable
  | chainIdNotSupported
  | notRegistered
  | strk20NotRegistered (account : String)
  | insufficientPrivateBalance (message : String)
  | privacyLeak (message : String)
  | apiVersionNotSupported
  | unknown (message : String)
  | locked
  | forbidden
  | transportRejected (message : String)
  | node (message : String)
  | noNode
  | precondition (message : String)
  | notImplemented (message : String)
  | parse
  deriving DecidableEq, Repr

namespace WalletRpcError

def code : WalletRpcError → ℤ
  | userRefused => 113
  | invalidRequest _ => 114
  | deploymentDataNotAvailable => 116
  | chainIdNotSupported => 117
  | notRegistered => 118
  | strk20NotRegistered _ => 118
  | insufficientPrivateBalance _ => 119
  | privacyLeak _ => 120
  | apiVersionNotSupported => 162
  | unknown _ => 163
  | locked => -32001
  | forbidden => -32002
  | transportRejected _ => -32003
  | node _ => -32004
  | noNode => -32005
  | precondition _ => -32006
  | notImplemented _ => -32601
  | parse => -32700

def message : WalletRpcError → String
  | userRefused => "user refused the operation"
  | invalidRequest m => "invalid request payload: " ++ m
  | deploymentDataNotAvailable => "deployment data not available"
  | chainIdNotSupported => "chain id not supported"
  | notRegistered => "caller is not a registered client"
  | strk20NotRegistered a => a ++
      " has not registered a viewing key with the STRK20 pool (call companion_strk20Register)"
  | insufficientPrivateBalance m => "insufficient private balance: " ++ m
  | privacyLeak m => "privacy leak: " ++ m
  | apiVersionNotSupported => "api version not supported"
  | unknown m => "unknown error: " ++ m
  | locked => "wallet is locked"
  | forbidden => "operation not permitted for this caller"
  | transportRejected m => "request rejected: " ++ m
  | node m => "node error: " ++ m
  | noNode => "no Starknet node configured: supply nonce + resource_bounds, or set an RPC URL"
  | precondition m => m
  | notImplemented m => "not implemented: " ++ m
  | parse => "parse error: body is not valid JSON"

/-- `From<CoreError>`: only what carries no key detail keeps its message. -/
def ofCore : CoreError → WalletRpcError
  | .locked => locked
  | .badPassphraseOrCorrupt => invalidRequest "incorrect passphrase or corrupt vault"
  | .invalidContractClass m => invalidRequest ("contract_class: " ++ m)
  | .indexOutOfRange domain index => invalidRequest (CoreError.indexOutOfRange domain index).display
  | _ => unknown "core operation failed"

end WalletRpcError

/-- A wallet-core result under the `?` of the RPC layer. -/
def liftCore {α : Type} : Except CoreError α → Except WalletRpcError α
  | .ok a => .ok a
  | .error e => .error (.ofCore e)

theorem liftCore_eq_ok {α : Type} {x : Except CoreError α} {a : α} (h : liftCore x = .ok a) :
    x = .ok a := by
  cases x with
  | ok b => exact congrArg _ (Except.ok.inj h)
  | error e => cases h

def invalidRequest {α : Type} (message : String) : Except WalletRpcError α :=
  .error (.invalidRequest message)

/-! ## The JSON-RPC envelope -/

structure Request where
  method : String
  params : Json
  id : Json

/-- A response: a result, or an error object's code and message. -/
structure Response where
  id : Json
  outcome : Except (ℤ × String) Json

namespace Response

def ok (id value : Json) : Response := ⟨id, .ok value⟩

def err (id : Json) (e : WalletRpcError) : Response := ⟨id, .error (e.code, e.message)⟩

/-- The response as it is sent. -/
def toJson (r : Response) : Json :=
  match r.outcome with
  | .ok value => .obj [("jsonrpc", .str "2.0"), ("result", value), ("id", r.id)]
  | .error (code, message) => .obj [("jsonrpc", .str "2.0"),
      ("error", .obj [("code", .int code), ("message", .str message)]), ("id", r.id)]

end Response

/-! ## Approval -/

/-- What the user is being asked to approve. -/
structure ApprovalRequest where
  clientLabel : String
  method : String
  summary : String
  deriving DecidableEq, Repr

/-- The user's decision. -/
inductive Decision where
  | approve
  | reject
  deriving DecidableEq, Repr

end Strkd.Rpc
