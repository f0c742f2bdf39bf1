import Strkd.Lib.Replace
import Strkd.Rpc.Handlers
import Strkd.Rpc.Paymaster
import Strkd.Strk20.Discovery
import Strkd.Strk20.Invocation

/-!
# STRK20 over the wallet API

The `wallet_strk20*` methods and `companion_strk20Register`: discover, plan, ask, sign, prove,
submit.
-/

namespace Strkd.Rpc.Strk20

open Std (ExtTreeMap)
open Wallet Prover Strkd.Strk20

/-! ## Constants and errors -/

def mainnetPool : Felt :=
  .ofNat 0x040337b1af3c663e86e333bab5a4b28da8d4652a15a69beee2b677776ffe812a

def sepoliaPool : Felt :=
  .ofNat 0x03ce2d315cb201ac87f4ff1736d366b39e18fdcac669ea007a51a74407803a3e

/-- STRK, the pool's fee token. -/
def strk : Felt := .ofNat 0x04718f5a0fc34cc1af16a1cdee98ffb20c31f5cd61d6ab07201858f4287c938d

/-- Proofs read state this many blocks back. -/
def provingLag : ℕ := 12

def maxActions : ℕ := 32

def maxTokens : ℕ := 64

def invalid {α : Type} (m : String) : Except WalletRpcError α := .error (.invalidRequest m)

/-- The pool's revert reason inside a node error. -/
def poolRevert (e : String) : Option String := do
  let (_, rest) ← splitFirst "('".toList e.toList
  let (reason, _) ← splitFirst "')".toList rest
  if reason ≠ [] ∧ reason.all (fun c => c.isUpper ∨ c = '_' ∨ c.isDigit) then
    some (String.ofList reason)
  else none

/-- Remove the viewing key from text that leaves the handler. -/
def scrub (text : String) (userSk : Felt) : String :=
  let hex := feltHex userSk
  let padded := addressHex userSk
  let decimal := feltDecimal userSk
  replaceAll (replaceAll (replaceAll text padded "<viewing key>") hex "<viewing key>") decimal
    "<viewing key>"

/-- A submission error: explain pool reverts, pass the rest through. -/
def submitErr (e : NodeError) : WalletRpcError :=
  match poolRevert e.display with
  | some "SCREENING_REQUIRED" => .precondition
      ("the pool refused the deposit (SCREENING_REQUIRED): the deposit prover returned no " ++
      "screening attestation. Use a screening prover (Starkscan, the bramble gateway, or the " ++
      "pool operator's).")
  | some "NON_ZERO_VALUE" => .precondition
      ("the pool refused the batch (NON_ZERO_VALUE): it was proved against state that a more " ++
      "recent transaction from this account has since changed (a note spent, or a note or " ++
      "channel slot taken). Retry in about a minute.")
  | some r =>
      if r = "SCREENING_EXPIRED" ∨ r = "SCREENING_FUTURE_DATED" then
        .precondition ("the pool refused the deposit (" ++ r ++
          "): its screening attestation is no longer valid; retry the deposit")
      else .precondition ("the pool refused the transaction: " ++ r)
  | none => .node e.display

def mapStrk20 : Error → WalletRpcError
  | .notRegistered a => .strk20NotRegistered (feltHex a)
  | .insufficientBalance token shortfall available => .insufficientPrivateBalance
      (feltHex token ++ ": " ++ toString shortfall.toNat ++ " short of the " ++
      toString available.toNat ++ " spendable. Notes younger than " ++ toString provingLag ++
      " blocks are not spendable yet; retry in a minute if you just received or changed some.")
  | .zeroAmount => .invalidRequest "amounts must be positive"
  | .read m => .node m
  | e => .unknown e.display

/-! ## Who, where, which pool -/

/-- Who is asking. -/
inductive Caller where
  | rpc (client : PairedClient)
  | desktop

variable (K : Crates) (S : Setup)

/-- An RPC client goes through the approval broker; on the desktop the click is the consent. -/
def Caller.approve (caller : Caller) (method summary : String) : Serve Unit :=
  match caller with
  | .desktop => return ()
  | .rpc client => do
      let decision ← gatedApproval client method summary
      confirmed decision

def Caller.scope : Caller → Option String
  | .rpc client => client.scope
  | .desktop => none

structure Ctx where
  account : AccountRef
  user : Felt
  chain : ChainId
  pool : Felt
  cfg : Strk20Config

/-- The pool of a chain: the user's override, else the canonical one. -/
def poolFor (cfg : Strk20Config) (chain : ChainId) : Except WalletRpcError Felt :=
  let p := trim cfg.pool
  if p = "" then .ok (match chain with
    | .mainnet => mainnetPool
    | .sepolia => sepoliaPool)
  else match K.feltFromHex p with
    | some f => .ok f
    | none => invalid ("Settings: STRK20 pool " ++ p ++ " is not a felt")

/-- The account a STRK20 request acts on. -/
def callerAccount (caller : Caller) (params : Json) : Serve AccountRef := do
  let reg ← readRegistry
  let visible := reg.scopedFor caller.scope
  let found ← match optParamStr params "account_address" with
    | some s => do
        let want ← normalizeAddress K s
        pure (visible.find? fun a => a.address = want)
    | none => pure visible.head?
  match found with
  | some a => return a
  | none => throw .forbidden

def ctx (caller : Caller) (params : Json) : Serve Ctx := do
  let chain ← resolveChain K params
  let account ← callerAccount K caller params
  let user ← senderOf K account
  requireNode chain
  let cfg ← if S.hasProver then perform (.strk20Config (proverNetwork chain)) else pure {}
  let pool ← poolFor K cfg chain
  return { account, user, chain, pool, cfg }

/-- The account's viewing key. -/
def Ctx.viewingKey (c : Ctx) : Serve Felt := do
  propagate (← perform (.viewingKey c.account c.chain c.pool))

/-! ## Reading the pool through the node -/

def felts (v : Json) : Except Error (List Felt) :=
  match v.asArray with
  | none => .error (.read "starknet_call: not an array")
  | some items => items.mapM fun v =>
      match v.asStr.bind K.feltFromHex with
      | some f => .ok f
      | none => .error (.read ("bad felt " ++ v.render))

/-- The parameters of a `starknet_call`. -/
def callParams (contract selector : Felt) (calldata : List Felt) (block : Json) : Json := .obj [
  ("request", .obj [("contract_address", .str (feltHex contract)),
    ("entry_point_selector", .str (feltHex selector)), ("calldata", feltArr calldata)]),
  ("block_id", block)]

def atBlock (block : ℕ) : Json := .obj [("block_number", .int block)]

/-- A reader over the wallet's node, pinned to one block. -/
def Ctx.reader (c : Ctx) (block : Json) : PoolReader (Prog Op Ans) where
  call selector calldata := do
    let v ← mapErr (fun e => Error.read e.display)
      (Node.call c.chain "starknet_call" (callParams c.pool selector calldata block))
    felts K v
  stuck := do
    let crashed ← ExceptT.lift (Prog.perform .halt)
    nomatch crashed

def Ctx.latest (c : Ctx) : PoolReader (Prog Op Ans) := c.reader K (.str "latest")

/-- A reading of the pool, with the errors of the RPC layer. -/
def fromPool {α : Type} (m : ExceptT Error (Prog Op Ans) α) : Serve α := mapErr mapStrk20 m

def blockNumber (c : Ctx) : Serve ℕ := do
  let v ← mapErr nodeError (Node.call c.chain "starknet_blockNumber" (.arr []))
  match v.asU64 with
  | some n => return n
  | none => throw (.node "blockNumber: not a number")

/-! ## Actions -/

inductive Action where
  | deposit (token : Felt) (amount : U128)
  | withdraw (token : Felt) (amount : U128) (recipient : Felt)
  | transfer (token : Felt) (amount : U128) (recipient : Felt)
  deriving DecidableEq, Repr

def fieldFelt (a : Json) (key : String) : Except WalletRpcError Felt :=
  match ((a.get? key).bind Json.asStr).bind K.feltFromHex with
  | some f => .ok f
  | none => invalid ("action." ++ key ++ ": expected a felt")

def fieldAmount (a : Json) : Except WalletRpcError U128 := do
  if (a.get? "amount").bind Json.asStr = some "OPEN" then
    throw (.notImplemented "open notes (transfer amount \"OPEN\") are not supported yet")
  let f ← fieldFelt K a "amount"
  if 2 ^ 128 ≤ f.val then invalid "action.amount exceeds u128"
  if f.val = 0 then invalid "action.amount must be positive"
  return BitVec.ofNat 128 f.val

def unsupportedAction (t : String) : Bool :=
  t = "invoke" ∨ t = "shadow_account_invoke" ∨ t = "subaccount_invoke"

def parseAction (a : Json) : Except WalletRpcError Action := do
  match (a.get? "type").bind Json.asStr with
  | some "deposit" => do
      let token ← fieldFelt K a "token"
      return .deposit token (← fieldAmount K a)
  | some "withdraw" => do
      let token ← fieldFelt K a "token"
      let amount ← fieldAmount K a
      return .withdraw token amount (← fieldFelt K a "recipient")
  | some "transfer" => do
      let token ← fieldFelt K a "token"
      let amount ← fieldAmount K a
      return .transfer token amount (← fieldFelt K a "recipient")
  | some t =>
      if unsupportedAction t then
        throw (.notImplemented ("STRK20 `" ++ t ++ "` actions are not supported yet"))
      else invalid ("unknown STRK20 action " ++ a.render)
  | none => invalid ("unknown STRK20 action " ++ a.render)

def parseActions (params : Json) : Except WalletRpcError (List Action) :=
  match (params.get? "actions").bind Json.asArray with
  | none => invalid "missing array param 'actions'"
  | some list =>
      if list = [] ∨ maxActions < list.length then
        invalid ("actions: between 1 and " ++ toString maxActions ++ " required")
      else list.mapM (parseAction K)

def addAction (intent : Intent) : Action → Intent
  | .deposit token amount => { intent with deposits := intent.deposits ++ [(token, amount)] }
  | .withdraw token amount recipient =>
      { intent with withdrawals := intent.withdrawals ++ [(recipient, token, amount)] }
  | .transfer token amount recipient =>
      { intent with transfers := intent.transfers ++ [(recipient, token, amount)] }

def intentOf (actions : List Action) : Intent := actions.foldl addAction {}

def wei (a : U128) : String := toString a.toNat ++ " (base units)"

def describe (intent : Intent) : String :=
  String.intercalate "; " (
    (if intent.register then
      ["register your viewing key (public: links this address to the pool)"] else [])
    ++ intent.deposits.map (fun (t, a) => "deposit " ++ wei a ++ " of " ++ feltHex t ++ " (public)")
    ++ intent.transfers.map (fun (r, t, a) =>
      "send " ++ wei a ++ " of " ++ feltHex t ++ " privately to " ++ feltHex r)
    ++ intent.withdrawals.map (fun (r, t, a) =>
      "withdraw " ++ wei a ++ " of " ++ feltHex t ++ " to " ++ feltHex r))

def hasDeposit (actions : List Action) : Bool :=
  actions.any fun a => match a with
    | .deposit .. => true
    | _ => false

/-! ## Discover, plan, approve, sign, prove -/

/-- How the batch is proved. -/
inductive Proving where
  | local
  | remote (prover : DepositProver)

structure Prepared where
  call : Call
  proved : ProvedInvocation

/-- The channels to the recipients not seen yet. -/
def discoverChannels (c : Ctx) (r : PoolReader (Prog Op Ans)) (userSk : Felt) :
    List Felt → Channels → Serve Channels
  | [], channels => return channels
  | recipient :: rest, channels =>
      if recipient ∈ channels then discoverChannels c r userSk rest channels
      else do
        let channel ← fromPool (discoverChannel K r S.fuel c.user userSk recipient)
        discoverChannels c r userSk rest (channels.insert recipient channel)

def discoverState (c : Ctx) (r : PoolReader (Prog Op Ans)) (userSk : Felt) (intent : Intent) :
    Serve State := do
  let registered := (← fromPool (registeredKey K r c.user)).isSome
  let recipients := intent.transfers.map (fun t => t.1) ++ [c.user]
  let channels ← if registered then discoverChannels K S c r userSk recipients ∅ else pure ∅
  let tokens := intent.transfers.map (fun t => t.2.1) ++ intent.withdrawals.map (fun w => w.2.1)
  let notes ← if registered ∧ tokens ≠ [] then fromPool (discoverNotes K r c.user userSk tokens)
    else pure []
  let outgoingChannels ← if registered then fromPool (outgoingChannelCount K r c.user userSk)
    else pure 0
  return { user := c.user, userSk, registered, outgoingChannels, channels, notes }

/-- Whether two discoveries agree on everything a plan writes to or spends. -/
def sameState (a b : State) : Bool :=
  a.registered = b.registered ∧ a.outgoingChannels = b.outgoingChannels ∧
    a.channels = b.channels ∧ a.notes = b.notes

/-- `OsRandomness` over the draws of the operating system. -/
def osRandomness (draw : ℕ → Except String ℕ) : Randomness ℕ where
  felt n := (match draw n with
    | .ok bytes => .ok (.ofNat (bytes % 2 ^ 248))
    | .error e => .error (.random e), n + 1)
  salt120 n := (match draw n with
    | .ok bytes => .ok (BitVec.ofNat 128 (bytes % 2 ^ 120))
    | .error e => .error (.random e), n + 1)

/-- Plan a batch with fresh randomness. -/
def planBatch (intent : Intent) (st : State) : Serve Plan := do
  let draw ← perform .osRandomness
  match (plan (osRandomness draw) K.curve S.fuel intent st).run 0 |>.run with
  | some (.ok (p, _)) => return p
  | some (.error e) => throw (mapStrk20 e)
  | none => do
      let crashed ← perform .halt
      nomatch crashed

def DepositProver.resolve (cfg : Strk20Config) (chain : ChainId) :
    Except WalletRpcError DepositProver :=
  if trim cfg.depositProverUrl ≠ "" then
    .ok (.jsonRpc (trim cfg.depositProverUrl) "your deposit prover")
  else match chain with
    | .mainnet =>
        if trim cfg.starkscanApiKey ≠ "" then .ok (.starkscan (trim cfg.starkscanApiKey))
        else .ok (.jsonRpc "https://wallet.nodes.starknet.org/api/strk20/prover"
          "the bramble gateway")
    | .sepolia => .error (.precondition ("deposits on Sepolia need a screening prover: set a " ++
        "deposit prover URL in Settings → STRK20 (Starkscan and the bramble gateway are " ++
        "mainnet-only)"))

/-- Who will see the invocation. -/
def DepositProver.describe : DepositProver → String
  | .jsonRpc _ label => label
  | .starkscan _ => "Starkscan's STRK20 prover"

def Proving.describe : Proving → String
  | .local =>
      if S.proverKind = "native" then "proved on this machine"
      else "proved by your configured remote prover, which will see your viewing key"
  | .remote p => "proved by " ++ DepositProver.describe p ++
      ", which screens the depositor and will see your viewing key"

/-- Prove and wait, without persisting anything; the job shows in the activity feed. -/
def proveUnrecorded (payload : Json) (label : Option String) (network : String) :
    Serve (Except String Json) := do
  let now ← perform .jobClock
  let jobId ← perform (.createJob label now.toNat)
  perform (.setJobStatus jobId .proving)
  let res ← perform (.prove payload label network)
  match res with
  | .ok proof => perform (.succeedJob jobId proof)
  | .error e => perform (.failJob jobId e)
  return res

/-- Prove the signed invocation where the batch is to be proved. -/
def proveInvocation (c : Ctx) (method : String) (proving : Proving) (userSk : Felt) (block : ℕ)
    (tx : Json) : Serve Json :=
  match proving with
  | .local => do
      let res ← proveUnrecorded (.obj [("transaction", tx), ("block_number", .int block)])
        (some ("STRK20 " ++ method)) (proverNetwork c.chain)
      match res with
      | .ok v => return v
      | .error e => throw (.unknown (scrub ("proving failed: " ++ e) userSk))
  | .remote p => do
      let res ← perform (.remoteProve p c.chain block tx)
      match res with
      | .ok v => return v
      | .error (.screeningRejected m) =>
          throw (.precondition (Remote.RemoteError.screeningRejected m).display)
      | .error e => throw (.unknown (scrub e.display userSk))

/-- What the approval prompt of a batch says. -/
def batchSummary (c : Ctx) (intent : Intent) (proving : Proving) (plan : Plan)
    (submission : String) : String :=
  "STRK20 on " ++ chainName c.chain ++ " from " ++ c.account.address ++ ": " ++ describe intent ++
    ". " ++ proving.describe S ++ " (" ++ toString plan.actions.length ++ " action(s), pool " ++
    feltHex c.pool ++ "); " ++ submission ++ "."

def poolNonce (c : Ctx) (block : ℕ) : Serve Felt := do
  let v ← mapErr nodeError (Node.call c.chain "starknet_getNonce"
    (.obj [("block_id", atBlock block), ("contract_address", .str (feltHex c.pool))]))
  match v.asStr.bind K.feltFromHex with
  | some f => return f
  | none => throw (.node "getNonce: bad felt")

/-- The plan of a batch, on state that has not moved since the proving block. -/
def freshPlan (c : Ctx) (userSk : Felt) (block : ℕ) (intent : Intent) : Serve Plan := do
  let st ← discoverState K S c (c.reader K (atBlock block)) userSk intent
  let now ← discoverState K S c (c.latest K) userSk intent
  if sameState st now = false then
    throw (.precondition ("a recent STRK20 transaction from this account is not yet " ++
      toString provingLag ++ " blocks old, and proofs run " ++ toString provingLag ++
      " blocks behind the chain head. Retry in about a minute."))
  let plan ← planBatch K S intent st
  if Warning.userLinkage ∈ plan.warnings then
    throw (.privacyLeak ("this batch would open more than one channel at once, letting an " ++
      "observer link them to one sender. Send to one new recipient per batch."))
  return plan

/-- Sign the proof invocation of a plan, prove it and build the call it proves. -/
def signAndProveBatch (c : Ctx) (method : String) (proving : Proving) (userSk : Felt) (block : ℕ)
    (plan : Plan) : Serve Prepared := do
  let nonce ← poolNonce K c block
  let invocation := ProofInvocation.new K c.pool c.chain nonce c.user userSk plan.actions
  let signature ← propagate (← perform (.signHash c.account (invocation.hash K)))
  let tx := invocation.toRpcJson signature
  let result ← proveInvocation c method proving userSk block tx
  match parseResult K result c.pool with
  | .error e => throw (.unknown (scrub e userSk))
  | .ok proved =>
      match applyActionsCall K c.pool proved.output proved.screening with
      | .error e => throw (mapStrk20 e)
      | .ok call => return { call, proved }

/-- The shared pipeline of every batch. -/
def prepare (caller : Caller) (method : String) (c : Ctx) (intent : Intent) (proving : Proving)
    (submission : String) : Serve Prepared := do
  requireProver S
  let head ← blockNumber c
  let block := head - provingLag
  let userSk ← c.viewingKey
  let plan ← freshPlan K S c userSk block intent
  caller.approve method (batchSummary S c intent proving plan submission)
  signAndProveBatch K c method proving userSk block plan

def callAndProof (p : Prepared) (simulate : Bool) : Json :=
  let proof := if simulate then
      Json.obj [("data", .str ""), ("output", .arr []), ("proof_facts", .arr [])]
    else .obj [("data", .str p.proved.proof), ("output", feltArr p.proved.output),
      ("proof_facts", feltArr p.proved.proofFacts)]
  .obj [("call", .obj [("contract_address", .str (feltHex p.call.toAddr)),
      ("entry_point", .str "apply_actions"), ("calldata", feltArr p.call.calldata)]),
    ("proof", proof)]

def provingFor (c : Ctx) (actions : List Action) : Except WalletRpcError Proving :=
  if hasDeposit actions then do
    return .remote (← DepositProver.resolve c.cfg c.chain)
  else .ok .local

/-! ## Submission from the user's own account -/

def poolFee (c : Ctx) : Serve U128 := do
  let felts ← fromPool ((c.latest K).call (getSelectorFromName K "get_fee_amount") [])
  let fee := felts.headD 0
  if 2 ^ 128 ≤ fee.val then throw (.node "get_fee_amount exceeds u128")
  return BitVec.ofNat 128 fee.val

/-- `*map.entry(token).or_default() += amount`, in wrapping arithmetic. -/
def addAmount (m : ExtTreeMap Felt U128) (token : Felt) (amount : U128) : ExtTreeMap Felt U128 :=
  m.alter token fun b => some (b.getD 0 + amount)

def sumDeposits (deposits : List (Felt × U128)) : ExtTreeMap Felt U128 :=
  deposits.foldl (fun m d => addAmount m d.1 d.2) ∅

/-- Check that the account holds each token it needs. -/
def checkBalances (c : Ctx) (fee : U128) : List (Felt × U128) → Serve Unit
  | [] => return ()
  | (token, need) :: rest => do
      let v ← mapErr nodeError (Node.call c.chain "starknet_call"
        (callParams token (getSelectorFromName K "balance_of") [c.user] (.str "latest")))
      let some low := ((v.asArray.bind List.head?).bind Json.asStr).bind K.feltFromHex |
        throw (.node "balance_of: bad result")
      let have' := min low.val (2 ^ 128 - 1)
      if have' < need.toNat then
        throw (.precondition (c.account.address ++ " holds " ++ toString have' ++ " of " ++
          feltHex token ++ ", and this deposit needs " ++ toString need.toNat ++
          " (the deposit" ++ (if token = strk ∧ 0 < fee then
            " plus the pool's fee of " ++ toString fee.toNat else "") ++
          "), plus gas. Fund the account first."))
      checkBalances c fee rest

/-- Refuse a deposit the account cannot pay for. -/
def checkPublicFunds (c : Ctx) (deposits : List (Felt × U128)) : Serve Unit := do
  let fee ← poolFee K c
  checkBalances K c fee (addAmount (sumDeposits deposits) strk fee).toList

def approveCall (token spender : Felt) (amount : U128) : Call where
  toAddr := token
  selector := getSelectorFromName K "approve"
  calldata := [spender, .ofNat amount.toNat, 0]

/-- Refuse a deposit whose attestation would expire before it is included. -/
def requireFreshAttestation (p : ProvedInvocation) : Serve Unit :=
  match p.screening with
  | none => return ()
  | some a => do
      let now ← perform .seconds
      if a.issuedAt + attestationMaxAgeSecs < now + 60 then
        throw (.precondition ("the deposit's screening attestation expired before it could be " ++
          "submitted; retry the deposit"))

/-- The calls of a submission: the approvals the pool pulls from, then the batch. -/
def submissionCalls (c : Ctx) (prepared : Prepared) (deposits : List (Felt × U128)) (fee : U128) :
    List Call :=
  let approvals := if 0 < fee then addAmount (sumDeposits deposits) strk fee
    else sumDeposits deposits
  approvals.toList.map (fun (t, a) => approveCall K t c.pool a) ++ [prepared.call]

/-- Submit `apply_actions` as a proof-carrying invoke from the user's account. -/
def submitFromAccount (c : Ctx) (prepared : Prepared) (deposits : List (Felt × U128)) :
    Serve Felt := do
  requireFreshAttestation prepared.proved
  let fee ← poolFee K c
  let calls := submissionCalls K c prepared deposits fee
  let nonce ← mapErr nodeError (Node.getNonce K c.chain c.user)
  let bounds ← mapErr submitErr (Node.estimateInvokeWithProof c.chain c.user (encodeCalls calls)
    nonce prepared.proved.proofFacts prepared.proved.proof)
  let p : InvokeV3Params := {
    nonce
    l1Gas := bounds.l1Gas
    l2Gas := bounds.l2Gas
    l1DataGas := bounds.l1DataGas
    proofFacts := prepared.proved.proofFacts }
  let signed ← propagate (← perform (.signInvoke c.account calls c.chain p))
  mapErr submitErr (Node.addInvoke K c.chain c.user signed.calldata signed.signature nonce bounds
    prepared.proved.proofFacts (some prepared.proved.proof))

/-! ## Handlers -/

def parseTokens (params : Json) : Except WalletRpcError (List Felt) :=
  match (params.get? "tokens").bind Json.asArray with
  | none => invalid "missing array param 'tokens'"
  | some list => do
      let tokens ← list.mapM fun t =>
        match t.asStr.bind K.feltFromHex with
        | some f => .ok f
        | none => invalid "tokens: expected felts"
      if tokens = [] ∨ maxTokens < tokens.length then
        invalid ("tokens: between 1 and " ++ toString maxTokens ++ " required")
      return tokens

/-- The balance of a token over the notes found, in wrapping arithmetic. -/
def balanceOf (notes : List Note) (token : Felt) : U128 :=
  ((notes.filter fun n => n.token = token).map Note.amount).sum

def balances (caller : Caller) (params : Json) : Serve Json := do
  let tokens ← parseTokens K params
  let c ← ctx K S caller params
  caller.approve "wallet_strk20Balances"
    ("Reveal the private (STRK20) balance of " ++ toString tokens.length ++ " token(s) held by " ++
      c.account.address ++ " on " ++ chainName c.chain ++ ".")
  let userSk ← c.viewingKey
  let key ← fromPool (registeredKey K (c.latest K) c.user)
  if key = none then throw (.strk20NotRegistered c.account.address)
  let notes ← fromPool (discoverNotes K (c.latest K) c.user userSk tokens)
  return .arr (tokens.map fun t => .obj [("token", .str (feltHex t)),
    ("balance", .str ("0x" ++ hexText (balanceOf notes t).toNat))])

def register (caller : Caller) (params : Json) : Serve Json := do
  let c ← ctx K S caller params
  let key ← fromPool (registeredKey K (c.latest K) c.user)
  if key ≠ none then
    throw (.precondition (c.account.address ++ " is already registered with the pool"))
  let prepared ← prepare K S caller "companion_strk20Register" c { register := true } .local
    "submitted from this account"
  let hash ← submitFromAccount K c prepared []
  return .obj [("transaction_hash", .str (feltHex hash))]

def prepareInvoke (caller : Caller) (params : Json) : Serve Json := do
  let actions ← parseActions K params
  let c ← ctx K S caller params
  let simulate := paramFlag params "simulate"
  let proving ← provingFor c actions
  let prepared ← prepare K S caller "wallet_strk20PrepareInvoke" c (intentOf actions) proving
    "returned to the caller unsubmitted"
  return callAndProof prepared simulate

/-- A deposit: public, from the user's account. -/
def invokeDeposit (caller : Caller) (c : Ctx) (actions : List Action) (intent : Intent) :
    Serve Json := do
  if actions.any (fun a => !hasDeposit [a]) then
    throw (.invalidRequest ("deposits are submitted publicly from your account, so they can't " ++
      "share a batch with transfers or withdrawals: send the deposit first, then the private " ++
      "actions"))
  let proving ← provingFor c actions
  checkPublicFunds K c intent.deposits
  let prepared ← prepare K S caller "wallet_strk20InvokeTransaction" c intent proving
    "submitted from this account"
  let hash ← submitFromAccount K c prepared intent.deposits
  return .obj [("transaction_hash", .str (feltHex hash))]

/-- A relayed batch's balance error says what the relay's fee adds. -/
def withRelayFee (fee : Paymaster.FeeAction) : WalletRpcError → WalletRpcError
  | .insufficientPrivateBalance m => .insufficientPrivateBalance (m ++
      " The amount includes the AVNU relay fee of " ++ toString fee.amount.toNat ++
      " (base units of " ++ feltHex fee.token ++ "), which covers the pool's fee.")
  | e => e

/-- Everything else: relayed by the paymaster, paid from the shielded balance. -/
def invokeRelayed (caller : Caller) (c : Ctx) (intent : Intent) : Serve Json := do
  if trim c.cfg.avnuApiKey = "" then
    throw (.precondition ("private transfers and withdrawals are relayed through the AVNU " ++
      "paymaster, and no AVNU API key is set (Settings → STRK20). Without one, call " ++
      "wallet_strk20PrepareInvoke and submit the returned call and proof from another account."))
  let url := if trim c.cfg.paymasterUrl = "" then Paymaster.defaultUrl c.chain
    else trim c.cfg.paymasterUrl
  let relay := Paymaster.new url (trim c.cfg.avnuApiKey) strk
  let fee ← mapErr WalletRpcError.unknown (Paymaster.quote K relay c.pool c.user)
  let relayed := { intent with
    withdrawals := intent.withdrawals ++ [(fee.recipient, fee.token, fee.amount)] }
  let submission := "relayed privately by the AVNU paymaster for a fee of " ++
    toString fee.amount.toNat ++ " (base units of " ++ feltHex fee.token ++ ")"
  let prepared ← mapErr (withRelayFee fee)
    (prepare K S caller "wallet_strk20InvokeTransaction" c relayed .local submission)
  let hash ← mapErr WalletRpcError.unknown
    (Paymaster.execute K relay prepared.call prepared.proved.proof prepared.proved.proofFacts)
  return .obj [("transaction_hash", .str (feltHex hash))]

def invokeTransaction (caller : Caller) (params : Json) : Serve Json := do
  let actions ← parseActions K params
  let c ← ctx K S caller params
  if hasDeposit actions then invokeDeposit K S caller c actions (intentOf actions)
  else invokeRelayed K S caller c (intentOf actions)

end Strkd.Rpc.Strk20
