import Strkd.Rpc.Dispatch

/-!
# Computations that look outward

What the service asks of the nodes, the relay, the provers and its own job store, and the
computations that perform nothing else: they neither look at the session nor at the client store.
-/

namespace Strkd.Rpc

open Wallet Prover

def outward : Op → Bool
  | .clock (.gate _ _) => false
  | .clock _ | .seconds | .instant | .elapsed | .jobClock | .proveElapsed | .entropy | .osRandomness
  | .halt | .touchActivity | .lastActivity | .readSettings | .strk20Config _ | .createJob _ _ | .setJobStatus _ _
  | .succeedJob _ _ | .failJob _ _ | .getJob _ | .recentActivity | .spawnProve _ | .saveProof _
  | .record _ | .nodeFor _ | .nodeRpc _ _ _ | .prove _ _ _ | .remoteProve _ _ _ _
  | .paymasterRpc _ _ _ _ => true
  | _ => false

/-- The methods that hand a transaction to a node. -/
def broadcastMethods : List String := ["starknet_addInvokeTransaction",
  "starknet_addDeclareTransaction", "starknet_addDeployAccountTransaction"]

/-- Operations that hand a transaction to a node or a prover. -/
def sendsOut : Op → Bool
  | .nodeRpc _ method _ => broadcastMethods.contains method
  | .spawnProve _ | .prove _ _ _ | .remoteProve _ _ _ _ => true
  | _ => false

/-- Outward operations that hand no transaction on. -/
def reading (op : Op) : Bool := outward op && !sendsOut op

/-- A computation that performs outward operations only. -/
abbrev Outward {ε α : Type} (m : Handler ε Op Ans α) : Prop :=
  Confined (fun op => outward op = true) m

/-- A computation that looks outward and hands no transaction on. -/
abbrev Reading {ε α : Type} (m : Handler ε Op Ans α) : Prop :=
  Confined (fun op => reading op = true) m

theorem Reading.outward {ε α : Type} {m : Handler ε Op Ans α} (h : Reading m) : Outward m :=
  Only.mono h fun _ hop => (Bool.and_eq_true_iff.1 hop).1

/-! ## Computations confined to some operations -/

section

variable {P : Op → Prop} {chain : ChainId}

theorem confined_perform {ε : Type} {op : Op} (h : P op) :
    Confined P (ExceptT.lift (Prog.perform op) : Handler ε Op Ans (Ans op)) :=
  ⟨h, fun _ => trivial⟩

theorem confined_propagate {ε α : Type} (r : Except ε α) : Confined P (propagate r) := trivial

theorem confined_call {method : String} {params : Json} (h : P (.nodeRpc chain method params)) :
    Confined P (Node.call chain method params) :=
  .bind (confined_perform h) fun _ => .lift _

theorem confined_isDeployed {address : Felt} (h : P (.nodeRpc chain "starknet_getClassHashAt"
    (.arr [.str "latest", .str (feltHex address)]))) : Confined P (Node.isDeployed chain address) := by
  refine .bind (confined_perform h) fun reply => ?_
  split
  · exact .pure _
  · exact .pure _
  · exact .throw _

theorem confined_requireNode (h : P (.nodeFor chain)) : Confined P (requireNode chain) := by
  refine .bind (confined_perform h) fun configured => ?_
  split
  · exact .throw _
  · exact .pure _

variable (K : Crates)

theorem confined_getNonce {address : Felt} (h : P (.nodeRpc chain "starknet_getNonce"
    (.arr [.str "latest", .str (feltHex address)]))) :
    Confined P (Node.getNonce K chain address) :=
  .bind (confined_call h) fun _ => .lift _

theorem confined_resolveNonce {sender : Felt} (hnode : P (.nodeFor chain))
    (hcall : P (.nodeRpc chain "starknet_getNonce" (.arr [.str "latest", .str (feltHex sender)])))
    (params : Json) : Confined P (resolveNonce K chain sender params) := by
  refine .bind (.lift _) fun nonce => ?_
  split
  · exact .pure _
  · exact .bind (confined_requireNode hnode) fun _ => .mapErr (confined_getNonce K hcall)

theorem confined_requireDeployed {sender : Felt} (hnode : P (.nodeFor chain))
    (hcall : P (.nodeRpc chain "starknet_getClassHashAt"
      (.arr [.str "latest", .str (feltHex sender)]))) (manager : AccountRef) :
    Confined P (requireDeployed chain manager sender) := by
  refine .bind (confined_perform hnode) fun configured => ?_
  split
  · refine .bind (.mapErr (confined_isDeployed hcall)) fun deployed => ?_
    split
    · exact .throw _
    · exact .pure _
  · exact .pure _

theorem confined_requireUndeployed {account : AccountRef} (hnode : P (.nodeFor chain))
    (hcall : ∀ address, WalletSession.storedAddress K account = .ok address →
      P (.nodeRpc chain "starknet_getClassHashAt" (.arr [.str "latest", .str (feltHex address)]))) :
    Confined P (requireUndeployed K chain account) := by
  refine .bind (confined_perform hnode) fun configured => ?_
  split
  · cases haddress : WalletSession.storedAddress K account with
    | error e =>
        have hsender : senderOf K account = .error e := haddress
        rw [hsender]
        exact .throw e
    | ok address =>
        have hsender : senderOf K account = .ok address := haddress
        rw [hsender]
        refine Confined.bind (m := mapErr nodeError (Node.isDeployed chain address))
          (.mapErr (confined_isDeployed (hcall address haddress))) fun deployed => ?_
        split
        · exact .throw _
        · exact .pure _
  · exact .pure _

section

variable (hsession : P .session)
include hsession

theorem confined_readRegistry : Confined P readRegistry :=
  .bind (confined_perform hsession) fun _ => .lift _

theorem confined_scopedAccount (client : PairedClient) (want : String) :
    Confined P (scopedAccount client want) := by
  refine .bind (confined_readRegistry hsession) fun reg => ?_
  split
  · exact .pure _
  · exact .throw _

theorem confined_scopedAccountOr (client : PairedClient) (param : Option String)
    (missing : WalletRpcError) : Confined P (scopedAccountOr K client param missing) := by
  refine .bind (confined_readRegistry hsession) fun reg => ?_
  split
  · refine .bind (.lift _) fun _ => .bind (.pure _) fun found => ?_
    cases found with
    | some a => exact .pure _
    | none => exact .throw _
  · refine .bind (.pure _) fun found => ?_
    cases found with
    | some a => exact .pure _
    | none => exact .throw _

theorem confined_callerAccount (caller : Rpc.Strk20.Caller) (params : Json) :
    Confined P (Rpc.Strk20.callerAccount K caller params) := by
  refine .bind (confined_readRegistry hsession) fun reg => ?_
  dsimp only
  split
  · refine .bind (.lift _) fun _ => .bind (.pure _) fun found => ?_
    cases found with
    | some a => exact .pure _
    | none => exact .throw _
  · refine .bind (.pure _) fun found => ?_
    cases found with
    | some a => exact .pure _
    | none => exact .throw _

theorem confined_resolveChain (params : Json) : Confined P (resolveChain K params) := by
  unfold resolveChain
  split
  · exact .bind (confined_perform hsession) fun _ => .pure _
  · exact .bind (confined_perform hsession) fun _ => .pure _
  · split
    · exact .throw _
    · split
      · exact .pure _
      · exact .throw _
  · exact .throw _

end

end

/-! ## Computations that read -/

theorem outward_act {ε : Type} {op : Op} (h : outward op = true) :
    Outward (ExceptT.lift (Prog.perform op) : Handler ε Op Ans (Ans op)) :=
  confined_perform h

theorem reading_act {ε : Type} {op : Op} (h : reading op = true) :
    Reading (ExceptT.lift (Prog.perform op) : Handler ε Op Ans (Ans op)) :=
  confined_perform h

variable (K : Crates) (S : Setup)

/-! ## The node and the relay -/

theorem outward_call (chain : ChainId) (method : String) (params : Json) :
    Outward (Node.call chain method params) := confined_call rfl

theorem reading_getNonce (chain : ChainId) (address : Felt) : Reading (Node.getNonce K chain address) :=
  confined_getNonce K rfl

theorem reading_estimate (chain : ChainId) (tx : Json) : Reading (Node.estimate chain tx) :=
  .bind (confined_call rfl) fun _ => .bind (.lift _) fun _ => .lift _

theorem outward_addInvoke (chain : ChainId) (sender : Felt) (calldata signature : List Felt)
    (nonce : Felt) (bounds : FeeBounds) (proofFacts : List Felt) (proof : Option String) :
    Outward (Node.addInvoke K chain sender calldata signature nonce bounds proofFacts proof) :=
  .bind (outward_call ..) fun _ => .lift _

theorem outward_addDeployAccount (chain : ChainId) (classHash : Felt)
    (constructorCalldata : List Felt) (salt : Felt) (signature : List Felt) (bounds : FeeBounds) :
    Outward (Node.addDeployAccount K chain classHash constructorCalldata salt signature bounds) :=
  .bind (outward_call ..) fun _ => .lift _

theorem outward_addDeclare (chain : ChainId) (sender compiledClassHash : Felt) (contractClass : Json)
    (signature : List Felt) (nonce : Felt) (bounds : FeeBounds) :
    Outward (Node.addDeclare K chain sender compiledClassHash contractClass signature nonce bounds) :=
  .bind (outward_call ..) fun _ => .lift _

theorem reading_isDeployed (chain : ChainId) (address : Felt) :
    Reading (Node.isDeployed chain address) := confined_isDeployed rfl

theorem reading_paymasterRpc (p : Paymaster) (method : String) (params : Json) :
    Reading (Paymaster.rpc p method params) :=
  .bind (reading_act rfl) fun _ => .lift _

theorem reading_quote (p : Paymaster) (pool user : Felt) : Reading (Paymaster.quote K p pool user) :=
  .bind (reading_paymasterRpc ..) fun _ => .lift _

theorem reading_execute (p : Paymaster) (c : Call) (proof : String) (proofFacts : List Felt) :
    Reading (Paymaster.execute K p c proof proofFacts) :=
  .bind (.mapErr (reading_paymasterRpc ..)) fun _ => .lift _

/-! ## Nonces and fees -/

theorem reading_requireNode (chain : ChainId) : Reading (requireNode chain) := confined_requireNode rfl

theorem reading_resolveNonce (chain : ChainId) (sender : Felt) (params : Json) :
    Reading (resolveNonce K chain sender params) := confined_resolveNonce K (by rfl) (by rfl) params

theorem reading_resolveExec (chain : ChainId) (sender : Felt) (calldata : List Felt) (params : Json)
    (proofCarrying : Option (List Felt × Option String)) :
    Reading (resolveExec K chain sender calldata params proofCarrying) := by
  refine .bind (reading_resolveNonce ..) fun nonce => .bind (.lift _) fun bounds => ?_
  split
  · exact .pure _
  · split
    · exact .bind (reading_requireNode _) fun _ =>
        .bind (.mapErr (reading_estimate ..)) fun _ => .pure _
    · exact .throw _
    · exact .bind (reading_requireNode _) fun _ =>
        .bind (.mapErr (reading_estimate ..)) fun _ => .pure _

theorem reading_declareBounds (chain : ChainId) (sender compiledClassHash : Felt)
    (classJson : Option Json) (nonce : Felt) (params : Json) :
    Reading (declareBounds chain sender compiledClassHash classJson nonce params) := by
  refine .bind (.lift _) fun bounds => ?_
  split
  · exact .pure _
  · refine .bind (reading_requireNode _) fun _ => ?_
    split
    · exact .mapErr (reading_estimate ..)
    · exact .throw _

theorem reading_requireDeployed (chain : ChainId) (manager : AccountRef) (sender : Felt) :
    Reading (requireDeployed chain manager sender) := confined_requireDeployed (by rfl) (by rfl) manager

theorem reading_requireUndeployed (chain : ChainId) (account : AccountRef) :
    Reading (requireUndeployed K chain account) := confined_requireUndeployed K rfl fun _ _ => rfl

theorem reading_deployBounds (chain : ChainId) (d : DeploymentData) (params : Json) :
    Reading (deployBounds chain d params) := by
  refine .bind (.lift _) fun bounds => ?_
  split
  · exact .pure _
  · exact .bind (reading_requireNode _) fun _ => .mapErr (reading_estimate ..)

/-! ## Proving -/

theorem outward_enqueueProve (payload : Json) (label : Option String) (network : String) :
    Outward (enqueueProve payload label network) :=
  .bind (outward_act rfl) fun _ => .bind (outward_act rfl) fun _ => .bind (outward_act rfl) fun _ => .pure _

theorem outward_handleProve (params : Json) : Outward (handleProve S params) :=
  .bind (.lift _) fun _ => .bind (outward_enqueueProve ..) fun _ => .pure _

theorem reading_handleProveStatus (params : Json) : Reading (handleProveStatus S params) := by
  refine .bind (.lift _) fun _ => .bind (.lift _) fun jobId => .bind (reading_act rfl) fun job => ?_
  split
  · exact .pure _
  · exact .throw _

theorem reading_handleProofActivity : Reading (handleProofActivity S) :=
  .bind (.lift _) fun _ => .bind (reading_act rfl) fun _ => .pure _

/-! ## Reading the pool -/

section Reader

open Strkd.Strk20

variable {P : Op → Prop} {r : PoolReader (Prog Op Ans)}

/-- A reader that performs only operations of `P`. -/
structure ConfinedReader (P : Op → Prop) (r : PoolReader (Prog Op Ans)) : Prop where
  call : ∀ selector calldata, Confined P (r.call selector calldata)
  stuck : ∀ α : Type, Confined P (r.stuck : Handler Error Op Ans α)

variable (hr : ConfinedReader P r)
include hr

theorem confined_view (name : String) (calldata : List Felt) (n : ℕ) :
    Confined P (view K r name calldata n) := by
  refine .bind (hr.call _ _) fun out => ?_
  split
  · exact .throw _
  · exact .pure _

theorem confined_registeredKey (user : Felt) : Confined P (registeredKey K r user) :=
  .bind (confined_view K hr ..) fun _ => .pure _

theorem confined_flag (name : String) (arg : Felt) : Confined P (flag K r name arg) :=
  .bind (confined_view K hr ..) fun _ => .pure _

theorem confined_notePackedValue (noteId : Felt) : Confined P (notePackedValue K r noteId) :=
  .bind (confined_view K hr ..) fun _ => .pure _

theorem confined_subchannelInfo (id : Felt) : Confined P (subchannelInfo K r id) :=
  .bind (confined_view K hr ..) fun _ => .pure _

theorem confined_scanNotes (channel : ChannelInfo) (userSk token : Felt) (left i : ℕ) :
    Confined P (scanNotes K r channel userSk token left i) := by
  induction left generalizing i with
  | zero => exact .throw _
  | succ left ih =>
      refine .bind (confined_notePackedValue K hr _) fun packed => ?_
      split
      · exact .pure _
      · exact .bind (confined_flag K hr ..) fun _ => .bind (ih _) fun _ => .pure _

theorem confined_scanSubchannels (channel : ChannelInfo) (userSk : Felt) (tokens : List Felt)
    (left k : ℕ) : Confined P (scanSubchannels K r channel userSk tokens left k) := by
  induction left generalizing k with
  | zero => exact .throw _
  | succ left ih =>
      refine .bind (confined_subchannelInfo K hr _) fun sub => ?_
      split
      · exact .pure _
      · dsimp only
        split
        · exact .bind (.pure _) fun _ => .bind (ih _) fun _ => .pure _
        · exact .bind (confined_scanNotes K hr ..) fun _ => .bind (ih _) fun _ => .pure _

theorem confined_scanChannels (user userSk : Felt) (tokens : List Felt) (left c : ℕ) :
    Confined P (scanChannels K r user userSk tokens left c) := by
  induction left generalizing c with
  | zero => exact .pure _
  | succ left ih =>
      exact .bind (confined_view K hr ..) fun o => .bind (.lift _) fun channel =>
        .bind (confined_scanSubchannels K hr ..) fun _ => .bind (ih _) fun _ => .pure _

theorem confined_discoverNotes (user userSk : Felt) (tokens : List Felt) :
    Confined P (discoverNotes K r user userSk tokens) := by
  refine .bind (confined_view K hr ..) fun o => ?_
  dsimp only
  split
  · exact .bind (.throw _) fun _ => confined_scanChannels K hr ..
  · exact confined_scanChannels K hr ..

theorem confined_countNotes (key token : Felt) (fuel : ℕ) (next : U32) :
    Confined P (countNotes K r key token fuel next) := by
  induction fuel generalizing next with
  | zero => exact hr.stuck _
  | succ fuel ih =>
      refine .bind (confined_notePackedValue K hr _) fun packed => ?_
      split
      · exact .pure _
      · exact ih _

theorem confined_scanOutgoing (fuel : ℕ) (key : Felt) (left k : ℕ)
    (found : Std.ExtTreeMap Felt Subchannel) :
    Confined P (scanOutgoing K r fuel key left k found) := by
  induction left generalizing k found with
  | zero => exact .throw _
  | succ left ih =>
      refine .bind (confined_subchannelInfo K hr _) fun sub => ?_
      split
      · exact .pure _
      · exact .bind (confined_countNotes K hr ..) fun _ => ih _ _

theorem confined_discoverChannel (fuel : ℕ) (user userSk recipient : Felt) :
    Confined P (discoverChannel K r fuel user userSk recipient) := by
  refine .bind (confined_registeredKey K hr _) fun pk => ?_
  split
  · refine .bind (confined_flag K hr ..) fun isOpen => ?_
    split
    · exact .bind (confined_scanOutgoing K hr ..) fun _ => .pure _
    · exact .bind (.pure _) fun _ => .pure _
  · exact .throw _

theorem confined_outgoingChannelCount (user userSk : Felt) :
    Confined P (outgoingChannelCount K r user userSk) := by
  unfold outgoingChannelCount
  generalize indices = left
  suffices h : ∀ s, Confined P (scanChannelCount K r user userSk left s) from h 0
  induction left with
  | zero => exact fun _ => .throw _
  | succ left ih =>
      refine fun s => .bind (confined_view K hr ..) fun o => ?_
      split
      · exact .pure _
      · exact ih _

end Reader

/-! ## The private batches -/

section Batches

open Strkd.Strk20 (Intent State Channels ProvedInvocation Plan)
open Rpc.Strk20

theorem reading_reader (c : Ctx) (block : Json) :
    ConfinedReader (fun op => reading op = true) (c.reader K block) where
  call _ _ := .bind (.mapErr (confined_call rfl)) fun _ => .lift _
  stuck _ := .bind (reading_act rfl) fun crashed => nomatch crashed

theorem reading_blockNumber (c : Ctx) : Reading (blockNumber c) := by
  refine .bind (.mapErr (confined_call rfl)) fun v => ?_
  split
  · exact .pure _
  · exact .throw _

theorem confined_discoverChannels {P : Op → Prop} {c : Ctx} {r : Strkd.Strk20.PoolReader (Prog Op Ans)}
    (hr : ConfinedReader P r) (userSk : Felt) (recipients : List Felt)
    (channels : Channels) : Confined P (discoverChannels K S c r userSk recipients channels) := by
  induction recipients generalizing channels with
  | nil => exact .pure _
  | cons recipient rest ih =>
      unfold discoverChannels
      split
      · exact ih _
      · exact .bind (.mapErr (confined_discoverChannel K hr ..)) fun _ => ih _

theorem confined_discoverState {P : Op → Prop} {c : Ctx}
    {r : Strkd.Strk20.PoolReader (Prog Op Ans)}
    (hr : ConfinedReader P r) (userSk : Felt) (intent : Intent) :
    Confined P (discoverState K S c r userSk intent) := by
  refine .bind (.mapErr (confined_registeredKey K hr _)) fun registered => ?_
  dsimp only
  split
  · refine .bind (confined_discoverChannels K S hr ..) fun channels => ?_
    have hcount : ∀ f : U32 → State, Confined P (do
        let outgoing ← fromPool (Strkd.Strk20.outgoingChannelCount K r c.user userSk)
        return f outgoing : Serve State) :=
      fun f => .bind (.mapErr (confined_outgoingChannelCount K hr ..)) fun _ => .pure _
    split
    · exact .bind (.mapErr (confined_discoverNotes K hr ..)) fun notes => hcount _
    · exact .bind (.pure _) fun notes => hcount _
  · rename_i hreg
    simp only [hreg]
    exact .bind (.pure _) fun _ => .bind (.pure _) fun _ => .bind (.pure _) fun _ => .pure _

theorem reading_planBatch (intent : Intent) (st : State) : Reading (planBatch K S intent st) := by
  refine .bind (reading_act rfl) fun draw => ?_
  split
  · exact .pure _
  · exact .throw _
  · exact .bind (reading_act rfl) fun crashed => nomatch crashed

theorem outward_proveUnrecorded (payload : Json) (label : Option String) (network : String) :
    Outward (proveUnrecorded payload label network) := by
  refine .bind (outward_act rfl) fun now => .bind (outward_act rfl) fun jobId =>
    .bind (outward_act rfl) fun _ => .bind (outward_act rfl) fun res => ?_
  split
  · exact .bind (outward_act rfl) fun _ => .pure _
  · exact .bind (outward_act rfl) fun _ => .pure _

theorem outward_proveInvocation (c : Ctx) (method : String) (proving : Proving) (userSk : Felt)
    (block : ℕ) (tx : Json) : Outward (proveInvocation c method proving userSk block tx) := by
  unfold proveInvocation
  split
  · refine .bind (outward_proveUnrecorded ..) fun res => ?_
    split
    · exact .pure _
    · exact .throw _
  · refine .bind (outward_act rfl) fun res => ?_
    split
    · exact .pure _
    · exact .throw _
    · exact .throw _

theorem reading_poolNonce (c : Ctx) (block : ℕ) : Reading (poolNonce K c block) := by
  refine .bind (.mapErr (confined_call rfl)) fun v => ?_
  split
  · exact .pure _
  · exact .throw _

theorem reading_freshPlan (c : Ctx) (userSk : Felt) (block : ℕ) (intent : Intent) :
    Reading (freshPlan K S c userSk block intent) := by
  refine .bind (confined_discoverState K S (reading_reader ..) ..) fun st =>
    .bind (confined_discoverState K S (reading_reader ..) ..) fun now => ?_
  have hplan : Reading (do
      let plan ← planBatch K S intent st
      if Strkd.Strk20.Warning.userLinkage ∈ plan.warnings then
        throw (.privacyLeak ("this batch would open more than one channel at once, letting an " ++
          "observer link them to one sender. Send to one new recipient per batch."))
      return plan : Serve Plan) := by
    refine .bind (reading_planBatch ..) fun plan => ?_
    split
    · exact .throw _
    · exact .pure _
  split
  · exact .bind (.throw _) fun _ => hplan
  · exact hplan

theorem reading_poolFee (c : Ctx) : Reading (poolFee K c) := by
  refine .bind (.mapErr ((reading_reader K c _).call _ _)) fun felts => ?_
  dsimp only
  split
  · exact .throw _
  · exact .pure _

theorem reading_checkBalances (c : Ctx) (fee : U128) (needs : List (Felt × U128)) :
    Reading (checkBalances K c fee needs) := by
  induction needs with
  | nil => exact .pure _
  | cons need rest ih =>
      refine .bind (.mapErr (confined_call rfl)) fun v => ?_
      split
      · dsimp only
        split
        · exact .bind (.throw _) fun _ => ih
        · exact ih
      · exact .throw _

theorem reading_checkPublicFunds (c : Ctx) (deposits : List (Felt × U128)) :
    Reading (checkPublicFunds K c deposits) :=
  .bind (reading_poolFee ..) fun _ => reading_checkBalances ..

theorem reading_requireFreshAttestation (p : ProvedInvocation) :
    Reading (requireFreshAttestation p) := by
  unfold requireFreshAttestation
  split
  · exact .pure _
  · refine .bind (reading_act rfl) fun now => ?_
    split
    · exact .throw _
    · exact .pure _

end Batches

end Strkd.Rpc
