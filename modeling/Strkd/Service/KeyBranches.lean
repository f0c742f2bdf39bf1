import Strkd.Service.World
import Strkd.Wallet.Branches

/-!
# The keys a wallet can use

The whole wallet reads a private key only where `privateKey` derives one.  Crates that derive other
keys off the two branches, and the same keys on them, therefore make the same wallet: whatever the
registry holds and whatever a request says, no other key is ever used.
-/

namespace Strkd

open Wallet Rpc

variable {K : Crates} {derive : String → U32 → U32 → U32 → Option Felt} {S : Setup}

/-! ## The session -/

namespace Rpc.WalletSession

theorem deploymentDataFor_withKeys (h : SameOnBranches K derive) :
    deploymentDataFor (K.withKeys derive) = deploymentDataFor K := by
  unfold deploymentDataFor
  rw [deploymentData_withKeys h]

theorem signTypedDataFor_withKeys (h : SameOnBranches K derive) :
    signTypedDataFor (K.withKeys derive) = signTypedDataFor K := by
  unfold signTypedDataFor
  rw [signTypedData_withKeys h]
  rfl

theorem strk20ViewingKeyFor_withKeys (h : SameOnBranches K derive) :
    strk20ViewingKeyFor (K.withKeys derive) = strk20ViewingKeyFor K := by
  unfold strk20ViewingKeyFor
  rw [strk20ViewingKey_withKeys h]

theorem signHashFor_withKeys (h : SameOnBranches K derive) :
    signHashFor (K.withKeys derive) = signHashFor K := by
  unfold signHashFor
  rw [signHash_withKeys h]

theorem signInvokeFor_withKeys (h : SameOnBranches K derive) :
    signInvokeFor (K.withKeys derive) = signInvokeFor K := by
  unfold signInvokeFor
  rw [signInvokeV3_withKeys h]
  rfl

theorem signDeclareFor_withKeys (h : SameOnBranches K derive) :
    signDeclareFor (K.withKeys derive) = signDeclareFor K := by
  unfold signDeclareFor
  rw [signDeclareV3_withKeys h]
  rfl

theorem signDeployAccountFor_withKeys (h : SameOnBranches K derive) :
    signDeployAccountFor (K.withKeys derive) = signDeployAccountFor K := by
  unfold signDeployAccountFor
  rw [signDeployAccountV3_withKeys h]

theorem createAccount_withKeys (h : SameOnBranches K derive) :
    createAccount (K.withKeys derive) = createAccount K := by
  unfold createAccount nextAccount
  rw [accountAddress_withKeys h]

theorem managerAccount_withKeys (h : SameOnBranches K derive) :
    managerAccount (K.withKeys derive) = managerAccount K := by
  unfold managerAccount
  rw [accountAddress_withKeys h]

end Rpc.WalletSession

/-! ## Reading the pool -/

namespace Strk20

variable {m : Type → Type} [Monad m]

theorem scanNotes_withKeys : @scanNotes m _ (K.withKeys derive) = @scanNotes m _ K := by
  funext r channel userSk token left i
  induction left generalizing i with
  | zero => rfl
  | succ left ih =>
      unfold scanNotes
      simp only [ih]
      rfl

theorem scanSubchannels_withKeys :
    @scanSubchannels m _ (K.withKeys derive) = @scanSubchannels m _ K := by
  funext r channel userSk tokens left k
  induction left generalizing k with
  | zero => rfl
  | succ left ih =>
      unfold scanSubchannels
      simp only [ih, scanNotes_withKeys]
      rfl

theorem scanChannels_withKeys : @scanChannels m _ (K.withKeys derive) = @scanChannels m _ K := by
  funext r user userSk tokens left c
  induction left generalizing c with
  | zero => rfl
  | succ left ih =>
      unfold scanChannels
      simp only [ih, scanSubchannels_withKeys]
      rfl

theorem discoverNotes_withKeys :
    @discoverNotes m _ (K.withKeys derive) = @discoverNotes m _ K := by
  unfold discoverNotes
  simp only [scanChannels_withKeys]
  rfl

theorem countNotes_withKeys : @countNotes m _ (K.withKeys derive) = @countNotes m _ K := by
  funext r key token fuel next
  induction fuel generalizing next with
  | zero => rfl
  | succ fuel ih =>
      unfold countNotes
      simp only [ih]
      rfl

theorem scanOutgoing_withKeys : @scanOutgoing m _ (K.withKeys derive) = @scanOutgoing m _ K := by
  funext r fuel key left k found
  induction left generalizing k found with
  | zero => rfl
  | succ left ih =>
      unfold scanOutgoing
      simp only [ih, countNotes_withKeys]
      rfl

theorem discoverChannel_withKeys :
    @discoverChannel m _ (K.withKeys derive) = @discoverChannel m _ K := by
  unfold discoverChannel
  simp only [scanOutgoing_withKeys]
  rfl

theorem scanChannelCount_withKeys :
    @scanChannelCount m _ (K.withKeys derive) = @scanChannelCount m _ K := by
  funext r user userSk left s
  induction left generalizing s with
  | zero => rfl
  | succ left ih =>
      unfold scanChannelCount
      simp only [ih]
      rfl

theorem outgoingChannelCount_withKeys :
    @outgoingChannelCount m _ (K.withKeys derive) = @outgoingChannelCount m _ K := by
  unfold outgoingChannelCount
  rw [scanChannelCount_withKeys]

end Strk20

/-! ## Private batches -/

namespace Rpc.Strk20

open Strkd.Strk20

theorem discoverChannels_withKeys :
    discoverChannels (K.withKeys derive) S = discoverChannels K S := by
  funext c r userSk recipients channels
  induction recipients generalizing channels with
  | nil => rfl
  | cons recipient rest ih =>
      unfold discoverChannels
      simp only [ih, discoverChannel_withKeys]

theorem discoverState_withKeys : discoverState (K.withKeys derive) S = discoverState K S := by
  unfold discoverState
  simp only [discoverChannels_withKeys, discoverNotes_withKeys, outgoingChannelCount_withKeys]
  rfl

theorem ctx_withKeys : ctx (K.withKeys derive) S = ctx K S := rfl

theorem freshPlan_withKeys : freshPlan (K.withKeys derive) S = freshPlan K S := by
  unfold freshPlan
  simp only [discoverState_withKeys]
  rfl

theorem signAndProveBatch_withKeys :
    signAndProveBatch (K.withKeys derive) = signAndProveBatch K := rfl

theorem prepare_withKeys : prepare (K.withKeys derive) S = prepare K S := by
  unfold prepare
  simp only [freshPlan_withKeys, signAndProveBatch_withKeys]

theorem checkBalances_withKeys : checkBalances (K.withKeys derive) = checkBalances K := by
  funext c fee needs
  induction needs with
  | nil => rfl
  | cons need rest ih =>
      unfold checkBalances
      simp only [ih]
      rfl

theorem checkPublicFunds_withKeys : checkPublicFunds (K.withKeys derive) = checkPublicFunds K := by
  unfold checkPublicFunds
  simp only [checkBalances_withKeys]
  rfl

theorem submitFromAccount_withKeys :
    submitFromAccount (K.withKeys derive) = submitFromAccount K := rfl

theorem parseActions_withKeys : parseActions (K.withKeys derive) = parseActions K := rfl

theorem balances_withKeys : Strk20.balances (K.withKeys derive) S = Strk20.balances K S := by
  unfold Strk20.balances
  simp only [ctx_withKeys, discoverNotes_withKeys]
  rfl

theorem register_withKeys : Strk20.register (K.withKeys derive) S = Strk20.register K S := by
  unfold Strk20.register
  simp only [ctx_withKeys, prepare_withKeys, submitFromAccount_withKeys]
  rfl

theorem prepareInvoke_withKeys :
    Strk20.prepareInvoke (K.withKeys derive) S = Strk20.prepareInvoke K S := by
  unfold Strk20.prepareInvoke
  simp only [ctx_withKeys, prepare_withKeys, parseActions_withKeys]

theorem invokeDeposit_withKeys : invokeDeposit (K.withKeys derive) S = invokeDeposit K S := by
  unfold invokeDeposit
  simp only [checkPublicFunds_withKeys, prepare_withKeys, submitFromAccount_withKeys]

theorem invokeRelayed_withKeys : invokeRelayed (K.withKeys derive) S = invokeRelayed K S := by
  unfold invokeRelayed
  simp only [prepare_withKeys]
  rfl

theorem invokeTransaction_withKeys :
    Strk20.invokeTransaction (K.withKeys derive) S = Strk20.invokeTransaction K S := by
  unfold Strk20.invokeTransaction
  simp only [ctx_withKeys, parseActions_withKeys, invokeDeposit_withKeys, invokeRelayed_withKeys]

end Rpc.Strk20

/-! ## The handlers -/

namespace Rpc

theorem handleDeploymentData_withKeys (h : SameOnBranches K derive) :
    handleDeploymentData (K.withKeys derive) = handleDeploymentData K := by
  unfold handleDeploymentData
  simp only [WalletSession.deploymentDataFor_withKeys h]

theorem handleFundingSource_withKeys (h : SameOnBranches K derive) :
    handleFundingSource (K.withKeys derive) = handleFundingSource K := by
  unfold handleFundingSource
  simp only [WalletSession.managerAccount_withKeys h]

theorem handleRequestFunding_withKeys (h : SameOnBranches K derive) :
    handleRequestFunding (K.withKeys derive) = handleRequestFunding K := by
  unfold handleRequestFunding
  simp only [WalletSession.managerAccount_withKeys h]
  rfl

theorem handleDeployAccount_withKeys (h : SameOnBranches K derive) :
    handleDeployAccount (K.withKeys derive) = handleDeployAccount K := by
  unfold handleDeployAccount
  simp only [WalletSession.deploymentDataFor_withKeys h]
  rfl

theorem serve_withKeys (h : SameOnBranches K derive) : serve (K.withKeys derive) S = serve K S := by
  funext client req method
  unfold serve
  simp only [handleDeploymentData_withKeys h, handleFundingSource_withKeys h,
    handleRequestFunding_withKeys h, handleDeployAccount_withKeys h, Strk20.balances_withKeys,
    Strk20.prepareInvoke_withKeys, Strk20.invokeTransaction_withKeys, Strk20.register_withKeys]
  rfl

theorem dispatch_withKeys (h : SameOnBranches K derive) :
    dispatch (K.withKeys derive) S = dispatch K S := by
  unfold dispatch handle handlePaired
  simp only [serve_withKeys h]

end Rpc

namespace Desktop

theorem deployAccount_withKeys (h : SameOnBranches K derive) :
    deployAccount (K.withKeys derive) = deployAccount K := by
  unfold deployAccount
  simp only [WalletSession.deploymentDataFor_withKeys h]
  rfl

end Desktop

/-! ## The service -/

namespace Service

theorem run_withKeys (h : SameOnBranches K derive) :
    UiCommand.run (K.withKeys derive) S = UiCommand.run K S := by
  funext c
  unfold UiCommand.run Desktop.strk20Balances Desktop.strk20Register Desktop.strk20Invoke
    Desktop.strk20Prepare
  simp only [Desktop.deployAccount_withKeys h, Strk20.balances_withKeys,
    Strk20.prepareInvoke_withKeys, Strk20.invokeTransaction_withKeys, Strk20.register_withKeys]
  rfl

theorem start_withKeys (h : SameOnBranches K derive) :
    Task.start (K.withKeys derive) S = Task.start K S := by
  unfold Task.start
  simp only [dispatch_withKeys h, run_withKeys h]

theorem answers_withKeys (h : SameOnBranches K derive) :
    World.Answers (K.withKeys derive) = World.Answers K := by
  unfold World.Answers WalletSession.createAgentAccount WalletSession.createUserAccount
  simp only [WalletSession.signTypedDataFor_withKeys h, WalletSession.signInvokeFor_withKeys h,
    WalletSession.signDeclareFor_withKeys h, WalletSession.signDeployAccountFor_withKeys h,
    WalletSession.signHashFor_withKeys h, WalletSession.strk20ViewingKeyFor_withKeys h,
    WalletSession.createAccount_withKeys h]
  rfl

theorem exec_withKeys (h : SameOnBranches K derive) :
    World.Exec (K.withKeys derive) = World.Exec K := by
  have heffect : World.effect (K.withKeys derive) = World.effect K := rfl
  have hanswers := answers_withKeys h
  funext w pid op a w'
  apply propext
  constructor
  · intro hx
    cases hx
    case effect hanswer =>
      rw [hanswers] at hanswer
      rw [heffect]
      exact .effect w pid op a hanswer
    case failedWrite vault e left hleft => exact .failedWrite w pid vault e left hleft
    case tornSettings s a ha => exact .tornSettings w pid s a ha
  · intro hx
    cases hx
    case effect hanswer =>
      rw [← hanswers] at hanswer
      rw [← heffect]
      exact .effect w pid op a hanswer
    case failedWrite vault e left hleft => exact .failedWrite w pid vault e left hleft
    case tornSettings s a ha => exact .tornSettings w pid s a ha

/-- A wallet whose crates derive other keys off the branches is the same wallet. -/
theorem service_withKeys (h : SameOnBranches K derive) :
    service (K.withKeys derive) S = service K S := by
  unfold service
  rw [start_withKeys h, exec_withKeys h]

/-! ## The funding source -/

/-- A funding source is never truncated to a 32-bit number: it is absent, or it is one. -/
theorem fundingSourceIndex_eq_ok {params : Json} {i : U32} (h : fundingSourceIndex params = .ok i) :
    (presentParam params "funding_source_index" = none ∧ i = 0) ∨
    ∃ v, presentParam params "funding_source_index" = some v ∧ v.asU64 = some i.toNat := by
  unfold fundingSourceIndex at h
  cases hv : presentParam params "funding_source_index" with
  | none =>
      rw [hv] at h
      exact Or.inl ⟨rfl, (Except.ok.inj h).symm⟩
  | some v =>
      simp only [hv] at h
      cases hn : v.asU64 with
      | none =>
          simp only [hn] at h
          exact nomatch h
      | some n =>
          simp only [hn] at h
          by_cases hlt : n < 2 ^ 32
          · rw [if_pos hlt] at h
            have hi : i.toNat = n := by
              rw [← Except.ok.inj h, BitVec.toNat_ofNat, Nat.mod_eq_of_lt hlt]
            exact Or.inr ⟨v, rfl, by rw [hi, hn]⟩
          · rw [if_neg hlt] at h
            exact nomatch h

/-! ## The branches never meet -/

/-- Every function that uses a private key, on the `n`-th account of a branch. -/
structure AllUnderived (K : Crates) (mnemonic : String) (d : Domain) (n : U32) : Prop where
  publicKey : Underived K fun K => publicKey K mnemonic d n
  deploymentData : ∀ chain contract,
    Underived K fun K => deploymentData K mnemonic d n chain contract
  accountAddress : ∀ chain contract,
    Underived K fun K => accountAddress K mnemonic d n chain contract
  viewingKey : ∀ chainId pool, Underived K fun K => strk20ViewingKey K mnemonic d n chainId pool
  signHash : ∀ hash, Underived K fun K => signHash K mnemonic d n hash
  signTypedData : ∀ typedDataJson address,
    Underived K fun K => signTypedData K mnemonic d n typedDataJson address
  signInvoke : ∀ sender calls chain p contract,
    Underived K fun K => signInvokeV3 K mnemonic d n sender calls chain p contract
  signDeclare : ∀ sender classHash compiledClassHash chain p contract, Underived K fun K =>
    signDeclareV3 K mnemonic d n sender classHash compiledClassHash chain p contract
  signDeployAccount : ∀ chain p contract,
    Underived K fun K => signDeployAccountV3 K mnemonic d n chain p contract

theorem allUnderived (mnemonic : String) {d : Domain} {n : U32} (h : d.checkIndex n ≠ .ok ()) :
    AllUnderived K mnemonic d n where
  publicKey := underived_publicKey mnemonic h
  deploymentData := underived_deploymentData mnemonic h
  accountAddress := underived_accountAddress mnemonic h
  viewingKey := underived_strk20ViewingKey mnemonic h
  signHash hash := underived_signHash mnemonic h fun _ => hash
  signTypedData := underived_signTypedData mnemonic h
  signInvoke := underived_signInvokeV3 mnemonic h
  signDeclare := underived_signDeclareV3 mnemonic h
  signDeployAccount := underived_signDeployAccountV3 mnemonic h

/-- The crates with the keys that another seed tree has. -/
def alongPaths (keyAt : String → List U32 → Option Felt) (mnemonic : String)
    (addressIndex accountIndex coinType : U32) : Option Felt :=
  keyAt mnemonic (childNumbers coinType accountIndex addressIndex)

/-- Seed trees that agree where the accounts there are have their keys. -/
theorem sameOnBranches_alongPaths {keyAt keyAt' : String → List U32 → Option Felt}
    (hpath : DerivesAlongPaths K keyAt)
    (h : ∀ mnemonic (d : Domain) n, n.toNat < d.numbers →
      keyAt' mnemonic (d.childNumbers n) = keyAt mnemonic (d.childNumbers n)) :
    SameOnBranches K (alongPaths keyAt') := by
  intro mnemonic d n hn
  rw [hpath mnemonic]
  exact h mnemonic d n (checkIndex_iff.1 hn)

/-- A seed tree whose keys spell out the child numbers. -/
def spelledKey (mnemonic : String) (path : List U32) : Option Felt :=
  some (.ofNat (path.foldl (fun n child => 2 ^ 32 * n + child.toNat) mnemonic.length))

/-- The same tree, with the keys of the BIP-44 purpose only. -/
def bip44Key (mnemonic : String) (path : List U32) : Option Felt :=
  if path.head? = some (hardened 44) then spelledKey mnemonic path else none

def spelledCrates : Crates := { plainCrates with derivePrivateKey := alongPaths spelledKey }

end Service

end Strkd
