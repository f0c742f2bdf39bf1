import Strkd.Wallet.Keys

/-!
# The two derivation branches

The key of `(domain, index)` is derived at five child numbers.  Within the ranges that `checkIndex`
allows the two branches never meet; outside them nothing is derived, although the hardened bit would
bring a large account number back onto a small one.
-/

namespace Strkd.Wallet

/-! ## Child numbers -/

/-- The bit that makes a child number a hardened one. -/
def hardenedBit : U32 := 0x80000000

/-- The hardened bit is ORed in, so a number that has it already stays as it is. -/
def hardened (n : U32) : U32 := n ||| hardenedBit

/-- The child numbers of `m/44'/coin_type'/account'/0/address`. -/
def childNumbers (coinType accountIndex addressIndex : U32) : List U32 :=
  [hardened 44, hardened coinType, hardened accountIndex, 0, addressIndex]

/-- What is promised of the derivation: the key is the one the seed has at the BIP-44 path of the
three numbers. -/
def DerivesAlongPaths (K : Crates) (keyAt : String → List U32 → Option Felt) : Prop :=
  ∀ mnemonic addressIndex accountIndex coinType,
    K.derivePrivateKey mnemonic addressIndex accountIndex coinType =
      keyAt mnemonic (childNumbers coinType accountIndex addressIndex)

/-- The child numbers that the `n`-th account of a branch asks for. -/
def Domain.childNumbers (d : Domain) (n : U32) : List U32 :=
  Wallet.childNumbers d.coinType (d.pathIndices n).1 (d.pathIndices n).2

/-- The child numbers a branch may use, those of `m/44'/9004'/account'/0/address` with the reserved
account exactly for agents. -/
structure Domain.OwnsPath (d : Domain) (path : List U32) (accountIndex addressIndex : U32) :
    Prop where
  path : path = [44 + hardenedBit, 9004 + hardenedBit, accountIndex + hardenedBit, 0, addressIndex]
  account : accountIndex < hardenedBit
  address : addressIndex < hardenedBit
  reserved : accountIndex = agentAccountIndex ↔ d = .agent

theorem hardened_toNat {n : U32} (h : n < hardenedBit) : (hardened n).toNat = 2 ^ 31 + n.toNat := by
  have hn : n.toNat < 2 ^ 31 := h
  have hor := Nat.two_pow_add_eq_or_of_lt hn 1
  rw [Nat.mul_one] at hor
  rw [hardened, BitVec.toNat_or, Nat.or_comm]
  exact hor.symm

/-- Below the ceiling, distinct numbers stay distinct when they are hardened. -/
theorem hardened_inj {n k : U32} (hn : n < hardenedBit) (hk : k < hardenedBit)
    (h : hardened n = hardened k) : n = k := by
  apply BitVec.eq_of_toNat_eq
  have := congrArg BitVec.toNat h
  rw [hardened_toNat hn, hardened_toNat hk] at this
  omega

theorem hardened_eq_add {n : U32} (h : n < hardenedBit) : hardened n = n + hardenedBit := by
  have hn : n.toNat < 2 ^ 31 := h
  apply BitVec.eq_of_toNat_eq
  rw [hardened_toNat h, BitVec.toNat_add, show hardenedBit.toNat = 2 ^ 31 from rfl]
  omega

/-- Above the ceiling they are not. -/
example : hardened 0xC1474E54 = hardened agentAccountIndex := by decide

/-- How many accounts a branch numbers. -/
def Domain.numbers : Domain → ℕ
  | .user => agentAccountIndex.toNat
  | .agent => 2 ^ 31

theorem checkIndex_iff {d : Domain} {n : U32} : d.checkIndex n = .ok () ↔ n.toNat < d.numbers := by
  unfold Domain.checkIndex
  dsimp only
  cases d with
  | user =>
      show _ ↔ n < agentAccountIndex
      split_ifs with h
      · exact iff_of_true rfl h
      · exact iff_of_false (by simp) h
  | agent =>
      show _ ↔ n < hardenedBit
      split_ifs with h
      · exact iff_of_true rfl h
      · exact iff_of_false (by simp) h

theorem childNumbers_eq {accountIndex addressIndex : U32} (h : accountIndex < hardenedBit) :
    childNumbers starknetCoinType accountIndex addressIndex =
      [44 + hardenedBit, 9004 + hardenedBit, accountIndex + hardenedBit, 0, addressIndex] := by
  have hpurpose : hardened 44 = 44 + hardenedBit := hardened_eq_add (by decide)
  have hcoin : hardened starknetCoinType = 9004 + hardenedBit := hardened_eq_add (by decide)
  rw [childNumbers, hpurpose, hcoin, hardened_eq_add h]

theorem ownsPath_of_checkIndex {d : Domain} {n : U32} (h : d.checkIndex n = .ok ()) :
    d.OwnsPath (d.childNumbers n) (d.pathIndices n).1 (d.pathIndices n).2 := by
  have hreserved : agentAccountIndex < hardenedBit := by decide
  cases d with
  | user =>
      have hlt : n < agentAccountIndex := checkIndex_iff.1 h
      have hn : n < hardenedBit := BitVec.lt_trans hlt hreserved
      have hzero : (0 : U32) < hardenedBit := by decide
      refine ⟨childNumbers_eq hn, hn, hzero, iff_of_false ?_ (by decide)⟩
      rintro rfl
      exact BitVec.lt_irrefl _ hlt
  | agent =>
      have hlt : n < hardenedBit := checkIndex_iff.1 h
      exact ⟨childNumbers_eq hreserved, hreserved, hlt, iff_of_true rfl rfl⟩

/-- Distinct accounts, of one branch or of two, are derived at distinct child numbers. -/
theorem childNumbers_inj {d d' : Domain} {n n' : U32} (h : d.checkIndex n = .ok ())
    (h' : d'.checkIndex n' = .ok ()) (heq : d.childNumbers n = d'.childNumbers n') :
    d = d' ∧ n = n' := by
  have hpath := ownsPath_of_checkIndex h
  have hpath' := ownsPath_of_checkIndex h'
  have hnumbers : hardened (d.pathIndices n).1 = hardened (d'.pathIndices n').1 ∧
      (d.pathIndices n).2 = (d'.pathIndices n').2 := by
    injection heq with _ htail
    injection htail with _ htail
    injection htail with haccount htail
    injection htail with _ htail
    injection htail with haddress _
    exact ⟨haccount, haddress⟩
  have haccount := hardened_inj hpath.account hpath'.account hnumbers.1
  have hd : d = d' := by
    have hiff := hpath.reserved.symm.trans ((Eq.congr_left haccount).trans hpath'.reserved)
    cases d <;> cases d' <;> simp_all
  subst hd
  refine ⟨rfl, ?_⟩
  cases d with
  | user => exact haccount
  | agent => exact hnumbers.2

/-! ## Where keys are derived -/

variable {K : Crates} {derive : String → U32 → U32 → U32 → Option Felt}

/-- A private key was derived at the child numbers of its account, on its branch. -/
theorem privateKey_eq_ok {mnemonic : String} {d : Domain} {n : U32} {sk : Felt}
    (h : privateKey K mnemonic d n = .ok sk) : d.checkIndex n = .ok () ∧
      K.derivePrivateKey mnemonic (d.pathIndices n).2 (d.pathIndices n).1 d.coinType = some sk := by
  simp only [privateKey, except_bind_eq_ok] at h
  obtain ⟨⟨⟩, hn, h⟩ := h
  refine ⟨hn, ?_⟩
  split at h
  · rename_i key hkey
    rw [hkey, Except.ok.inj h]
  · cases h

/-- The crates with another derivation of private keys. -/
def Crates.withKeys (K : Crates) (derive : String → U32 → U32 → U32 → Option Felt) : Crates :=
  { K with derivePrivateKey := derive }

/-- `derive` gives the keys of `K` for the numbers of the accounts there are. -/
def SameOnBranches (K : Crates) (derive : String → U32 → U32 → U32 → Option Felt) : Prop :=
  ∀ mnemonic (d : Domain) n, d.checkIndex n = .ok () →
    derive mnemonic (d.pathIndices n).2 (d.pathIndices n).1 d.coinType =
      K.derivePrivateKey mnemonic (d.pathIndices n).2 (d.pathIndices n).1 d.coinType

/-- Whatever the derivation, `f` ends with the same error: it derives nothing. -/
def Underived {α : Type} (K : Crates) (f : Crates → Except CoreError α) : Prop :=
  ∃ e, ∀ derive, f (K.withKeys derive) = .error e

namespace Underived

variable {α β : Type} {f : Crates → Except CoreError α}

theorem bind (h : Underived K f) (g : Crates → α → Except CoreError β) :
    Underived K fun K => f K >>= g K := by
  obtain ⟨e, he⟩ := h
  refine ⟨e, fun derive => ?_⟩
  show (f (K.withKeys derive) >>= g (K.withKeys derive)) = .error e
  rw [he derive]
  rfl

end Underived

theorem underived_privateKey (mnemonic : String) {d : Domain} {n : U32}
    (h : d.checkIndex n ≠ .ok ()) : Underived K fun K => privateKey K mnemonic d n := by
  cases hcheck : d.checkIndex n with
  | ok => exact absurd hcheck h
  | error e =>
      refine ⟨e, fun derive => ?_⟩
      show (d.checkIndex n >>= _) = _
      rw [hcheck]
      rfl

theorem underived_publicKey (mnemonic : String) {d : Domain} {n : U32}
    (h : d.checkIndex n ≠ .ok ()) : Underived K fun K => publicKey K mnemonic d n :=
  (underived_privateKey mnemonic h).bind _

theorem underived_deploymentData (mnemonic : String) {d : Domain} {n : U32}
    (h : d.checkIndex n ≠ .ok ()) (chain : ChainId) (contract : AccountContract) :
    Underived K fun K => deploymentData K mnemonic d n chain contract :=
  (underived_publicKey mnemonic h).bind _

theorem underived_accountAddress (mnemonic : String) {d : Domain} {n : U32}
    (h : d.checkIndex n ≠ .ok ()) (chain : ChainId) (contract : AccountContract) :
    Underived K fun K => accountAddress K mnemonic d n chain contract :=
  (underived_deploymentData mnemonic h chain contract).bind _

theorem underived_strk20ViewingKey (mnemonic : String) {d : Domain} {n : U32}
    (h : d.checkIndex n ≠ .ok ()) (chainId pool : Felt) :
    Underived K fun K => strk20ViewingKey K mnemonic d n chainId pool :=
  (underived_privateKey mnemonic h).bind _

theorem underived_signHash (mnemonic : String) {d : Domain} {n : U32}
    (h : d.checkIndex n ≠ .ok ()) (hash : Crates → Felt) :
    Underived K fun K => signHash K mnemonic d n (hash K) :=
  (underived_privateKey mnemonic h).bind _

/-- The message hash comes first, and may fail before the number is looked at. -/
theorem underived_signTypedData (mnemonic : String) {d : Domain} {n : U32}
    (h : d.checkIndex n ≠ .ok ()) (typedDataJson : String) (address : Felt) :
    Underived K fun K => signTypedData K mnemonic d n typedDataJson address := by
  cases hhash : typedDataMessageHash K typedDataJson address with
  | error e =>
      refine ⟨e, fun derive => ?_⟩
      have : typedDataMessageHash (K.withKeys derive) typedDataJson address = .error e := hhash
      show (typedDataMessageHash (K.withKeys derive) typedDataJson address >>= _) = _
      rw [this]
      rfl
  | ok hash =>
      obtain ⟨e, he⟩ := underived_signHash (K := K) mnemonic h fun _ => hash
      refine ⟨e, fun derive => ?_⟩
      have : typedDataMessageHash (K.withKeys derive) typedDataJson address = .ok hash := hhash
      show (typedDataMessageHash (K.withKeys derive) typedDataJson address >>= _) = _
      rw [this]
      exact he derive

theorem underived_signInvokeV3 (mnemonic : String) {d : Domain} {n : U32}
    (h : d.checkIndex n ≠ .ok ()) (sender : Felt) (calls : List Call) (chain : ChainId)
    (p : InvokeV3Params) (contract : AccountContract) :
    Underived K fun K => signInvokeV3 K mnemonic d n sender calls chain p contract :=
  (underived_signHash mnemonic h _).bind _

theorem underived_signDeclareV3 (mnemonic : String) {d : Domain} {n : U32}
    (h : d.checkIndex n ≠ .ok ()) (sender classHash compiledClassHash : Felt) (chain : ChainId)
    (p : InvokeV3Params) (contract : AccountContract) :
    Underived K fun K =>
      signDeclareV3 K mnemonic d n sender classHash compiledClassHash chain p contract :=
  (underived_signHash mnemonic h _).bind _

theorem underived_signDeployAccountV3 (mnemonic : String) {d : Domain} {n : U32}
    (h : d.checkIndex n ≠ .ok ()) (chain : ChainId) (p : InvokeV3Params)
    (contract : AccountContract) :
    Underived K fun K => signDeployAccountV3 K mnemonic d n chain p contract :=
  (underived_deploymentData mnemonic h chain contract).bind _

/-! ## Keys off the branches do not matter -/

theorem privateKey_withKeys (h : SameOnBranches K derive) :
    privateKey (K.withKeys derive) = privateKey K := by
  funext mnemonic d n
  cases hcheck : d.checkIndex n with
  | error e =>
      rw [privateKey, privateKey, hcheck]
      rfl
  | ok =>
      have hsame := h mnemonic d n hcheck
      simp only [privateKey, hcheck, Crates.withKeys]
      rw [hsame]

theorem publicKey_withKeys (h : SameOnBranches K derive) :
    publicKey (K.withKeys derive) = publicKey K := by
  unfold publicKey
  rw [privateKey_withKeys h]
  rfl

theorem deploymentData_withKeys (h : SameOnBranches K derive) :
    deploymentData (K.withKeys derive) = deploymentData K := by
  unfold deploymentData
  rw [publicKey_withKeys h]
  rfl

theorem accountAddress_withKeys (h : SameOnBranches K derive) :
    accountAddress (K.withKeys derive) = accountAddress K := by
  unfold accountAddress
  rw [deploymentData_withKeys h]

theorem strk20ViewingKey_withKeys (h : SameOnBranches K derive) :
    strk20ViewingKey (K.withKeys derive) = strk20ViewingKey K := by
  unfold strk20ViewingKey
  rw [privateKey_withKeys h]
  rfl

theorem signHash_withKeys (h : SameOnBranches K derive) :
    signHash (K.withKeys derive) = signHash K := by
  unfold signHash
  rw [privateKey_withKeys h]
  rfl

theorem signTypedData_withKeys (h : SameOnBranches K derive) :
    signTypedData (K.withKeys derive) = signTypedData K := by
  unfold signTypedData
  rw [signHash_withKeys h]
  rfl

theorem signInvokeV3_withKeys (h : SameOnBranches K derive) :
    signInvokeV3 (K.withKeys derive) = signInvokeV3 K := by
  unfold signInvokeV3
  rw [signHash_withKeys h]
  rfl

theorem signDeclareV3_withKeys (h : SameOnBranches K derive) :
    signDeclareV3 (K.withKeys derive) = signDeclareV3 K := by
  unfold signDeclareV3
  rw [signHash_withKeys h]
  rfl

theorem signDeployAccountV3_withKeys (h : SameOnBranches K derive) :
    signDeployAccountV3 (K.withKeys derive) = signDeployAccountV3 K := by
  unfold signDeployAccountV3
  rw [deploymentData_withKeys h, signHash_withKeys h]
  rfl

end Strkd.Wallet
