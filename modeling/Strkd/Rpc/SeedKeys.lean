import Strkd.Rpc.Ops

/-!
# Accounts and the keys that sign for them

The address of an account is derived from one private key.  A session signs with the key its own
seed has for the domain and the index of an account: that is the account's key if the account comes
from the same seed.
-/

namespace Strkd.Rpc

open Wallet

variable {K : Crates} {mnemonic : String} {a : AccountRef} {sk : Felt}

/-! ## Accounts of a seed -/

/-- `sk` is the private key that the address of `a` was derived from. -/
def KeyOf (K : Crates) (a : AccountRef) (sk : Felt) : Prop :=
  ∃ pk chain d, K.starkPublicKey sk = some pk ∧ a.contract.deployment K pk chain = .ok d ∧
    a.address = addressHex d.address

/-- The address of `a` was derived from a seed, for its domain and its index. -/
def Derived (K : Crates) (mnemonic : String) (a : AccountRef) : Prop :=
  ∃ chain addr, accountAddress K mnemonic a.domain a.index chain a.contract = .ok addr ∧
    a.address = addressHex addr

theorem publicKey_eq_ok {domain : Domain} {index : U32} {pk : Felt}
    (h : publicKey K mnemonic domain index = .ok pk) :
    ∃ sk, privateKey K mnemonic domain index = .ok sk ∧ K.starkPublicKey sk = some pk := by
  unfold publicKey at h
  obtain ⟨sk, hsk, h⟩ := except_bind_eq_ok.1 h
  refine ⟨sk, hsk, ?_⟩
  split at h
  · rename_i q hq
    rw [hq, ← Except.ok.inj h]
  · cases h

/-- The key a seed has for the domain and the index of one of its accounts is the account's. -/
theorem Derived.keyOf (h : Derived K mnemonic a)
    (hsk : privateKey K mnemonic a.domain a.index = .ok sk) : KeyOf K a sk := by
  obtain ⟨chain, addr, haddr, haddress⟩ := h
  unfold accountAddress at haddr
  obtain ⟨d, hd, haddr⟩ := except_bind_eq_ok.1 haddr
  unfold deploymentData at hd
  obtain ⟨pk, hpk, hd⟩ := except_bind_eq_ok.1 hd
  obtain ⟨sk', hsk', hpk⟩ := publicKey_eq_ok hpk
  obtain rfl : sk = sk' := Except.ok.inj (hsk.symm.trans hsk')
  rw [← Except.ok.inj haddr] at haddress
  exact ⟨pk, chain, d, hpk, hd, haddress⟩

theorem derived_of_nextAccount {s : WalletSession} {u : Unlocked} {domain : Domain} {label : String}
    {owner : Option String} (hu : s.unlocked = some u)
    (h : s.nextAccount K domain label owner = .ok a) : Derived K u.mnemonic a := by
  unfold WalletSession.nextAccount at h
  obtain ⟨v, hv, h⟩ := except_bind_eq_ok.1 h
  obtain rfl : u = v := Option.some.inj (hu.symm.trans (WalletSession.requireUnlocked_eq_ok hv))
  dsimp only at h
  obtain ⟨addr, haddr, h⟩ := except_bind_eq_ok.1 h
  cases h
  exact ⟨s.chain, addr, liftCore_eq_ok haddr, rfl⟩

theorem derived_of_managerAccount {s : WalletSession} {index : U32}
    (h : s.managerAccount K index = .ok a) :
    ∃ u, s.unlocked = some u ∧ Derived K u.mnemonic a := by
  unfold WalletSession.managerAccount at h
  obtain ⟨u, hu, h⟩ := except_bind_eq_ok.1 h
  obtain ⟨addr, haddr, h⟩ := except_bind_eq_ok.1 h
  cases h
  exact ⟨u, WalletSession.requireUnlocked_eq_ok hu, s.chain, addr, liftCore_eq_ok haddr, rfl⟩

/-! ## Signatures -/

/-- The account that an operation has just signed for. -/
def signerOf : Event Op Ans → Option AccountRef
  | ⟨.signTypedData a _, .ok _⟩ => some a
  | ⟨.signInvoke a _ _ _, .ok _⟩ => some a
  | ⟨.signDeclare a _ _ _ _, .ok _⟩ => some a
  | ⟨.signDeployAccount a _ _, .ok _⟩ => some a
  | ⟨.signHash a _, .ok _⟩ => some a
  | _ => none

/-- `sig` is what `sk` makes of `hash`, as the account's contract takes it. -/
def SerializedBy (K : Crates) (a : AccountRef) (sk hash : Felt) (sig : List Felt) : Prop :=
  ∃ raw, K.signStarkHash sk hash = some raw ∧ sig = a.contract.serializeSignature raw

/-- The signature that an operation has just made was made with `sk`. -/
def MadeWith (K : Crates) (sk : Felt) : Event Op Ans → Prop
  | ⟨.signTypedData a document, .ok sig⟩ => ∃ address hash, K.feltFromHex a.address = some address ∧
      K.typedDataMessageHash document address = some hash ∧ K.signStarkHash sk hash = some sig
  | ⟨.signInvoke a _ _ _, .ok signed⟩ => SerializedBy K a sk signed.transactionHash signed.signature
  | ⟨.signDeclare a _ _ _ _, .ok signed⟩ =>
      SerializedBy K a sk signed.transactionHash signed.signature
  | ⟨.signDeployAccount a _ _, .ok signed⟩ =>
      SerializedBy K a sk signed.transactionHash signed.signature
  | ⟨.signHash a hash, .ok sig⟩ => SerializedBy K a sk hash sig
  | _ => False

theorem signHash_eq_ok {domain : Domain} {index : U32} {hash : Felt} {sig : StarkSignature}
    (h : signHash K mnemonic domain index hash = .ok sig) :
    ∃ sk, privateKey K mnemonic domain index = .ok sk ∧ K.signStarkHash sk hash = some sig := by
  unfold signHash at h
  obtain ⟨sk, hsk, h⟩ := except_bind_eq_ok.1 h
  refine ⟨sk, hsk, ?_⟩
  split at h
  · rename_i q hq
    rw [hq, ← Except.ok.inj h]
  · cases h

namespace WalletSession

variable {s : WalletSession}

theorem madeWith_signTypedData {document : String} {sig : StarkSignature}
    (h : s.signTypedDataFor K a document = .ok sig) : ∃ u sk, s.unlocked = some u ∧
      privateKey K u.mnemonic a.domain a.index = .ok sk ∧
      MadeWith K sk ⟨.signTypedData a document, .ok sig⟩ := by
  unfold signTypedDataFor at h
  obtain ⟨u, hu, h⟩ := except_bind_eq_ok.1 h
  obtain ⟨address, haddress, h⟩ := except_bind_eq_ok.1 h
  have hsigned := liftCore_eq_ok h
  unfold signTypedData at hsigned
  obtain ⟨hash, hhash, hsigned⟩ := except_bind_eq_ok.1 hsigned
  obtain ⟨sk, hsk, hsig⟩ := signHash_eq_ok hsigned
  refine ⟨u, sk, requireUnlocked_eq_ok hu, hsk, address, hash, storedAddress_eq_ok haddress, ?_, hsig⟩
  unfold Wallet.typedDataMessageHash at hhash
  split at hhash
  · rename_i x hx
    rw [hx, Except.ok.inj hhash]
  · cases hhash

theorem madeWith_signInvoke {calls : List Call} {chain : ChainId} {p : InvokeV3Params}
    {signed : SignedInvoke} (h : s.signInvokeFor K a calls chain p = .ok signed) :
    ∃ u sk, s.unlocked = some u ∧ privateKey K u.mnemonic a.domain a.index = .ok sk ∧
      MadeWith K sk ⟨.signInvoke a calls chain p, .ok signed⟩ := by
  unfold signInvokeFor at h
  obtain ⟨u, hu, h⟩ := except_bind_eq_ok.1 h
  obtain ⟨sender, -, h⟩ := except_bind_eq_ok.1 h
  obtain ⟨raw, hraw, h⟩ := except_bind_eq_ok.1 (liftCore_eq_ok h)
  obtain ⟨sk, hsk, hsig⟩ := signHash_eq_ok hraw
  cases h
  exact ⟨u, sk, requireUnlocked_eq_ok hu, hsk, raw, hsig, rfl⟩

theorem madeWith_signDeclare {classHash compiledClassHash : Felt} {chain : ChainId}
    {p : InvokeV3Params} {signed : SignedDeclare}
    (h : s.signDeclareFor K a classHash compiledClassHash chain p = .ok signed) :
    ∃ u sk, s.unlocked = some u ∧ privateKey K u.mnemonic a.domain a.index = .ok sk ∧
      MadeWith K sk ⟨.signDeclare a classHash compiledClassHash chain p, .ok signed⟩ := by
  unfold signDeclareFor at h
  obtain ⟨u, hu, h⟩ := except_bind_eq_ok.1 h
  obtain ⟨sender, -, h⟩ := except_bind_eq_ok.1 h
  obtain ⟨raw, hraw, h⟩ := except_bind_eq_ok.1 (liftCore_eq_ok h)
  obtain ⟨sk, hsk, hsig⟩ := signHash_eq_ok hraw
  cases h
  exact ⟨u, sk, requireUnlocked_eq_ok hu, hsk, raw, hsig, rfl⟩

theorem madeWith_signDeployAccount {chain : ChainId} {p : InvokeV3Params}
    {signed : SignedDeployAccount} (h : s.signDeployAccountFor K a chain p = .ok signed) :
    ∃ u sk, s.unlocked = some u ∧ privateKey K u.mnemonic a.domain a.index = .ok sk ∧
      MadeWith K sk ⟨.signDeployAccount a chain p, .ok signed⟩ := by
  unfold signDeployAccountFor at h
  obtain ⟨u, hu, h⟩ := except_bind_eq_ok.1 h
  obtain ⟨d, -, h⟩ := except_bind_eq_ok.1 (liftCore_eq_ok h)
  obtain ⟨raw, hraw, h⟩ := except_bind_eq_ok.1 h
  obtain ⟨sk, hsk, hsig⟩ := signHash_eq_ok hraw
  cases h
  exact ⟨u, sk, requireUnlocked_eq_ok hu, hsk, raw, hsig, rfl⟩

theorem madeWith_signHash {hash : Felt} {sig : List Felt}
    (h : s.signHashFor K a hash = .ok sig) : ∃ u sk, s.unlocked = some u ∧
      privateKey K u.mnemonic a.domain a.index = .ok sk ∧
      MadeWith K sk ⟨.signHash a hash, .ok sig⟩ := by
  unfold signHashFor at h
  obtain ⟨u, hu, h⟩ := except_bind_eq_ok.1 h
  obtain ⟨raw, hraw, h⟩ := except_bind_eq_ok.1 h
  obtain ⟨sk, hsk, hsig⟩ := signHash_eq_ok (liftCore_eq_ok hraw)
  cases h
  exact ⟨u, sk, requireUnlocked_eq_ok hu, hsk, raw, hsig, rfl⟩

end WalletSession

end Strkd.Rpc
