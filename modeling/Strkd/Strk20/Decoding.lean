import Strkd.Lib.Codec
import Strkd.Strk20.Invocation

/-!
# Reading calldata back

A multicall and a list of client actions are both counted lists of records that say themselves where
they end, so what was encoded can be read off the calldata, and two batches never share one.
-/

namespace Strkd.Strk20

open Wallet

/-! ## Calls -/

theorem val_ofNat_length : ∀ n < 2 ^ 64, (Felt.ofNat n).val = n :=
  fun _ hn => Felt.val_ofNat_of_lt (lt_trans hn (by decide))

def encodeCall (c : Call) : List Felt :=
  c.toAddr :: c.selector :: writeCounted Felt.ofNat (fun f => [f]) c.calldata

def decodeCall : Reader Felt Call
  | toAddr :: selector :: rest => do
      let (calldata, rest) ← readCounted Fin.val readOne rest
      return (⟨toAddr, selector, calldata⟩, rest)
  | _ => none

def decodeCalls : Reader Felt (List Call) := readCounted Fin.val decodeCall

theorem encodeCalls_eq (calls : List Call) :
    encodeCalls calls = writeCounted Felt.ofNat encodeCall calls := by
  have hcall : encodeCall =
      fun c => c.toAddr :: c.selector :: Felt.ofNat c.calldata.length :: c.calldata := by
    funext c
    simp [encodeCall, writeCounted]
  rw [encodeCalls, writeCounted, hcall]

theorem reads_decodeCall :
    Reads decodeCall encodeCall fun c => c.calldata.length < 2 ^ 64 := by
  intro c hc rest
  have hcalldata := (reads_readOne (σ := Felt)).counted val_ofNat_length c.calldata
    ⟨hc, fun _ _ => trivial⟩ rest
  simp only [encodeCall, List.cons_append, decodeCall, hcalldata, Option.bind_eq_bind,
    Option.bind_some, Option.pure_def]

theorem reads_decodeCalls : Reads decodeCalls encodeCalls
    fun calls => calls.length < 2 ^ 64 ∧ ∀ c ∈ calls, c.calldata.length < 2 ^ 64 := by
  intro calls hcalls rest
  rw [encodeCalls_eq]
  exact reads_decodeCall.counted val_ofNat_length calls hcalls rest

/-! ## Actions -/

/-- The integer that a felt was made from. -/
def decodeWord (w : ℕ) (f : Felt) : BitVec w := BitVec.ofNat w f.val

theorem decodeWord_ofNat {w : ℕ} (hw : w ≤ 128) (x : BitVec w) :
    decodeWord w (Felt.ofNat x.toNat) = x := by
  have hx : x.toNat < 2 ^ 128 := lt_of_lt_of_le x.isLt (Nat.pow_le_pow_right (by decide) hw)
  rw [decodeWord, Felt.val_ofNat_of_lt (lt_trans hx (by decide)), BitVec.ofNat_toNat,
    BitVec.setWidth_eq]

/-- The fields of the action with a given variant. -/
def decodeFields : ℕ → Reader Felt ClientAction
  | 0, random :: rest => some (.setViewingKey random, rest)
  | 1, recipient :: index :: random :: salt :: rest =>
      some (.openChannel recipient (decodeWord 32 index) random salt, rest)
  | 2, recipient :: pk :: key :: index :: token :: salt :: rest =>
      some (.openSubchannel recipient pk key (decodeWord 32 index) token salt, rest)
  | 3, recipient :: pk :: token :: amount :: index :: salt :: rest =>
      some (.createEncNote recipient pk token (decodeWord 128 amount) (decodeWord 32 index)
        (decodeWord 128 salt), rest)
  | 5, token :: amount :: rest => some (.deposit token (decodeWord 128 amount), rest)
  | 6, key :: token :: index :: rest => some (.useNote key token (decodeWord 32 index), rest)
  | 7, toAddr :: token :: amount :: random :: rest =>
      some (.withdraw toAddr token (decodeWord 128 amount) random, rest)
  | _, _ => none

def decodeAction : Reader Felt ClientAction
  | [] => none
  | tag :: rest => decodeFields tag.val rest

def decodeActions : Reader Felt (List ClientAction) := readCounted Fin.val decodeAction

theorem variant_lt (a : ClientAction) : a.variant < 2 ^ 64 := by
  cases a <;> simp [ClientAction.variant]

theorem reads_decodeAction : Reads decodeAction ClientAction.serialize fun _ => True := by
  intro a _ rest
  have hindex := fun i : U32 => decodeWord_ofNat (by decide : 32 ≤ 128) i
  have hamount := fun x : U128 => decodeWord_ofNat le_rfl x
  have htag : (Felt.ofNat a.variant).val = a.variant := val_ofNat_length _ (variant_lt a)
  simp only [ClientAction.serialize, List.cons_append, decodeAction, htag]
  cases a <;> simp only [ClientAction.variant, List.cons_append, List.nil_append, decodeFields,
    hindex, hamount]

theorem reads_decodeActions :
    Reads decodeActions serializeActions fun actions => actions.length < 2 ^ 64 := by
  intro actions hlength rest
  exact reads_decodeAction.counted val_ofNat_length actions ⟨hlength, fun _ _ => trivial⟩ rest

/-- Actions can be told apart without their count. -/
theorem serializeActions_injective : Function.Injective serializeActions := by
  intro actions actions' h
  have htail : actions.flatMap ClientAction.serialize = actions'.flatMap ClientAction.serialize :=
    (List.cons.inj h).2
  exact reads_decodeAction.flatMap_injective (fun _ => List.cons_ne_nil _ _) htail

/-! ## Invocations -/

/-- The calldata of an invocation says whose actions it proves, and which. -/
theorem calldata_new_inj {K : Crates} {pool : Felt} {chain : ChainId}
    {nonce user user' userSk userSk' : Felt} {actions actions' : List ClientAction}
    (h : (ProofInvocation.new K pool chain nonce user userSk actions).calldata =
      (ProofInvocation.new K pool chain nonce user' userSk' actions').calldata) :
    user = user' ∧ userSk = userSk' ∧ actions = actions' := by
  have hcall := congrArg (fun l : List Felt => l.drop 4) h
  simp only [ProofInvocation.new, encodeCalls, List.flatMap_cons, List.flatMap_nil, List.append_nil,
    List.drop_succ_cons, List.drop_zero, List.cons.injEq] at hcall
  obtain ⟨huser, hsk, hactions⟩ := hcall
  exact ⟨huser, hsk, serializeActions_injective hactions⟩

/-- Calldata is read back whatever follows it, and so says what was encoded. -/
theorem calldata_decodable (K : Crates) :
    (∀ (calls : List Call) (rest : List Felt), calls.length < 2 ^ 64 →
        (∀ c ∈ calls, c.calldata.length < 2 ^ 64) →
        decodeCalls (encodeCalls calls ++ rest) = some (calls, rest)) ∧
      (∀ (actions : List ClientAction) (rest : List Felt), actions.length < 2 ^ 64 →
        decodeActions (serializeActions actions ++ rest) = some (actions, rest)) ∧
      (∀ calls calls' : List Call,
        calls.length < 2 ^ 64 ∧ (∀ c ∈ calls, c.calldata.length < 2 ^ 64) →
        calls'.length < 2 ^ 64 ∧ (∀ c ∈ calls', c.calldata.length < 2 ^ 64) →
        encodeCalls calls = encodeCalls calls' → calls = calls') ∧
      Function.Injective serializeActions ∧
      ∀ (pool : Felt) (chain : ChainId) (nonce user user' userSk userSk' : Felt)
        (actions actions' : List ClientAction),
        (ProofInvocation.new K pool chain nonce user userSk actions).calldata =
            (ProofInvocation.new K pool chain nonce user' userSk' actions').calldata →
          user = user' ∧ userSk = userSk' ∧ actions = actions' :=
  ⟨fun calls rest hlength hcalldata => reads_decodeCalls calls ⟨hlength, hcalldata⟩ rest,
    fun actions rest hlength => reads_decodeActions actions hlength rest,
    fun _ _ h h' heq => reads_decodeCalls.inj h h' heq, serializeActions_injective,
    fun _ _ _ _ _ _ _ _ _ => calldata_new_inj⟩

end Strkd.Strk20
