import Strkd.Rpc.Deployments
import Strkd.Service.Conduct

/-!
# Declarations

The class that `wallet_addDeclareTransaction` shows a node, broadcasts or hands back hashes to the
class hash it signs for, and a class hash that disagrees with its class is refused before anyone is
asked.
-/

namespace Strkd.Service

open Wallet Rpc

/-! ## Classes in flight -/

/-- The contract class in an estimate or a broadcast of a declaration. -/
def sentClass : Op → Option Json
  | .nodeRpc _ "starknet_estimateFee" params =>
      (((params.get? "request").bind Json.asArray).bind List.head?).bind fun tx =>
        tx.get? "contract_class"
  | .nodeRpc _ "starknet_addDeclareTransaction" params =>
      (params.get? "declare_transaction").bind fun tx => tx.get? "contract_class"
  | _ => none

/-- The contract class in the answer to a declaration that is not submitted. -/
def returnedClass (v : Json) : Option Json :=
  (v.get? "signed_transaction").bind fun tx => tx.get? "contract_class"

/-- `cc` is a class with the hash `classHash`. -/
def HashesTo (K : Crates) (cc : Json) (classHash : Felt) : Prop :=
  ∃ c, SierraClass.fromJson K cc = .ok c ∧ c.classHash K = classHash

/-- The class hash a request declares. -/
def declaredHash (K : Crates) (params : Json) : Except WalletRpcError Felt := do
  let contractClass ← parseContractClass K params
  let given ← parseClassHash K params
  declaredClassHash K contractClass given

/-- An operation that asks for an approval or a signature. -/
def asksOrSigns : Op → Prop
  | .requestApproval _ | .signTypedData _ _ | .signInvoke _ _ _ _ | .signDeclare _ _ _ _ _
  | .signDeployAccount _ _ _ | .signHash _ _ => True
  | _ => False

/-- An operation of a declaration: a class that is sent has the declared hash, a signature is for
the declared hash, and nobody is asked unless there is one. -/
structure DeclareOp (K : Crates) (params : Json) (op : Op) : Prop where
  sends : ∀ cc, sentClass op = some cc →
    ∃ classHash, declaredHash K params = .ok classHash ∧ HashesTo K cc classHash
  signs : ∀ account classHash compiled chain p, op = .signDeclare account classHash compiled chain p →
    declaredHash K params = .ok classHash
  asks : asksOrSigns op → ∃ classHash, declaredHash K params = .ok classHash

/-- What a declaration answers: the declared hash, and a class that has it. -/
def DeclareAnswer (K : Crates) (params v : Json) : Prop :=
  ∃ classHash, declaredHash K params = .ok classHash ∧
    v.get? "class_hash" = some (.str (feltHex classHash)) ∧
    ∀ cc, returnedClass v = some cc → HashesTo K cc classHash

section

variable {K : Crates} {params : Json}

theorem contractClass_declareV3TxJson (sender compiled : Felt) (cc : Option Json)
    (signature : List Felt) (nonce : Felt) (bounds : FeeBounds) :
    (declareV3TxJson sender compiled cc signature nonce bounds).get? "contract_class" = cc := by
  cases cc <;> rfl

/-- The canonical object of a parsed class hashes to what the class hashes to. -/
theorem hashesTo_toRpcJson (hex : ∀ f, K.feltFromHex (feltHex f) = some f) {v : Json}
    {c : SierraClass} (h : SierraClass.fromJson K v = .ok c) :
    HashesTo K c.toRpcJson (c.classHash K) := by
  obtain ⟨hp, hv⟩ := SierraClass.fromJson_eq_ok h
  exact ⟨c, SierraClass.fromJson_toRpcJson hex hp hv, rfl⟩

theorem hashesTo_of_declared (hex : ∀ f, K.feltFromHex (feltHex f) = some f)
    {contractClass : Option SierraClass} {given : Option Felt} {classHash : Felt} {cc : Json}
    (hclass : parseContractClass K params = .ok contractClass)
    (hhash : declaredClassHash K contractClass given = .ok classHash)
    (hcc : contractClass.map SierraClass.toRpcJson = some cc) : HashesTo K cc classHash := by
  obtain ⟨c, rfl, rfl⟩ := Option.map_eq_some_iff.1 hcc
  have hparsed : ∃ v, SierraClass.fromJson K v = .ok c := by
    unfold parseContractClass at hclass
    split at hclass
    · rename_i v _
      obtain ⟨c', hc', hclass⟩ := except_bind_eq_ok.1 hclass
      cases hclass
      exact ⟨v, liftCore_eq_ok hc'⟩
    · cases hclass
  have hderived : c.classHash K = classHash := by
    unfold declaredClassHash at hhash
    split at hhash
    · rename_i cc given' heq
      cases heq
      dsimp only at hhash
      split_ifs at hhash with hsame
      · exact Except.ok.inj hhash
      · cases hhash
    · rename_i cc heq
      cases heq
      exact Except.ok.inj hhash
    · rename_i heq
      cases heq
    · rename_i heq
      cases heq
  obtain ⟨v, hv⟩ := hparsed
  exact hderived ▸ hashesTo_toRpcJson hex hv

theorem declaredHash_eq_ok {contractClass : Option SierraClass} {given : Option Felt}
    {classHash : Felt} (hclass : parseContractClass K params = .ok contractClass)
    (hgiven : parseClassHash K params = .ok given)
    (hhash : declaredClassHash K contractClass given = .ok classHash) :
    declaredHash K params = .ok classHash := by
  unfold declaredHash
  rw [hclass, hgiven]
  exact hhash

/-! ## The handler -/

/-- An operation that neither sends a class nor asks for anything. -/
def Plain (op : Op) : Prop := sentClass op = none ∧ ¬ asksOrSigns op

theorem Plain.declareOp {op : Op} (h : Plain op) : DeclareOp K params op where
  sends cc hcc := absurd (h.1.symm.trans hcc) (by simp)
  signs account classHash compiled chain p he := by
    subst he
    exact absurd trivial h.2
  asks ha := absurd ha h.2

def declareRules (K : Crates) (params : Json) : Rules Op Ans where
  allows _ := DeclareOp K params
  legal _ _ _ := True

/-- A computation of plain operations, then the rest. -/
theorem serves_plain {α β : Type} {tr : Trace} {m : Serve α} {f : α → Serve β}
    {Q : Trace → β → Prop} {E : Trace → WalletRpcError → Prop} (hm : Confined Plain m)
    (hE : ∀ tr e, E tr e) (hf : ∀ tr a, Serves (declareRules K params) tr (f a) Q E) :
    Serves (declareRules K params) tr (m >>= f) Q E := by
  refine Serves.bind (Q := fun _ _ => True) ?_ fun tr' a _ _ => hf tr' a
  exact (hm.serves (I := fun _ => True) (fun _ _ _ h => h.declareOp) (fun _ _ _ _ _ => trivial)
    trivial).weaken (fun _ _ _ _ => trivial) fun tr e _ _ => hE tr e

theorem plain_act {op : Op} (h : Plain op) :
    Confined Plain (perform op) := ⟨h, fun _ => trivial⟩

theorem plain_scopedAccount (client : PairedClient) (want : String) :
    Confined Plain (scopedAccount client want) := by
  refine .bind (.bind (plain_act ⟨rfl, id⟩) fun _ => .lift _) fun reg => ?_
  split
  · exact .pure _
  · exact .throw _

theorem plain_resolveChain : Confined Plain (resolveChain K params) := by
  unfold resolveChain
  split
  · exact .bind (plain_act ⟨rfl, id⟩) fun _ => .pure _
  · exact .bind (plain_act ⟨rfl, id⟩) fun _ => .pure _
  · split
    · exact .throw _
    · split
      · exact .pure _
      · exact .throw _
  · exact .throw _

theorem plain_requireNode (chain : ChainId) : Confined Plain (requireNode chain) := by
  refine .bind (plain_act ⟨rfl, id⟩) fun configured => ?_
  split
  · exact .throw _
  · exact .pure _

theorem plain_resolveNonce (chain : ChainId) (sender : Felt) :
    Confined Plain (resolveNonce K chain sender params) := by
  refine .bind (.lift _) fun nonce => ?_
  split
  · exact .pure _
  · refine .bind (plain_requireNode chain) fun _ => .mapErr ?_
    exact .bind (.bind ⟨⟨rfl, id⟩, fun _ => trivial⟩ fun _ => .lift _) fun _ => .lift _

variable {tr : Trace} {classHash : Felt}

/-- An operation that asks or signs sends no class; a signature is for the declared hash. -/
theorem declareOp_asks {op : Op} (h : declaredHash K params = .ok classHash)
    (hsend : sentClass op = none)
    (hsign : ∀ account classHash' compiled chain p,
      op = .signDeclare account classHash' compiled chain p → classHash' = classHash) :
    DeclareOp K params op where
  sends cc hcc := absurd (hsend.symm.trans hcc) (by simp)
  signs account classHash' compiled chain p he := hsign account classHash' compiled chain p he ▸ h
  asks _ := ⟨classHash, h⟩

/-- An operation that sends a class with the declared hash. -/
theorem declareOp_sends {op : Op} {cc : Json} (h : declaredHash K params = .ok classHash)
    (hsend : sentClass op = some cc) (hcc : HashesTo K cc classHash) : DeclareOp K params op where
  sends cc' hcc' := by
    rw [hsend, Option.some.injEq] at hcc'
    exact ⟨classHash, h, hcc' ▸ hcc⟩
  signs account classHash' compiled chain p he := by
    subst he
    cases hsend
  asks _ := ⟨classHash, h⟩

theorem serves_declareBounds {chain : ChainId} {sender compiled : Felt} {classJson : Option Json}
    {nonce : Felt} (h : declaredHash K params = .ok classHash)
    (hclass : ∀ cc, classJson = some cc → HashesTo K cc classHash) :
    Serves (declareRules K params) tr (declareBounds chain sender compiled classJson nonce params)
      (fun _ _ => True) fun _ _ => True := by
  refine Obeys.lift fun bounds _ => ?_
  cases bounds with
  | some b => exact serves_pure trivial
  | none =>
      refine serves_plain (plain_requireNode chain) (fun _ _ => trivial) fun tr _ => ?_
      cases classJson with
      | none => exact serves_throw trivial
      | some cc =>
          have hsent : sentClass (.nodeRpc chain "starknet_estimateFee" (.obj [
              ("request", .arr [declareV3TxJson sender compiled (some cc) [] nonce zeroBounds]),
              ("simulation_flags", .arr [.str "SKIP_VALIDATE"]), ("block_id", .str "latest")])) =
                some cc :=
            contractClass_declareV3TxJson sender compiled (some cc) [] nonce zeroBounds
          refine Serves.mapErr (Serves.bind (Q := fun _ _ => True) ?_ fun tr' v _ _ => ?_)
          · exact Serves.act (declareOp_sends h hsent (hclass cc rfl)) fun reply _ =>
              serves_lift (fun _ _ => trivial) fun _ _ => trivial
          · exact Obeys.lift fun est _ => serves_lift (fun _ _ => trivial) fun _ _ => trivial

theorem serves_signAndDeclare {chain : ChainId} {account : AccountRef} {sender compiled : Felt}
    {classJson : Option Json} {nonce : Felt} {bounds : FeeBounds} {submit : Bool}
    (h : declaredHash K params = .ok classHash)
    (hclass : ∀ cc, classJson = some cc → HashesTo K cc classHash) :
    Serves (declareRules K params) tr
      (signAndDeclare K chain account sender classHash compiled classJson nonce bounds submit)
      (fun _ v => DeclareAnswer K params v) fun _ _ => True := by
  refine Serves.act (declareOp_asks h rfl ?_) fun answer _ => ?_
  · intro account' classHash' compiled' chain' p he
    cases he
    rfl
  refine Obeys.lift (e := answer) fun signed _ => ?_
  split
  · refine serves_plain (plain_requireNode chain) (fun _ _ => trivial) fun tr _ => ?_
    cases classJson with
    | none => exact serves_throw trivial
    | some cc =>
        have hsent : sentClass (.nodeRpc chain "starknet_addDeclareTransaction" (.obj [
            ("declare_transaction",
              declareV3TxJson sender compiled (some cc) signed.signature nonce bounds)])) = some cc :=
          contractClass_declareV3TxJson sender compiled (some cc) signed.signature nonce bounds
        refine Serves.bind (Q := fun _ _ => True) (Serves.mapErr (Serves.bind (Q := fun _ _ => True)
          ?_ fun tr' v _ _ => ?_)) fun tr' hash _ _ => ?_
        · exact Serves.act (declareOp_sends h hsent (hclass cc rfl)) fun reply _ =>
            serves_lift (fun _ _ => trivial) fun _ _ => trivial
        · exact serves_lift (fun _ _ => trivial) fun _ _ => trivial
        · exact serves_pure ⟨classHash, h, rfl, fun cc hcc => nomatch hcc⟩
  · refine serves_pure ⟨classHash, h, rfl, fun cc hcc => hclass cc ?_⟩
    rw [← hcc]
    exact (contractClass_declareV3TxJson sender compiled classJson signed.signature nonce
      bounds).symm

theorem serves_handleAddDeclare (hex : ∀ f, K.feltFromHex (feltHex f) = some f)
    (client : PairedClient) : Serves (declareRules K params) tr (handleAddDeclare K client params)
      (fun _ v => DeclareAnswer K params v) fun _ _ => True := by
  refine Obeys.lift fun _ _ => Obeys.lift fun want _ => ?_
  refine serves_plain (plain_scopedAccount client want) (fun _ _ => trivial) fun tr account => ?_
  refine Obeys.lift fun sender _ => Obeys.lift fun contractClass hclass =>
    Obeys.lift fun given hgiven => Obeys.lift fun classHash hhash => Obeys.lift fun compiled _ => ?_
  have h := declaredHash_eq_ok hclass hgiven hhash
  have hcc : ∀ cc, contractClass.map SierraClass.toRpcJson = some cc → HashesTo K cc classHash :=
    fun cc hcc => hashesTo_of_declared hex hclass hhash hcc
  refine serves_plain plain_resolveChain (fun _ _ => trivial) fun tr chain => ?_
  refine serves_plain (plain_resolveNonce chain sender) (fun _ _ => trivial) fun tr nonce => ?_
  refine Serves.bind (serves_declareBounds h hcc) fun tr bounds _ _ => ?_
  have hasked : ∀ op, sentClass op = none → (∀ account classHash' compiled chain p,
      op ≠ .signDeclare account classHash' compiled chain p) → DeclareOp K params op :=
    fun op hsend hsign => declareOp_asks h hsend
      fun account classHash' compiled chain p he => (hsign _ _ _ _ _ he).elim
  unfold gatedApproval
  rw [bind_assoc]
  refine Obeys.act (hasked _ rfl fun _ _ _ _ _ => nofun) fun now => ?_
  refine Serves.bind (Q := fun _ _ => True) ?_ fun tr decision _ _ =>
    Obeys.lift fun _ _ => serves_signAndDeclare h hcc
  by_cases hg : client.grantActive now = true
  · rw [if_pos hg]
    exact serves_pure trivial
  · rw [if_neg hg]
    exact ⟨hasked _ rfl fun _ _ _ _ _ => nofun, fun _ _ => trivial⟩

end

/-- A class hash that disagrees with its class is no declared hash. -/
theorem declaredHash_ne_ok {K : Crates} {params : Json} {c : SierraClass} {given : Felt}
    (hclass : parseContractClass K params = .ok (some c))
    (hgiven : parseClassHash K params = .ok (some given)) (hne : c.classHash K ≠ given)
    (classHash : Felt) : declaredHash K params ≠ .ok classHash := by
  unfold declaredHash
  rw [hclass, hgiven]
  intro h
  have h' : declaredClassHash K (some c) (some given) = .ok classHash := h
  simp only [declaredClassHash, if_neg hne] at h'
  cases h'

/-- Every class that parses survives the trip through its canonical object.  In every run of a
declaration the classes sent and returned hash to the class hash that is signed for, and if the
given class hash is another one nobody is asked, nothing is signed and no answer is given. -/
theorem handleAddDeclare_keeps_class (K : Crates) (hex : ∀ f, K.feltFromHex (feltHex f) = some f) :
    (∀ v c, SierraClass.fromJson K v = .ok c → SierraClass.fromJson K c.toRpcJson = .ok c) ∧
    (∀ client params tr q, Follows (handleAddDeclare K client params).run tr q →
      (∀ e ∈ tr, DeclareOp K params e.1) ∧ ∀ v, q = .pure (.ok v) → DeclareAnswer K params v) ∧
    (∀ (s : WalletSession) account classHash compiled chain p signed,
      s.signDeclareFor K account classHash compiled chain p = .ok signed →
        ∃ sender, signed.transactionHash = declareV3Hash K sender classHash compiled chain p) ∧
    ∀ client params c given, parseContractClass K params = .ok (some c) →
      parseClassHash K params = .ok (some given) → c.classHash K ≠ given →
      ∀ tr q, Follows (handleAddDeclare K client params).run tr q →
        (∀ e ∈ tr, ¬ asksOrSigns e.1) ∧ ∀ v, q ≠ .pure (.ok v) := by
  have hrun : ∀ client params tr q, Follows (handleAddDeclare K client params).run tr q →
      (∀ e ∈ tr, DeclareOp K params e.1) ∧ ∀ v, q = .pure (.ok v) → DeclareAnswer K params v := by
    intro client params tr q h
    have hserves : Serves (declareRules K params) [] (handleAddDeclare K client params)
        (fun _ v => DeclareAnswer K params v) fun _ _ => True := serves_handleAddDeclare hex client
    refine ⟨fun e he => ?_, fun v hq => ?_⟩
    · obtain ⟨before, after, heq⟩ := List.append_of_mem he
      exact hserves.allows_of_performs (fun _ _ _ => trivial) ⟨q, h⟩ heq
    · have := hserves.of_follows (fun _ _ _ => trivial) h
      rw [hq] at this
      exact this
  refine ⟨fun v c h => ?_, hrun, fun s account classHash compiled chain p signed h => ?_,
    fun client params c given hclass hgiven hne tr q h => ?_⟩
  · obtain ⟨hp, hv⟩ := SierraClass.fromJson_eq_ok h
    exact SierraClass.fromJson_toRpcJson hex hp hv
  · obtain ⟨sender, -, hsigned⟩ := WalletSession.signDeclareFor_eq_ok h
    exact ⟨sender, hsigned⟩
  · have hnone := declaredHash_ne_ok hclass hgiven hne
    refine ⟨fun e he hask => ?_, fun v hq => ?_⟩
    · obtain ⟨classHash, hhash⟩ := ((hrun client params tr q h).1 e he).asks hask
      exact hnone classHash hhash
    · obtain ⟨classHash, hhash, -⟩ := (hrun client params tr q h).2 v hq
      exact hnone classHash hhash

/-! ### A compiled artifact -/

/-- A class as a compiler writes it: felts in three spellings, no `L1_HANDLER` and `CONSTRUCTOR`
groups, the ABI as JSON, and a field the wallet does not know. -/
def artifact : Json := .obj [
  ("sierra_program", .arr [.str "0x1", .str "2", .int 3]),
  ("sierra_program_debug_info", .null),
  ("contract_class_version", .str "0.1.0"),
  ("entry_points_by_type", .obj [
    ("EXTERNAL", .arr [.obj [("selector", .str "5"), ("function_idx", .str "0")]])]),
  ("abi", .arr [.str "f"])]

def artifactClass : SierraClass where
  sierraProgram := [1, 2, 3]
  contractClassVersion := "0.1.0"
  entryPointsByType := { external := [⟨5, 0⟩] }
  abi := "[\"f\"]"

/-- A declaration of the artifact under a class hash, to be broadcast. -/
def declaring (classHash : Felt) : Json := .obj [
  ("account_address", .str "0x1"), ("contract_class", artifact),
  ("class_hash", .str (feltHex classHash)), ("compiled_class_hash", .str "0x8"),
  ("submit", .bool true)]

/-- A service with a node for every chain, whose user approves. -/
def declaringNode : (op : Op) → Option (Ans op)
  | .nodeFor _ => some true
  | .nodeRpc _ method _ => some (.body (nodeReply method))
  | .signDeclare a classHash compiled chain p =>
      some ((mainSession (ownAccount 1)).signDeclareFor plainCrates a classHash compiled chain p)
  | op => approvingAll plainCrates (ownAccount 1) op

theorem fromJson_artifact : SierraClass.fromJson plainCrates artifact = .ok artifactClass := by
  decide +kernel

theorem declaredHash_artifact :
    declaredHash plainCrates (declaring (artifactClass.classHash plainCrates)) =
      .ok (artifactClass.classHash plainCrates) := by
  decide +kernel

/-- The artifact survives the trip through its canonical object.  Declared under its own hash it is
shown to the node twice, with that hash, and the hash is returned; under another hash nobody is
asked. -/
theorem handleAddDeclare_keeps_class_artifact :
    SierraClass.fromJson plainCrates artifactClass.toRpcJson = .ok artifactClass ∧
    (∃ tr v, Ran (handleAddDeclare plainCrates app (declaring (artifactClass.classHash plainCrates)))
        tr (.ok v) ∧
      (tr.filterMap fun e => sentClass e.1).length = 2 ∧
      (∀ e ∈ tr, ∀ cc, sentClass e.1 = some cc →
        HashesTo plainCrates cc (artifactClass.classHash plainCrates)) ∧
      v.get? "class_hash" = some (.str (feltHex (artifactClass.classHash plainCrates)))) ∧
    ∃ tr err, Ran (handleAddDeclare plainCrates app (declaring 7)) tr (.error err) ∧
      ∀ e ∈ tr, ¬ asksOrSigns e.1 := by
  obtain ⟨hround, hrun, -, hrefuse⟩ := handleAddDeclare_keeps_class plainCrates plainCrates_feltFromHex
  refine ⟨hround _ _ fromJson_artifact, ?_, ?_⟩
  · have hended : (answered declaringNode (handleAddDeclare plainCrates app
        (declaring (artifactClass.classHash plainCrates))).run).map Except.isOk = some true := by
      decide +kernel
    obtain ⟨r, hend, hok⟩ := Option.map_eq_some_iff.1 hended
    cases r with
    | error err => cases hok
    | ok v =>
        have hran := follows_replay hend
        obtain ⟨hops, hanswer⟩ := hrun app _ _ _ hran
        refine ⟨_, v, hran, by decide +kernel, fun e he cc hcc => ?_, ?_⟩
        · obtain ⟨classHash, hdeclared, hhash⟩ := (hops e he).sends cc hcc
          rwa [Except.ok.inj (declaredHash_artifact.symm.trans hdeclared)]
        · obtain ⟨classHash, hdeclared, hnamed, -⟩ := hanswer v rfl
          rwa [Except.ok.inj (declaredHash_artifact.symm.trans hdeclared)]
  · have hended : (answered declaringNode (handleAddDeclare plainCrates app (declaring 7)).run).map
        Except.isOk = some false := by decide +kernel
    obtain ⟨r, hend, hok⟩ := Option.map_eq_some_iff.1 hended
    cases r with
    | ok v => cases hok
    | error err =>
        have hran := follows_replay hend
        exact ⟨_, err, hran, (hrefuse app (declaring 7) artifactClass 7 (by decide +kernel)
          (by decide +kernel) (by decide +kernel) _ _ hran).1⟩

end Strkd.Service
