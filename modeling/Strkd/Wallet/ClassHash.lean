import Strkd.Lib.Json
import Strkd.Wallet.Keys

/-!
# Sierra contract classes

Parsing a contract class, the class hash a node derives from it, and the canonical RPC object that
is broadcast.  The canonical object parses back to the class it was printed from
(`SierraClass.fromJson_toRpcJson`), so it hashes to the class hash that was signed.
-/

namespace Strkd.Wallet

def contractClassVersion : String := "0.1.0"

structure SierraEntryPoint where
  selector : Felt
  functionIdx : U64
  deriving DecidableEq, Repr

structure SierraEntryPoints where
  external : List SierraEntryPoint := []
  l1Handler : List SierraEntryPoint := []
  constructor : List SierraEntryPoint := []
  deriving DecidableEq, Repr

/-- A parsed Sierra contract class. -/
structure SierraClass where
  sierraProgram : List Felt
  contractClassVersion : String
  entryPointsByType : SierraEntryPoints
  /-- The ABI as the JSON string that is hashed and broadcast. -/
  abi : String
  deriving DecidableEq, Repr

/-! ## Python-style JSON -/

mutual

/-- JSON with Python's default separators, the form the compiler hashes an ABI in. -/
def pythonJson : Json → String
  | .arr items => "[" ++ pythonItems items ++ "]"
  | .obj fields => "\x7b" ++ pythonFields fields ++ "\x7d"
  | .null => Json.render .null
  | .bool b => Json.render (.bool b)
  | .int n => Json.render (.int n)
  | .float text => Json.render (.float text)
  | .str s => Json.render (.str s)

def pythonItems : List Json → String
  | [] => ""
  | [v] => pythonJson v
  | v :: w :: rest => pythonJson v ++ ", " ++ pythonItems (w :: rest)

def pythonFields : List (String × Json) → String
  | [] => ""
  | [(k, v)] => Json.quote k ++ ": " ++ pythonJson v
  | (k, v) :: f :: rest => Json.quote k ++ ": " ++ pythonJson v ++ ", " ++ pythonFields (f :: rest)

end

/-! ## Parsing and hashing -/

section

variable (K : Crates)

def invalid {α : Type} (message : String) : Except CoreError α :=
  .error (.invalidContractClass message)

/-- A felt given as hexadecimal, as a decimal string or as an integer. -/
def feltOf : Json → Option Felt
  | .str s =>
      match stripPrefix "0x" s <|> stripPrefix "0X" s with
      | some h => K.feltFromHex ("0x" ++ h)
      | none => K.feltFromDecStr s
  | v => v.asU64.map Felt.ofNat

def functionIdxOf : Json → Option ℕ
  | .str s => parseRadix 10 (2 ^ 64) s
  | v => v.asU64

def entryPoint (name : String) (e : Json) (i : ℕ) : Except CoreError SierraEntryPoint :=
  match (e.get? "selector").bind (feltOf K) with
  | none => invalid s!"{name}[{i}].selector is not a felt"
  | some selector =>
      match (e.get? "function_idx").bind functionIdxOf with
      | none => invalid s!"{name}[{i}].function_idx is not an integer"
      | some functionIdx => .ok ⟨selector, BitVec.ofNat 64 functionIdx⟩

def entryPoints (group : Option Json) (name : String) : Except CoreError (List SierraEntryPoint) :=
  match group with
  | none | some .null => .ok []
  | some (.arr items) => items.zipIdx.mapM fun (e, i) => entryPoint K name e i
  | some _ => invalid s!"entry_points_by_type.{name} must be an array"

def sierraFelt (f : Json) (i : ℕ) : Except CoreError Felt :=
  match feltOf K f with
  | some felt => .ok felt
  | none => invalid s!"sierra_program[{i}] is not a felt"

/-- The `sierra_program` of a class object. -/
def sierraProgramOf (v : Json) : Except CoreError (List Felt) :=
  match v.get? "sierra_program" with
  | some (.arr items) => items.zipIdx.mapM fun (f, i) => sierraFelt K f i
  | some (.str _) => invalid ("sierra_program must be the uncompressed felt array (RPC " ++
      "CONTRACT_CLASS form), not the compressed gateway string")
  | _ => invalid "missing 'sierra_program' (array of felts)"

def versionOf (v : Json) : Except CoreError String :=
  match v.get? "contract_class_version" with
  | none | some .null => .ok contractClassVersion
  | some other =>
      if other.asStr = some contractClassVersion then .ok contractClassVersion
      else invalid (s!"unsupported contract_class_version {other.render} (expected \"" ++
        contractClassVersion ++ "\")")

def entryPointsOf (v : Json) : Except CoreError SierraEntryPoints :=
  match v.get? "entry_points_by_type" with
  | none | some .null => .ok {}
  | some (.obj groups) => do
      let external ← entryPoints K ((Json.obj groups).get? "EXTERNAL") "EXTERNAL"
      let l1Handler ← entryPoints K ((Json.obj groups).get? "L1_HANDLER") "L1_HANDLER"
      let constructor ← entryPoints K ((Json.obj groups).get? "CONSTRUCTOR") "CONSTRUCTOR"
      return { external, l1Handler, constructor }
  | some _ => invalid "entry_points_by_type must be an object"

def abiOf (v : Json) : Except CoreError String :=
  match v.get? "abi" with
  | some (.str s) => .ok s
  | some .null | none =>
      invalid "missing 'abi' (the ABI as a JSON string, or the ABI array from the compiled class)"
  | some other => .ok (pythonJson other)

namespace SierraClass

/-- Parse a class from the RPC object or from a compiled artifact. -/
def fromJson (v : Json) : Except CoreError SierraClass := do
  if v.isObject = false then invalid "must be a JSON object (RPC CONTRACT_CLASS)"
  let sierraProgram ← sierraProgramOf K v
  if sierraProgram = [] then invalid "sierra_program is empty"
  let contractClassVersion ← versionOf v
  let entryPointsByType ← entryPointsOf K v
  let abi ← abiOf v
  return { sierraProgram, contractClassVersion, entryPointsByType, abi }

def hashEntryPoints (eps : List SierraEntryPoint) : Felt :=
  K.curve.poseidon (eps.flatMap fun e => [e.selector, .ofNat e.functionIdx.toNat])

/-- The class hash a node derives from a class. -/
def classHash (c : SierraClass) : Felt :=
  K.curve.poseidon [
    shortString "CONTRACT_CLASS_V0.1.0",
    hashEntryPoints K c.entryPointsByType.external,
    hashEntryPoints K c.entryPointsByType.l1Handler,
    hashEntryPoints K c.entryPointsByType.constructor,
    starknetKeccak K c.abi.toUTF8.toList,
    K.curve.poseidon c.sierraProgram]

end SierraClass

end

def entryPointJson (e : SierraEntryPoint) : Json := .obj [
  ("selector", .str (feltHex e.selector)), ("function_idx", .int e.functionIdx.toNat)]

/-- The canonical RPC `CONTRACT_CLASS` object of a class. -/
def SierraClass.toRpcJson (c : SierraClass) : Json := .obj [
  ("sierra_program", .arr (c.sierraProgram.map fun f => .str (feltHex f))),
  ("contract_class_version", .str c.contractClassVersion),
  ("entry_points_by_type", .obj [
    ("EXTERNAL", .arr (c.entryPointsByType.external.map entryPointJson)),
    ("L1_HANDLER", .arr (c.entryPointsByType.l1Handler.map entryPointJson)),
    ("CONSTRUCTOR", .arr (c.entryPointsByType.constructor.map entryPointJson))]),
  ("abi", .str c.abi)]

/-! ## The canonical object parses back -/

section

variable {K : Crates}

theorem mapM_zipIdx_eq_ok {ε α β : Type} {f : α × ℕ → Except ε β} {g : β → α}
    (h : ∀ b i, f (g b, i) = .ok b) (l : List β) (k : ℕ) :
    ((l.map g).zipIdx k).mapM f = .ok l := by
  induction l generalizing k with
  | nil => rfl
  | cons b l ih => exact mapM_cons_eq_ok.mpr ⟨b, l, h b k, ih (k + 1), rfl⟩

theorem feltOf_feltHex (hex : ∀ f, K.feltFromHex (feltHex f) = some f) (f : Felt) :
    feltOf K (.str (feltHex f)) = some f := by
  have h : stripPrefix "0x" (feltHex f) = some (hexText f.val) := stripPrefix_append _ _
  simp only [feltOf, h, Option.orElse_eq_orElse, Option.orElse_some]
  exact hex f

theorem asU64_toNat (n : U64) : (Json.int n.toNat).asU64 = some n.toNat := by
  simpa [Json.asU64] using n.isLt

theorem entryPoint_eq_ok {name : String} {v : Json} {i : ℕ} {selector : Felt} {n : ℕ}
    (hs : (v.get? "selector").bind (feltOf K) = some selector)
    (hi : (v.get? "function_idx").bind functionIdxOf = some n) :
    entryPoint K name v i = .ok ⟨selector, BitVec.ofNat 64 n⟩ := by
  unfold entryPoint
  rw [hs, hi]

theorem entryPoint_entryPointJson (hex : ∀ f, K.feltFromHex (feltHex f) = some f) (name : String)
    (e : SierraEntryPoint) (i : ℕ) : entryPoint K name (entryPointJson e) i = .ok e := by
  have hs : ((entryPointJson e).get? "selector").bind (feltOf K) = some e.selector := by
    have h : (entryPointJson e).get? "selector" = some (.str (feltHex e.selector)) := rfl
    rw [h, Option.bind_some, feltOf_feltHex hex]
  have hi : ((entryPointJson e).get? "function_idx").bind functionIdxOf =
      some e.functionIdx.toNat := by
    have h : (entryPointJson e).get? "function_idx" = some (.int e.functionIdx.toNat) := rfl
    rw [h, Option.bind_some, functionIdxOf, asU64_toNat]
    simp
  rw [entryPoint_eq_ok hs hi, BitVec.ofNat_toNat, BitVec.setWidth_eq]

theorem entryPoints_map (hex : ∀ f, K.feltFromHex (feltHex f) = some f) (name : String)
    (eps : List SierraEntryPoint) :
    entryPoints K (some (.arr (eps.map entryPointJson))) name = .ok eps :=
  mapM_zipIdx_eq_ok (entryPoint_entryPointJson hex name) eps 0

theorem versionOf_eq_ok {v : Json} {version : String} (h : versionOf v = .ok version) :
    version = contractClassVersion := by
  unfold versionOf at h
  split at h
  · exact (Except.ok.inj h).symm
  · exact (Except.ok.inj h).symm
  · split_ifs at h
    · exact (Except.ok.inj h).symm
    · cases h

namespace SierraClass

/-- What parsing guarantees of a class. -/
theorem fromJson_eq_ok {v : Json} {c : SierraClass} (h : fromJson K v = .ok c) :
    c.sierraProgram ≠ [] ∧ c.contractClassVersion = Wallet.contractClassVersion := by
  unfold fromJson at h
  split_ifs at h with hv
  · exact absurd h (by simp [invalid, except_bind_eq_ok])
  obtain ⟨program, -, h⟩ := except_bind_eq_ok.mp h
  split_ifs at h with hp
  · exact absurd h (by simp [invalid, except_bind_eq_ok])
  simp only [except_bind_eq_ok, except_pure_eq_ok] at h
  obtain ⟨version, hversion, eps, -, abi, -, rfl⟩ := h
  exact ⟨hp, versionOf_eq_ok hversion⟩

theorem sierraProgramOf_toRpcJson (hex : ∀ f, K.feltFromHex (feltHex f) = some f)
    (c : SierraClass) : sierraProgramOf K c.toRpcJson = .ok c.sierraProgram := by
  refine mapM_zipIdx_eq_ok (fun f i => ?_) c.sierraProgram 0
  simp only [sierraFelt, feltOf_feltHex hex]

theorem entryPointsOf_toRpcJson (hex : ∀ f, K.feltFromHex (feltHex f) = some f)
    (c : SierraClass) : entryPointsOf K c.toRpcJson = .ok c.entryPointsByType := by
  have h : c.toRpcJson.get? "entry_points_by_type" = some (.obj [
      ("EXTERNAL", .arr (c.entryPointsByType.external.map entryPointJson)),
      ("L1_HANDLER", .arr (c.entryPointsByType.l1Handler.map entryPointJson)),
      ("CONSTRUCTOR", .arr (c.entryPointsByType.constructor.map entryPointJson))]) := rfl
  simp only [entryPointsOf, h, except_bind_eq_ok, except_pure_eq_ok]
  exact ⟨_, entryPoints_map hex "EXTERNAL" _, _, entryPoints_map hex "L1_HANDLER" _, _,
    entryPoints_map hex "CONSTRUCTOR" _, rfl⟩

/-- The canonical object of a class parses back to the class. -/
theorem fromJson_toRpcJson (hex : ∀ f, K.feltFromHex (feltHex f) = some f)
    {c : SierraClass} (hp : c.sierraProgram ≠ [])
    (hv : c.contractClassVersion = Wallet.contractClassVersion) :
    fromJson K c.toRpcJson = .ok c := by
  have hversion : versionOf c.toRpcJson = .ok c.contractClassVersion := by
    have h : c.toRpcJson.get? "contract_class_version" = some (.str c.contractClassVersion) := rfl
    simp [versionOf, h, hv, Json.asStr]
  have habi : abiOf c.toRpcJson = .ok c.abi := rfl
  have hobj : c.toRpcJson.isObject = true := rfl
  simp only [fromJson, hobj, sierraProgramOf_toRpcJson hex, hversion, entryPointsOf_toRpcJson hex,
    habi]
  simp [hp, except_bind_eq_ok]

end SierraClass

end

end Strkd.Wallet
