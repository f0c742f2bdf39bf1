import Strkd.Lib.Json
import Strkd.Rpc.Auth

/-!
# The client store on disk

The paired clients with `clients.json`, the file they are written to after every change and read
back from at every start.  A change happens in memory first; a write that fails is not reported.
-/

namespace Strkd.Rpc

open Wallet (Crates)

/-! ## The file's contents -/

def ClientKind.toJson : ClientKind → Json
  | .agent => .str "agent"
  | .app => .str "app"

def ClientKind.ofJson (v : Json) : Option ClientKind :=
  match v.asStr with
  | some s => if s = "agent" then some .agent else if s = "app" then some .app else none
  | none => none

namespace PairedClient

def toJson (c : PairedClient) : Json := .obj [("id", .str c.id), ("label", .str c.label),
  ("kind", c.kind.toJson),
  ("granted_until", match c.grantedUntil with
    | some t => .int t.toNat
    | none => .null),
  ("token_hash", .str c.tokenHash)]

/-- A grant that is absent or null is none. -/
def grantOfJson : Option Json → Option (Option U64)
  | none | some .null => some none
  | some v => v.asU64.map fun t => some (BitVec.ofNat 64 t)

def ofJson (v : Json) : Option PairedClient := do
  let id ← (v.get? "id").bind Json.asStr
  let label ← (v.get? "label").bind Json.asStr
  let kind ← (v.get? "kind").bind ClientKind.ofJson
  let grantedUntil ← grantOfJson (v.get? "granted_until")
  let tokenHash ← (v.get? "token_hash").bind Json.asStr
  return ⟨id, label, kind, grantedUntil, tokenHash⟩

end PairedClient

namespace ClientStore

def toJson (s : ClientStore) : Json := .arr (s.map PairedClient.toJson)

def ofJson (v : Json) : Option ClientStore := v.asArray.bind fun items =>
  items.mapM PairedClient.ofJson

/-- The clients of a file, none where there is no file or it does not parse. -/
def load (file : Option Json) : ClientStore := (file.bind ofJson).getD []

end ClientStore

theorem ClientKind.ofJson_toJson (k : ClientKind) : ofJson k.toJson = some k := by
  cases k <;> decide

theorem PairedClient.grantOfJson_some (t : U64) :
    grantOfJson (some (.int t.toNat)) = some (some t) := by
  have h : (0 : ℤ) ≤ t.toNat ∧ (t.toNat : ℤ) < 2 ^ 64 := ⟨by omega, by exact_mod_cast t.isLt⟩
  have hlt := t.isLt
  simp [grantOfJson, Json.asU64, h]
  omega

theorem PairedClient.ofJson_toJson (c : PairedClient) : ofJson c.toJson = some c := by
  obtain ⟨id, label, kind, grantedUntil, tokenHash⟩ := c
  have hkind : (some kind.toJson).bind ClientKind.ofJson = some kind :=
    ClientKind.ofJson_toJson kind
  cases grantedUntil with
  | none => simp [ofJson, toJson, Json.get?, List.lookup, hkind, grantOfJson, Json.asStr]
  | some t =>
      have hgrant := PairedClient.grantOfJson_some t
      simp [ofJson, toJson, Json.get?, List.lookup, hkind, hgrant, Json.asStr]

theorem ClientStore.ofJson_toJson (s : ClientStore) : ofJson s.toJson = some s := by
  show (s.map PairedClient.toJson).mapM PairedClient.ofJson = some s
  induction s with
  | nil => rfl
  | cons c rest ih => simp [PairedClient.ofJson_toJson, ih]

/-- What was written is what is read. -/
@[simp] theorem ClientStore.load_toJson (s : ClientStore) : load (some s.toJson) = s := by
  simp [load, ClientStore.ofJson_toJson]

/-! ## The store with its file -/

/-- How a write of the file goes: it fails at one of its steps, or it is done. -/
inductive Write where
  | notSerialized
  /-- The temporary file could not be written; something may be left of it. -/
  | notWritten (left : Option Json)
  | notRenamed
  | done
  deriving Repr

structure StoredClients where
  clients : ClientStore := []
  /-- `clients.json` -/
  file : Option Json := none
  /-- `clients.json.tmp` -/
  tmp : Option Json := none

/-- An operation of the store, with the id and the token it draws, or a restart of the program. -/
inductive StoreOp where
  | pair (label : String) (kind : ClientKind) (id token : String)
  | reattach (name : String) (kind : ClientKind) (token : String)
  | grant (id : String) (untilMs : U64)
  | revokeGrant (id : String)
  | revoke (id : String)
  | restart
  deriving Repr

namespace StoredClients

/-- Write the clients to the file; the errors are swallowed. -/
def persist (w : Write) (s : StoredClients) : StoredClients :=
  match w with
  | .notSerialized => s
  | .notWritten left => { s with tmp := left }
  | .notRenamed => { s with tmp := some s.clients.toJson }
  | .done => { s with file := some s.clients.toJson, tmp := none }

/-- Whether an operation reports success to its caller. -/
def succeeds (s : StoredClients) : StoreOp → Bool
  | .pair _ _ _ _ | .restart => true
  | .reattach name kind _ => (s.clients.findId name kind).isSome
  | .grant id _ | .revokeGrant id | .revoke id => s.clients.has id

variable (K : Crates)

/-- The clients after an operation that succeeds. -/
def changed (s : StoredClients) : StoreOp → ClientStore
  | .pair label kind id token => s.clients.pair K label kind id token
  | .reattach name kind token => s.clients.reattach K name kind token
  | .grant id untilMs => s.clients.grant id untilMs
  | .revokeGrant id => s.clients.revokeGrant id
  | .revoke id => s.clients.revoke id
  | .restart => .load s.file

/-- An operation whose write goes as `w` says. A restart only reads. -/
def apply (w : Write) (s : StoredClients) (op : StoreOp) : StoredClients :=
  match op with
  | .restart => { s with clients := s.changed K .restart }
  | op => if s.succeeds op then persist w { s with clients := s.changed K op } else s

/-- Operations one after the other, each with how its write goes. -/
def run (s : StoredClients) (steps : List (StoreOp × Write)) : StoredClients :=
  steps.foldl (fun s x => s.apply K x.2 x.1) s

variable {K}

theorem run_append (s : StoredClients) (xs ys : List (StoreOp × Write)) :
    s.run K (xs ++ ys) = (s.run K xs).run K ys := List.foldl_append

theorem run_cons (s : StoredClients) (x : StoreOp × Write) (xs : List (StoreOp × Write)) :
    s.run K (x :: xs) = (s.apply K x.2 x.1).run K xs := rfl

@[simp] theorem clients_persist (w : Write) (s : StoredClients) :
    (persist w s).clients = s.clients := by
  cases w <;> rfl

/-- What a write leaves in the file: the clients if it is done, and else what was there. -/
theorem load_persist (w : Write) (s : StoredClients) :
    (w = .done ∧ ClientStore.load (persist w s).file = s.clients) ∨
      (persist w s).file = s.file := by
  cases w with
  | done => exact Or.inl ⟨rfl, ClientStore.load_toJson s.clients⟩
  | _ => exact Or.inr rfl

/-- The clients after an operation: changed if it succeeds, and else as they were. -/
theorem clients_apply (w : Write) (s : StoredClients) (op : StoreOp) :
    (s.apply K w op).clients = if s.succeeds op then s.changed K op else s.clients := by
  cases op with
  | restart => rfl
  | _ =>
      unfold apply
      dsimp only
      split_ifs <;> simp

end StoredClients

end Strkd.Rpc
