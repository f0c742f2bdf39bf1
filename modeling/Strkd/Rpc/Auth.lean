import Strkd.Rpc.Error
import Strkd.Wallet.Keys

/-!
# Paired clients

The pairing store: who is paired, under which token hash, and until when a client's own-account
operations are auto-approved.
-/

namespace Strkd.Rpc

open Wallet (Crates)

/-- An autonomous agent, scoped to its own accounts, or a user-facing app. -/
inductive ClientKind where
  | agent
  | app
  deriving DecidableEq, Repr

/-- `{:?}` of a client kind. -/
def ClientKind.debug : ClientKind → String
  | .agent => "Agent"
  | .app => "App"

/-- A paired client. Only the hash of its token is stored. -/
structure PairedClient where
  id : String
  label : String
  kind : ClientKind
  /-- Unix-ms expiry of an auto-approval grant. -/
  grantedUntil : Option U64
  tokenHash : String
  deriving DecidableEq, Repr

namespace PairedClient

/-- Whether an auto-approval grant is active. -/
def grantActive (c : PairedClient) (nowMs : U64) : Bool :=
  match c.grantedUntil with
  | some t => nowMs < t
  | none => false

/-- How prompts and the log name a client. -/
def fullLabel (c : PairedClient) : String := c.label ++ " (" ++ c.id ++ ")"

/-- Which accounts the client may see and use. -/
def scope (c : PairedClient) : Option String :=
  match c.kind with
  | .agent => some c.id
  | .app => none

end PairedClient

/-! ## The store -/

abbrev ClientStore := List PairedClient

namespace ClientStore

variable (K : Crates)

/-- Change the first client that satisfies `p`. -/
def updateFirst (p : PairedClient → Bool) (f : PairedClient → PairedClient) :
    ClientStore → ClientStore
  | [] => []
  | c :: rest => if p c then f c :: rest else c :: updateFirst p f rest

/-- Register a new client under a fresh id and token. -/
def pair (s : ClientStore) (label : String) (kind : ClientKind) (id token : String) : ClientStore :=
  s ++ [⟨id, label, kind, none, K.sha256Hex token⟩]

def has (s : ClientStore) (id : String) : Bool := s.any fun c => c.id = id

def grant (s : ClientStore) (id : String) (untilMs : U64) : ClientStore :=
  updateFirst (fun c => c.id = id) (fun c => { c with grantedUntil := some untilMs }) s

def revokeGrant (s : ClientStore) (id : String) : ClientStore :=
  updateFirst (fun c => c.id = id) (fun c => { c with grantedUntil := none }) s

/-- Whether a client carries a name and a kind. -/
def named (name : String) (kind : ClientKind) (c : PairedClient) : Bool :=
  c.label = name ∧ c.kind = kind

/-- The id of an existing client with a name and a kind. -/
def findId (s : ClientStore) (name : String) (kind : ClientKind) : Option String :=
  (s.find? (named name kind)).map PairedClient.id

/-- Issue a fresh token to the existing client with a name and a kind. -/
def reattach (s : ClientStore) (name : String) (kind : ClientKind) (token : String) : ClientStore :=
  updateFirst (named name kind) (fun c => { c with tokenHash := K.sha256Hex token }) s

/-- Resolve a bearer token to its client. -/
def verify (s : ClientStore) (token : String) : Option PairedClient :=
  s.find? fun c => c.tokenHash = K.sha256Hex token

/-- Remove the clients with an id. -/
def revoke (s : ClientStore) (id : String) : ClientStore := s.filter fun c => c.id ≠ id

theorem verify_mem {s : ClientStore} {token : String} {c : PairedClient}
    (h : s.verify K token = some c) : c ∈ s :=
  List.mem_of_find?_eq_some h

/-- What `updateFirst` leaves of a client: the client itself, or its update. -/
theorem exists_updateFirst {p : PairedClient → Bool} {f : PairedClient → PairedClient}
    {s : ClientStore} {c : PairedClient} (h : c ∈ s) :
    c ∈ updateFirst p f s ∨ (p c = true ∧ f c ∈ updateFirst p f s) := by
  induction s with
  | nil => cases h
  | cons d rest ih =>
      unfold updateFirst
      rcases List.mem_cons.mp h with rfl | h
      · by_cases hp : p c
        · rw [if_pos hp]
          exact Or.inr ⟨hp, List.mem_cons_self⟩
        · rw [if_neg hp]
          exact Or.inl List.mem_cons_self
      · by_cases hp : p d
        · rw [if_pos hp]
          exact Or.inl (List.mem_cons_of_mem _ h)
        · rw [if_neg hp]
          rcases ih h with ih | ⟨hpc, ih⟩
          · exact Or.inl (List.mem_cons_of_mem _ ih)
          · exact Or.inr ⟨hpc, List.mem_cons_of_mem _ ih⟩

end ClientStore

end Strkd.Rpc
