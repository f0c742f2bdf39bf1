import Strkd.Rpc.Views
import Strkd.Service.Prompts

/-!
# What a client learns of other accounts

A paired client's requests are the same to it whatever accounts the registry holds out of its
scope: the other agents' accounts and, for an agent, the user's.  Two methods look further: the index
of a new account counts the accounts of all agents, and a prompt to re-attach a client counts the
accounts of that client.
-/

namespace Strkd.Service

open Rpc Wallet

/-- One server, but for the accounts out of a scope; the token is one of that scope. -/
def scopeView (scope : Option String) : Likeness Op Ans where
  op := Eq
  ans
    | .session, s₁, .session, s₂ => SameView scope s₁ s₂
    | .verify _, c₁, .verify _, c₂ => c₁ = c₂ ∧ ∀ c, c₁ = some c → c.scope = scope
    | _, a₁, _, a₂ => HEq a₁ a₂

/-- The methods that look past the caller's scope. -/
def looksPast : Option Method → Bool
  | some .createAgentAccount | some .requestPairing => true
  | _ => false

section

variable {K : Crates} {S : Setup} {scope : Option String}

theorem sees_scopeView : Sees (scopeView scope) scope where
  plain op hop := by
    cases op with
    | session | verify => cases hop
    | _ => exact ⟨rfl, fun a b hab => eq_of_heq hab⟩
  session := rfl
  view _ _ h := h

theorem twins_verifyToken (token : Option String) :
    Twins (scopeView scope) (fun c₁ c₂ => c₁ = c₂ ∧ ∀ c, c₁ = some c → c.scope = scope)
      (verifyToken token) (verifyToken token) := by
  cases token with
  | none => exact ⟨rfl, fun _ h => nomatch h⟩
  | some t => exact ⟨rfl, fun c₁ c₂ h => h⟩

theorem twins_getStatus (token : Option String) :
    Twins (scopeView scope) Eq (handleGetStatus S token) (handleGetStatus S token) := by
  refine Twins.bind (Q := Eq) ?_ fun grant _ hgrant => ?_
  · refine Twins.bind (twins_verifyToken token) fun c₁ c₂ hc => ?_
    obtain ⟨rfl, -⟩ := hc
    cases c₁ with
    | none => exact rfl
    | some c =>
        refine ⟨rfl, fun now now' h => ?_⟩
        rw [eq_of_heq h]
        exact rfl
  · cases hgrant
    refine ⟨rfl, fun s₁ s₂ h => ?_⟩
    have hlocked := SameView.isLocked h
    have hchain := SameView.chain h
    show (_ : Handled) = _
    rw [hlocked, hchain]

theorem twins_handlePaired {client : PairedClient} (hscope : client.scope = scope) (req : Request)
    {method : Option Method} (hm : looksPast method = false) :
    Twins (scopeView scope) Eq (handlePaired K S client req method)
      (handlePaired K S client req method) := by
  have hcounts : method.any Method.countsAgents = false := by
    cases method with
    | none => rfl
    | some m =>
        cases m with
        | createAgentAccount => cases hm
        | _ => rfl
  unfold handlePaired
  cases method.any Method.isDeferred with
  | true => exact rfl
  | false =>
      refine Twins.bind (p := (serve K S client req method).run) (q := (serve K S client req method).run)
        (oblivious_serve sees_scopeView hscope req hcounts) fun r₁ r₂ hr => ?_
      cases hr
      exact rfl

/-- A request is handled the same. -/
theorem twins_handle_scope {req : Request} (hm : looksPast (Method.ofString req.method) = false)
    (token : Option String) :
    Twins (scopeView scope) Eq (handle K S token req) (handle K S token req) := by
  have hpaired : ∀ (method : Option Method) (f : Option PairedClient → Prog Op Ans Handled),
      looksPast method = false → f none = pure ⟨.error .notRegistered, "n/a", none⟩ →
      (∀ client, f (some client) = handlePaired K S client req method) →
      Twins (scopeView scope) Eq (verifyToken token >>= f) (verifyToken token >>= f) := by
    intro method f hmethod hnone hsome
    refine Twins.bind (twins_verifyToken token) fun c₁ c₂ hc => ?_
    obtain ⟨rfl, hscope⟩ := hc
    cases c₁ with
    | none =>
        rw [hnone]
        exact rfl
    | some client =>
        rw [hsome]
        exact twins_handlePaired (hscope client rfl) req hmethod
  unfold handle
  cases hmethod : Method.ofString req.method with
  | none => exact hpaired none _ rfl rfl fun _ => rfl
  | some m =>
      rw [hmethod] at hm
      cases m with
      | supportedWalletApi | supportedSpecs => exact rfl
      | requestPairing => cases hm
      | getStatus => exact twins_getStatus token
      | getPermissions =>
          refine Twins.bind (twins_verifyToken token) fun c₁ c₂ hc => ?_
          cases hc.1
          exact rfl
      | _ => exact hpaired _ _ hm rfl fun _ => rfl

/-- Two runs of one request of a client, on registries that agree in the client's scope, do the
same and answer the same. -/
theorem scope_blind {req : Request} {token : Option String} {tr₁ tr₂ : Trace} {r₁ r₂ : Response}
    (hm : looksPast (Method.ofString req.method) = false)
    (hrun₁ : Follows (dispatch K S token req) tr₁ (.pure r₁))
    (hrun₂ : Follows (dispatch K S token req) tr₂ (.pure r₂))
    (hin : InStep (scopeView scope) tr₁ tr₂) :
    r₁ = r₂ ∧ tr₁.map Sigma.fst = tr₂.map Sigma.fst := by
  have htwins : Twins (scopeView scope) Eq (dispatch K S token req) (dispatch K S token req) := by
    refine ⟨rfl, fun now now' h => ?_⟩
    refine Twins.bind (p := handle K S token req) (q := handle K S token req)
      (twins_handle_scope hm token) fun handled _ hhandled => ?_
    cases hhandled
    refine ⟨rfl, fun s₁ s₂ hs => ⟨rfl, fun now₁ now₂ hnow => ⟨rfl, fun l₁ l₂ hl => ?_⟩⟩⟩
    have hchain := SameView.chain hs
    cases eq_of_heq hnow
    cases eq_of_heq hl
    refine ⟨?_, fun _ _ _ => ?_⟩
    · show Op.record _ = Op.record _
      rw [hchain]
    · cases handled.result <;> exact rfl
  obtain ⟨hall, hr⟩ := htwins.follows hrun₁ hrun₂ hin (.inr ⟨⟨r₁, rfl⟩, r₂, rfl⟩)
  exact ⟨hr, List.forall₂_eq_eq_eq ▸ List.rel_map (fun _ _ h => h.1) hall⟩

end

/-! ## An example -/

/-- The session with the accounts of another agent and of the user. -/
def crowdedSession : WalletSession := .newUnlocked .sepolia "test" "pass" ⟨[plainAccount,
  { plainAccount with index := 1, address := addressHex 8, ownerClientId := some "c2" },
  { plainAccount with domain := .user, address := addressHex 9, ownerClientId := none }]⟩

/-- A server with a session, for a client that only looks. -/
def onlooker (s : WalletSession) : (op : Op) → Option (Ans op)
  | .touchActivity | .clock _ | .elapsed => some 0
  | .verify _ => some (some plainClient)
  | .session => some s
  | .record _ => some true
  | _ => none

theorem onlooker_alike (op : Op) (a₁ a₂ : Ans op) (h₁ : onlooker plainSession op = some a₁)
    (h₂ : onlooker crowdedSession op = some a₂) : (scopeView (some "c1")).ans op a₁ op a₂ := by
  cases op with
  | session =>
      cases h₁
      cases h₂
      exact ⟨rfl, .some ⟨rfl, by decide +kernel⟩⟩
  | verify token =>
      cases h₁
      cases h₂
      exact ⟨rfl, fun c hc => by cases hc; rfl⟩
  | touchActivity | clock use | elapsed | record entry =>
      cases h₁
      cases h₂
      exact .rfl
  | _ => cases h₁

def accountsRequest : Request := { id := .int 1, method := "companion_listAccounts", params := .null }

/-- An agent lists its accounts, with and without the others'. -/
theorem accountsRequest_blind :
    let p := dispatch plainCrates plainSetup (some "t") accountsRequest
    ∃ r₁ r₂, answered (onlooker plainSession) p = some r₁ ∧
      answered (onlooker crowdedSession) p = some r₂ ∧ r₁ = r₂ ∧
      (replay (onlooker plainSession) p).map Sigma.fst =
        (replay (onlooker crowdedSession) p).map Sigma.fst := by
  intro p
  obtain ⟨r₁, h₁⟩ := Option.isSome_iff_exists.1
    (by decide +kernel : (answered (onlooker plainSession) p).isSome = true)
  obtain ⟨r₂, h₂⟩ := Option.isSome_iff_exists.1
    (by decide +kernel : (answered (onlooker crowdedSession) p).isSome = true)
  have hin : InStep (scopeView (some "c1")) (replay (onlooker plainSession) p)
      (replay (onlooker crowdedSession) p) := by
    refine inStep_of_mem fun e₁ he₁ e₂ he₂ hop => ?_
    obtain ⟨op₁, a₁⟩ := e₁
    obtain ⟨op₂, a₂⟩ := e₂
    cases hop
    exact onlooker_alike op₁ a₁ a₂
      (forall_mem_replay (P := fun op a => onlooker plainSession op = some a) (fun _ _ h => h) p _ he₁)
      (forall_mem_replay (P := fun op a => onlooker crowdedSession op = some a) (fun _ _ h => h) p _
        he₂)
  exact ⟨r₁, r₂, h₁, h₂,
    scope_blind (by decide +kernel) (follows_replay h₁) (follows_replay h₂) hin⟩

end Strkd.Service
