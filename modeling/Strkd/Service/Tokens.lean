import Strkd.Rpc.Views
import Strkd.Service.Audit
import Strkd.Service.Prompts

/-!
# Where bearer tokens go

A token that a request presents is looked up and forgotten; one that a pairing issues goes into its
answer, and with the answer into the result column of its row.  Everything else a request does is
the same for any tokens (`tokens_blind`).
-/

namespace Strkd.Service

open Rpc Wallet Prover

/-! ## Two servers that issue other tokens -/

/-- A row without the result of a pairing. -/
def sansResult (e : LogEntry) : LogEntry :=
  if e.method = "companion_requestPairing" then { e with resultJson := none } else e

/-- An operation without the token it looks up and without the result of a pairing. -/
def sansToken : Op → Op
  | .verify _ => .verify ""
  | .record e => .record (sansResult e)
  | op => op

/-- One server, but for the tokens it knows and issues. -/
def otherTokens : Likeness Op Ans where
  op op₁ op₂ := sansToken op₁ = sansToken op₂
  ans
    | .pair _ _, (id₁, _), .pair _ _, (id₂, _) => id₁ = id₂
    | .reattach _ _, r₁, .reattach _ _, r₂ => r₁.map Prod.fst = r₂.map Prod.fst
    | _, a₁, _, a₂ => HEq a₁ a₂

/-- The operations that issue a token. -/
def issues : Op → Bool
  | .pair _ _ | .reattach _ _ => true
  | _ => false

theorem otherTokens_same {op : Op} (h : issues op = false) :
    otherTokens.op op op ∧ ∀ a b, otherTokens.ans op a op b → a = b := by
  refine ⟨rfl, fun a b hab => ?_⟩
  cases op with
  | pair | reattach => cases h
  | _ => exact eq_of_heq hab

theorem sameView_refl (scope : Option String) (s : WalletSession) : SameView scope s s where
  chain := rfl
  unlocked := by
    cases s.unlocked with
    | none => exact .none
    | some u => exact .some ⟨rfl, rfl⟩

theorem sees_otherTokens (scope : Option String) : Sees otherTokens scope where
  plain op hop := otherTokens_same (by cases op <;> first | rfl | cases hop)
  session := rfl
  view s₁ s₂ h := by
    cases eq_of_heq h
    exact sameView_refl scope s₁

section

variable {K : Crates} {S : Setup}

/-! ## Requests of a paired client -/

theorem oblivious_one {ε : Type} {op : Op} (h : issues op = false) :
    Oblivious otherTokens (ExceptT.lift (Prog.perform op) : Handler ε Op Ans (Ans op)) :=
  .of_confined (confined_perform (P := fun op => issues op = false) h) fun _ => otherTokens_same

theorem oblivious_saveVault (vault : EncryptedVault) : Oblivious otherTokens (saveVault vault) :=
  .bind (oblivious_one rfl) fun _ => .bind (.lift _) fun _ => .bind (oblivious_one rfl) fun _ =>
    .lift _

theorem oblivious_persistOrRollback (account : AccountRef) :
    Oblivious otherTokens (persistOrRollback K account) := by
  have hpersist : Oblivious otherTokens (persistVault K) :=
    .bind (.bind (oblivious_one rfl) fun _ => .bind (oblivious_one rfl) fun _ => rfl) fun vault =>
      .mapErr (oblivious_saveVault vault)
  refine .bind (.attempt hpersist) fun r => ?_
  cases r with
  | ok u => exact .pure _
  | error e => exact .bind (oblivious_one rfl) fun _ => .throw _

theorem oblivious_handleCreateAgentAccount (client : PairedClient) (params : Json) :
    Oblivious otherTokens (handleCreateAgentAccount K S client params) := by
  unfold handleCreateAgentAccount
  refine .exit (.throw _) fun _ => .bind (oblivious_gatedApproval (sees_otherTokens none) ..)
    fun _ => .bind (.lift _) fun _ => ?_
  refine .bind (oblivious_one rfl) fun _ => .bind (.attempt ?_) fun r =>
    .bind (oblivious_one rfl) fun _ => rfl
  refine .bind (oblivious_one rfl) fun _ => .bind rfl fun account => ?_
  split
  · exact .bind (oblivious_persistOrRollback account) fun _ => .pure _
  · exact .pure _

theorem oblivious_paired (client : PairedClient) (req : Request) (method : Option Method) :
    Oblivious otherTokens (serve K S client req method) := by
  cases hm : method.any Method.countsAgents with
  | false => exact oblivious_serve (sees_otherTokens client.scope) rfl req hm
  | true =>
      obtain ⟨m, rfl, hcounts⟩ := (Option.any_eq_true _ _).1 hm
      cases m with
      | createAgentAccount => exact oblivious_handleCreateAgentAccount client req.params
      | _ => cases hcounts

/-! ## Pairing -/

/-- Both were paired, or both refused for one reason. -/
def PairedAlike : Except WalletRpcError Json → Except WalletRpcError Json → Prop
  | .ok _, .ok _ => True
  | .error e₁, .error e₂ => e₁ = e₂
  | _, _ => False

theorem twins_askUser {label method summary : String} {f : Unit → Serve Json}
    (hf : Twins otherTokens PairedAlike (f ()).run (f ()).run) :
    Twins otherTokens PairedAlike
      (askUser label method summary >>= fun decision => confirmed decision >>= f).run
      (askUser label method summary >>= fun decision => confirmed decision >>= f).run := by
  refine ⟨rfl, fun d₁ d₂ hd => ?_⟩
  cases eq_of_heq hd
  cases d₁ with
  | approve => exact hf
  | reject => exact rfl

theorem twins_reattachClient (name : String) (kind : ClientKind) (id : String) :
    Twins otherTokens PairedAlike (reattachClient name kind id).run
      (reattachClient name kind id).run := by
  have howned : Oblivious otherTokens (ownedAccounts id) := by
    refine .bind (oblivious_one rfl) fun s => ?_
    split
    · exact .pure _
    · exact .pure _
  refine Twins.bind (p := (ownedAccounts id).run) (q := (ownedAccounts id).run) howned
    fun r₁ r₂ hr => ?_
  cases hr
  cases r₁ with
  | error e => exact rfl
  | ok accounts =>
      refine twins_askUser ⟨rfl, fun found₁ found₂ hfound => ?_⟩
      cases found₁ with
      | none =>
          cases found₂ with
          | none => exact ⟨rfl, fun crashed => nomatch crashed⟩
          | some b => cases hfound
      | some a =>
          cases found₂ with
          | none => cases hfound
          | some b => trivial

theorem twins_handlePairing (params : Json) :
    Twins otherTokens PairedAlike (handlePairing params).run (handlePairing params).run := by
  unfold handlePairing
  dsimp only
  cases paramFlag params "reattach" with
  | true =>
      refine ⟨rfl, fun found₁ found₂ hfound => ?_⟩
      cases eq_of_heq hfound
      cases found₁ with
      | none => exact twins_askUser ⟨rfl, fun _ _ _ => trivial⟩
      | some id => exact twins_reattachClient ..
  | false => exact twins_askUser ⟨rfl, fun _ _ _ => trivial⟩

/-! ## Any request -/

/-- Outcomes that differ in the result of a pairing only. -/
structure HandledAlike (method : String) (h₁ h₂ : Handled) : Prop where
  decision : h₁.decision = h₂.decision
  client : h₁.client = h₂.client
  result : h₁.result = h₂.result ∨
    method = "companion_requestPairing" ∧ ∃ v₁ v₂, h₁.result = .ok v₁ ∧ h₂.result = .ok v₂

theorem handledAlike_self {method : String} (h : Handled) : HandledAlike method h h :=
  ⟨rfl, rfl, .inl rfl⟩

theorem twins_handle_tokens {token₁ token₂ : Option String} (ht : token₁.isSome = token₂.isSome)
    (req : Request) :
    Twins otherTokens (HandledAlike req.method) (handle K S token₁ req) (handle K S token₂ req) := by
  have hverify : Twins otherTokens Eq (verifyToken token₁) (verifyToken token₂) := by
    cases token₁ with
    | none =>
        cases token₂ with
        | none => exact rfl
        | some t => cases ht
    | some t =>
        cases token₂ with
        | none => cases ht
        | some t' => exact ⟨rfl, fun a b hab => eq_of_heq hab⟩
  have hpaired : ∀ (method : Option Method) (f : Option PairedClient → Prog Op Ans Handled),
      f none = pure ⟨.error .notRegistered, "n/a", none⟩ →
      (∀ client, f (some client) = handlePaired K S client req method) →
      Twins otherTokens (HandledAlike req.method) (verifyToken token₁ >>= f)
        (verifyToken token₂ >>= f) := by
    intro method f hnone hsome
    refine Twins.bind hverify fun found _ hfound => ?_
    cases hfound
    cases found with
    | none =>
        rw [hnone]
        exact handledAlike_self _
    | some client =>
        rw [hsome]
        unfold handlePaired
        cases method.any Method.isDeferred with
        | true => exact handledAlike_self _
        | false =>
            refine Twins.bind (p := (serve K S client req method).run)
              (q := (serve K S client req method).run) (oblivious_paired client req method)
              fun r₁ r₂ hr => ?_
            cases hr
            exact handledAlike_self _
  unfold handle
  cases hmethod : Method.ofString req.method with
  | none => exact hpaired none _ rfl fun _ => rfl
  | some m =>
      cases m with
      | supportedWalletApi | supportedSpecs => exact handledAlike_self _
      | requestPairing =>
          have hname : req.method = "companion_requestPairing" :=
            (Method.wire_of_ofString hmethod).symm
          refine Twins.bind (p := (handlePairing req.params).run) (q := (handlePairing req.params).run)
            (twins_handlePairing req.params) fun r₁ r₂ hr => ?_
          cases r₁ with
          | ok v₁ =>
              cases r₂ with
              | ok v₂ => exact ⟨rfl, rfl, .inr ⟨hname, v₁, v₂, rfl, rfl⟩⟩
              | error e => exact hr.elim
          | error e =>
              cases r₂ with
              | ok v => exact hr.elim
              | error e' =>
                  cases hr
                  exact handledAlike_self _
      | getPermissions =>
          refine Twins.bind hverify fun found _ hfound => ?_
          cases hfound
          exact handledAlike_self _
      | getStatus =>
          refine Twins.bind (Q := Eq) ?_ fun grant _ hgrant => ?_
          · refine Twins.bind hverify fun found _ hfound => ?_
            cases hfound
            cases found with
            | none => exact rfl
            | some c => exact ⟨rfl, fun now now' h => by rw [eq_of_heq h]; exact rfl⟩
          · cases hgrant
            exact ⟨rfl, fun s₁ s₂ h => by rw [eq_of_heq h]; exact handledAlike_self _⟩
      | _ => exact hpaired _ _ rfl fun _ => rfl

/-- A row that keeps no payloads keeps no token. -/
theorem rowsOf_sansToken {w : World} (hw : w.fullPayloads = false) (op : Op) :
    rowsOf w (sansToken op) = rowsOf w op := by
  cases op with
  | record e =>
      show [w.recorded (sansResult e)] = [w.recorded e]
      unfold World.recorded sansResult
      rw [hw]
      by_cases hm : e.method = "companion_requestPairing"
      · rw [if_pos hm]; rfl
      · rw [if_neg hm]
  | _ => rfl

theorem twins_dispatch_tokens {token₁ token₂ : Option String}
    (ht : token₁.isSome = token₂.isSome) (req : Request) :
    Twins otherTokens (fun _ _ => True) (dispatch K S token₁ req) (dispatch K S token₂ req) := by
  refine ⟨rfl, fun _ _ _ => ?_⟩
  refine Twins.bind (p := handle K S token₁ req) (q := handle K S token₂ req)
    (twins_handle_tokens ht req) fun h₁ h₂ hh => ?_
  refine ⟨rfl, fun s₁ s₂ hs => ⟨rfl, fun now₁ now₂ hnow => ⟨rfl, fun l₁ l₂ hl => ?_⟩⟩⟩
  cases eq_of_heq hs
  cases eq_of_heq hnow
  cases eq_of_heq hl
  refine ⟨?_, fun _ _ _ => ?_⟩
  · show Op.record (sansResult _) = Op.record (sansResult _)
    rw [hh.client, hh.decision]
    rcases hh.result with hr | ⟨hm, v₁, v₂, hv₁, hv₂⟩
    · rw [hr]
    · rw [hv₁, hv₂]
      unfold sansResult
      rw [if_pos hm, if_pos hm]
      rfl
  · cases h₁.result <;> cases h₂.result <;> trivial

/-- Two runs of one request, with other tokens presented and issued, do the same but for the token
looked up and the result column of a pairing; without full payloads they write the same rows. -/
theorem tokens_blind {token₁ token₂ : Option String} (ht : token₁.isSome = token₂.isSome)
    {req : Request} {tr₁ tr₂ : Trace} {rest₁ rest₂ : Prog Op Ans Response}
    (hrun₁ : Follows (dispatch K S token₁ req) tr₁ rest₁)
    (hrun₂ : Follows (dispatch K S token₂ req) tr₂ rest₂) (hin : InStep otherTokens tr₁ tr₂)
    (hstop : StopAlike tr₁ tr₂ rest₁ rest₂) :
    (tr₁.map (fun e => sansToken e.1) = tr₂.map fun e => sansToken e.1) ∧
      ∀ w : World, w.fullPayloads = false →
        tr₁.flatMap (fun e => rowsOf w e.1) = tr₂.flatMap fun e => rowsOf w e.1 := by
  obtain ⟨hall, -⟩ := (twins_dispatch_tokens ht req).follows hrun₁ hrun₂ hin hstop
  have hops : tr₁.map (fun e => sansToken e.1) = tr₂.map fun e => sansToken e.1 :=
    List.forall₂_eq_eq_eq ▸ List.rel_map (fun _ _ h => h.1) hall
  refine ⟨hops, fun w hw => ?_⟩
  have hrows : ∀ tr : Trace, tr.flatMap (fun e => rowsOf w e.1) =
      (tr.map fun e => sansToken e.1).flatMap (rowsOf w) := by
    intro tr
    rw [List.flatMap_map]
    exact List.flatMap_congr fun e _ => (rowsOf_sansToken hw e.1).symm
  rw [hrows, hrows, hops]

end

/-! ## An example -/

/-- A server that pairs whoever asks, with one token. -/
def issuing (token : String) : (op : Op) → Option (Ans op)
  | .touchActivity | .clock _ | .elapsed => some 0
  | .requestApproval _ => some .approve
  | .pair _ _ => some ("client-0000000000000001", token)
  | .session => some ⟨.sepolia, none⟩
  | .record _ => some true
  | _ => none

def pairingRequest : Request where
  id := .int 1
  method := "companion_requestPairing"
  params := .obj [("name", .str "bot"), ("kind", .str "agent")]

/-- Nothing else hides a token. -/
theorem eq_of_sansToken {op op' : Op} (h : sansToken op = sansToken op')
    (hverify : ∀ t, op ≠ .verify t) (hrecord : ∀ e, op ≠ .record e) : op = op' := by
  have hop : sansToken op = op := by
    cases op with
    | verify t => exact absurd rfl (hverify t)
    | record e => exact absurd rfl (hrecord e)
    | _ => rfl
  rw [hop] at h
  cases op' with
  | verify t => exact absurd h (hverify "")
  | record e => exact absurd h (hrecord _)
  | _ => exact h

theorem issuing_alike (op₁ op₂ : Op) (a₁ : Ans op₁) (a₂ : Ans op₂)
    (h₁ : issuing "t1" op₁ = some a₁) (h₂ : issuing "t2" op₂ = some a₂)
    (hop : sansToken op₁ = sansToken op₂) : otherTokens.ans op₁ a₁ op₂ a₂ := by
  cases op₁ with
  | record e₁ =>
      cases op₂ with
      | record e₂ =>
          cases h₁
          cases h₂
          exact .rfl
      | _ => cases hop
  | pair label kind =>
      cases eq_of_sansToken hop (fun _ => nofun) fun _ => nofun
      cases h₁
      cases h₂
      exact rfl
  | touchActivity | clock | elapsed | requestApproval | session =>
      cases eq_of_sansToken hop (fun _ => nofun) fun _ => nofun
      cases h₁
      cases h₂
      exact .rfl
  | _ => cases h₁

/-- One pairing with two tokens to issue: one list of operations, one row. -/
theorem pairingRequest_blind :
    let tr₁ := replay (issuing "t1") (dispatch plainCrates plainSetup none pairingRequest)
    let tr₂ := replay (issuing "t2") (dispatch plainCrates plainSetup none pairingRequest)
    (tr₁.map (fun e => sansToken e.1) = tr₂.map fun e => sansToken e.1) ∧
      ∀ w : World, w.fullPayloads = false →
        tr₁.flatMap (fun e => rowsOf w e.1) = tr₂.flatMap fun e => rowsOf w e.1 := by
  intro tr₁ tr₂
  obtain ⟨r₁, h₁⟩ := Option.isSome_iff_exists.1 (by decide +kernel : (answered (issuing "t1")
    (dispatch plainCrates plainSetup none pairingRequest)).isSome = true)
  obtain ⟨r₂, h₂⟩ := Option.isSome_iff_exists.1 (by decide +kernel : (answered (issuing "t2")
    (dispatch plainCrates plainSetup none pairingRequest)).isSome = true)
  have hin : InStep otherTokens tr₁ tr₂ := inStep_of_mem fun e₁ he₁ e₂ he₂ hop =>
    issuing_alike e₁.1 e₂.1 e₁.2 e₂.2
      (forall_mem_replay (P := fun op a => issuing "t1" op = some a) (fun _ _ h => h) _ _ he₁)
      (forall_mem_replay (P := fun op a => issuing "t2" op = some a) (fun _ _ h => h) _ _ he₂) hop
  exact tokens_blind rfl (follows_replay h₁) (follows_replay h₂) hin
    (.inr ⟨⟨r₁, rfl⟩, r₂, rfl⟩)

end Strkd.Service
