import Strkd.Rpc.ClientFile

/-!
# Runs of the client store

The history of a run says who was paired, which tokens were issued to whom, which grants were set
and who was revoked.  Where the writes go through, the store is what its history says: each client
that was paired and not revoked since, with the last grant and the last token.
-/

namespace Strkd.Rpc

open Wallet (Crates)

/-! ## Histories -/

/-- A change to the clients. -/
inductive Change where
  | paired (id label : String) (kind : ClientKind)
  | issued (id token : String)
  | granted (id : String) (untilMs : Option U64)
  | revoked (id : String)
  deriving DecidableEq, Repr

namespace Change

/-- The token a change issues to a client. -/
def tokenOf (id : String) : Change → Option String
  | issued i token => if i = id then some token else none
  | _ => none

/-- The grant a change gives a client. -/
def grantOf (id : String) : Change → Option (Option U64)
  | granted i untilMs => if i = id then some untilMs else none
  | _ => none

/-- Who a change pairs. -/
def pairing : Change → Option (String × String × ClientKind)
  | paired id label kind => some (id, label, kind)
  | _ => none

/-- The token a change issues, to anyone. -/
def token : Change → Option String
  | issued _ t => some t
  | _ => none

/-- Whom a change is about. -/
def about : Change → String
  | paired id _ _ | issued id _ | granted id _ | revoked id => id

end Change

abbrev History := List Change

namespace History

variable (h : History) (id : String)

/-- The token issued last to a client. -/
def lastToken : Option String := (h.filterMap (Change.tokenOf id)).getLast?

/-- The grant set last for a client, none if none was. -/
def lastGrant : Option U64 := ((h.filterMap (Change.grantOf id)).getLast?).join

/-- The clients that were paired, with their names and kinds, in the order they were. -/
def pairings : List (String × String × ClientKind) := h.filterMap Change.pairing

/-- The clients that were paired and not revoked. -/
def alive : List (String × String × ClientKind) :=
  h.pairings.filter fun p => Change.revoked p.1 ∉ h

def isAlive : Bool := h.alive.any fun p => p.1 = id

/-- The first client alive with a name and a kind. -/
def firstNamed (name : String) (kind : ClientKind) : Option String :=
  (h.alive.find? fun p => p.2.1 = name ∧ p.2.2 = kind).map Prod.fst

/-- The changes an operation makes after a history. -/
def changesOf : StoreOp → List Change
  | .pair label kind id token => [.paired id label kind, .issued id token]
  | .reattach name kind token => ((h.firstNamed name kind).map fun id => .issued id token).toList
  | .grant id untilMs => if h.isAlive id then [.granted id (some untilMs)] else []
  | .revokeGrant id => if h.isAlive id then [.granted id none] else []
  | .revoke id => if h.isAlive id then [.revoked id] else []
  | .restart => []

end History

/-- The history of a run. -/
def history (ops : List StoreOp) : History := ops.foldl (fun h op => h ++ h.changesOf op) []

theorem history_concat (ops : List StoreOp) (op : StoreOp) :
    history (ops ++ [op]) = history ops ++ (history ops).changesOf op := List.foldl_concat ..

/-- The ids and the tokens that the operations of a run draw. -/
def StoreOp.drawnId : StoreOp → Option String
  | .pair _ _ id _ => some id
  | _ => none

def StoreOp.drawnToken : StoreOp → Option String
  | .pair _ _ _ token | .reattach _ _ token => some token
  | _ => none

/-! ## What a history says of the store -/

namespace History

variable (K : Crates)

/-- A client as a history has it. -/
def clientOf (h : History) (p : String × String × ClientKind) : PairedClient where
  id := p.1
  label := p.2.1
  kind := p.2.2
  grantedUntil := h.lastGrant p.1
  tokenHash := K.sha256Hex ((h.lastToken p.1).getD "")

/-- The store as a history has it. -/
def view (h : History) : ClientStore := h.alive.map (h.clientOf K)

section Append

variable {K} {h : History} {id : String}

theorem lastToken_append (c : Change) :
    lastToken (h ++ [c]) id = (c.tokenOf id).or (h.lastToken id) := by
  unfold lastToken
  rw [List.filterMap_append]
  cases hc : c.tokenOf id <;> simp [hc]

theorem lastGrant_append (c : Change) :
    lastGrant (h ++ [c]) id = ((c.grantOf id).getD (h.lastGrant id)) := by
  unfold lastGrant
  rw [List.filterMap_append]
  cases hc : c.grantOf id <;> simp [hc]

theorem alive_append_still {c : Change} (hp : c.pairing = none) (hr : ∀ id, c ≠ .revoked id) :
    alive (h ++ [c]) = h.alive := by
  unfold alive pairings
  rw [List.filterMap_append]
  simp only [List.filterMap_cons, hp, List.filterMap_nil, List.append_nil, List.mem_append,
    List.mem_singleton]
  refine List.filter_congr fun p _ => ?_
  simp [(hr p.1).symm]

theorem alive_append_revoked (i : String) :
    alive (h ++ [.revoked i]) = h.alive.filter fun p => p.1 ≠ i := by
  unfold alive pairings
  rw [List.filterMap_append, List.filter_filter]
  simp only [List.filterMap_cons, Change.pairing, List.filterMap_nil, List.append_nil,
    List.mem_append, List.mem_singleton, Change.revoked.injEq, not_or, Bool.decide_and]
  refine List.filter_congr fun p _ => ?_
  rw [Bool.and_comm]

theorem view_append_issued (i token : String) :
    view K (h ++ [.issued i token]) = (h.view K).map fun c =>
      if c.id = i then { c with tokenHash := K.sha256Hex token } else c := by
  unfold view
  rw [alive_append_still rfl (by simp), List.map_map]
  refine List.map_congr_left fun p _ => ?_
  by_cases hp : p.1 = i
  · simp [clientOf, lastToken_append, lastGrant_append, Change.tokenOf, Change.grantOf, hp]
  · simp [clientOf, lastToken_append, lastGrant_append, Change.tokenOf, Change.grantOf, hp,
      Ne.symm hp]

theorem view_append_granted (i : String) (g : Option U64) :
    view K (h ++ [.granted i g]) = (h.view K).map fun c =>
      if c.id = i then { c with grantedUntil := g } else c := by
  unfold view
  rw [alive_append_still rfl (by simp), List.map_map]
  refine List.map_congr_left fun p _ => ?_
  by_cases hp : p.1 = i
  · simp [clientOf, lastToken_append, lastGrant_append, Change.tokenOf, Change.grantOf, hp]
  · simp [clientOf, lastToken_append, lastGrant_append, Change.tokenOf, Change.grantOf, hp,
      Ne.symm hp]

theorem view_append_revoked (i : String) :
    view K (h ++ [.revoked i]) = (h.view K).filter fun c => c.id ≠ i := by
  unfold view
  rw [alive_append_revoked, List.filter_map]
  refine List.map_congr_left fun p _ => ?_
  simp [clientOf, lastToken_append, lastGrant_append, Change.tokenOf, Change.grantOf]

/-- A change about another client leaves what is known of this one. -/
theorem clientOf_append {c : Change} {p : String × String × ClientKind} (hc : c.about ≠ p.1) :
    clientOf K (h ++ [c]) p = h.clientOf K p := by
  have htoken : c.tokenOf p.1 = none := by
    cases c <;> simp_all [Change.tokenOf, Change.about]
  have hgrant : c.grantOf p.1 = none := by
    cases c <;> simp_all [Change.grantOf, Change.about]
  simp [clientOf, lastToken_append, lastGrant_append, htoken, hgrant]

/-- A client nothing was known of is added at the end. -/
theorem view_append_paired {id label token : String} {kind : ClientKind}
    (hfresh : ∀ c ∈ h, c.about ≠ id) :
    view K (h ++ [.paired id label kind, .issued id token]) =
      h.view K ++ [⟨id, label, kind, none, K.sha256Hex token⟩] := by
  have halive : alive (h ++ [.paired id label kind]) = h.alive ++ [(id, label, kind)] := by
    have hnot : Change.revoked id ∉ h := fun hmem => hfresh _ hmem rfl
    unfold alive pairings
    rw [List.filterMap_append, List.filter_append]
    simp [Change.pairing, hnot]
  have hgrant : h.lastGrant id = none := by
    have : h.filterMap (Change.grantOf id) = [] := by
      rw [List.filterMap_eq_nil_iff]
      intro c hc
      have := hfresh c hc
      cases c <;> simp_all [Change.grantOf, Change.about]
    simp [lastGrant, this]
  rw [List.append_cons, view_append_issued]
  unfold view
  rw [halive, List.map_append, List.map_append, List.map_map]
  refine congrArg₂ _ (List.map_congr_left fun p hp => ?_) ?_
  · have hne : p.1 ≠ id := by
      intro heq
      obtain ⟨c, hc, hpair⟩ := List.mem_filterMap.1 (List.mem_filter.1 hp).1
      refine hfresh c hc ?_
      cases c with
      | paired i label kind =>
          cases hpair
          exact heq
      | _ => cases hpair
    show (if p.1 = id then _ else clientOf K (h ++ [.paired id label kind]) p) = h.clientOf K p
    rw [if_neg hne]
    exact clientOf_append (Ne.symm hne)
  · simp [clientOf, lastGrant_append, Change.grantOf, hgrant]

end Append

/-! ## Coherent histories -/

/-- What the history of a run is: nobody is paired twice, changes are about clients that were
paired, a client that was paired has a token, and no token is issued twice. -/
structure Coherent (h : History) : Prop where
  ids : (h.pairings.map Prod.fst).Nodup
  about : ∀ c ∈ h, c.about ∈ h.pairings.map Prod.fst
  held : ∀ p ∈ h.pairings, ∃ token, h.lastToken p.1 = some token
  tokens : (h.filterMap Change.token).Nodup

section Coherent

variable {K} {h : History}

theorem Coherent.view_ids (hc : h.Coherent) : ((h.view K).map PairedClient.id).Nodup := by
  unfold view
  rw [List.map_map]
  exact (List.filter_sublist.map Prod.fst).nodup hc.ids

theorem lastToken_mem {id token : String} (ht : h.lastToken id = some token) :
    Change.issued id token ∈ h := by
  obtain ⟨c, hc, heq⟩ := List.mem_filterMap.1 (List.mem_of_getLast? ht)
  cases c with
  | issued i t =>
      simp only [Change.tokenOf] at heq
      split_ifs at heq with hi
      cases heq
      exact hi ▸ hc
  | _ => cases heq

/-- Nobody shares a token with another client. -/
theorem Coherent.owner (hc : h.Coherent) {id id' token : String} (hid : h.lastToken id = some token)
    (hid' : h.lastToken id' = some token) : id = id' := by
  by_contra hne
  let Apart : Change → Change → Prop := fun a b => ∀ x ∈ a.token, ∀ y ∈ b.token, x ≠ y
  have : Std.Symm Apart := ⟨fun a b hab x hx y hy => (hab y hy x hx).symm⟩
  have hpair : h.Pairwise Apart := List.pairwise_filterMap.1 hc.tokens
  have hdiff : Change.issued id token ≠ Change.issued id' token := by simp [hne]
  exact hpair.forall (lastToken_mem hid) (lastToken_mem hid') hdiff token rfl token rfl rfl

theorem has_view (id : String) : (h.view K).has id = h.isAlive id := by
  unfold ClientStore.has view isAlive
  rw [List.any_map]
  rfl

theorem findId_view (name : String) (kind : ClientKind) :
    (h.view K).findId name kind = h.firstNamed name kind := by
  unfold ClientStore.findId view firstNamed
  rw [List.find?_map, Option.map_map]
  rfl

end Coherent

end History

/-! ## The store follows its history -/

namespace ClientStore

variable {s : ClientStore} {p : PairedClient → Bool} {f : PairedClient → PairedClient}
variable {c : PairedClient}

theorem map_of_forall_ne {id : String} (h : ∀ d ∈ s, d.id ≠ id) :
    (s.map fun d => if d.id = id then f d else d) = s := by
  calc (s.map fun d => if d.id = id then f d else d)
      = s.map fun d => d := List.map_congr_left fun d hd => if_neg (h d hd)
    _ = s := List.map_id' s

/-- Where no id comes twice, changing the first client that satisfies `p` is changing the client
with its id. -/
theorem updateFirst_eq_map (hids : (s.map PairedClient.id).Nodup) (hfind : s.find? p = some c) :
    updateFirst p f s = s.map fun d => if d.id = c.id then f d else d := by
  induction s with
  | nil => cases hfind
  | cons d rest ih =>
      obtain ⟨hnot, hrest⟩ := List.nodup_cons.1 hids
      unfold updateFirst
      by_cases hp : p d = true
      · rw [List.find?_cons_of_pos hp, Option.some.injEq] at hfind
        subst hfind
        rw [if_pos hp, List.map_cons, if_pos rfl, map_of_forall_ne]
        exact fun e he heq => hnot (heq ▸ List.mem_map_of_mem he)
      · rw [List.find?_cons_of_neg hp] at hfind
        have hne : d.id ≠ c.id := fun heq =>
          hnot (heq ▸ List.mem_map_of_mem (List.mem_of_find?_eq_some hfind))
        rw [if_neg hp, List.map_cons, if_neg hne, ih hrest hfind]

/-- Where nothing before `c` satisfies `p`, it is `c` that changes. -/
theorem updateFirst_append {before after : ClientStore} (hbefore : ∀ d ∈ before, p d = false)
    (hp : p c = true) : updateFirst p f (before ++ c :: after) = before ++ f c :: after := by
  induction before with
  | nil => simp [updateFirst, hp]
  | cons d rest ih =>
      have hd := hbefore d List.mem_cons_self
      have hrest := ih fun e he => hbefore e (List.mem_cons_of_mem _ he)
      simp [updateFirst, hd, hrest]

theorem find_of_has {id : String} (h : s.has id = true) :
    ∃ c, s.find? (fun c => c.id = id) = some c ∧ c.id = id := by
  obtain ⟨d, hd, hid⟩ := List.any_eq_true.1 h
  cases hfind : s.find? fun c => c.id = id with
  | none => exact absurd hid (List.find?_eq_none.1 hfind d hd)
  | some c => exact ⟨c, rfl, by simpa using List.find?_some hfind⟩

end ClientStore

namespace StoredClients

open History

variable {K : Crates} {h : History} {s : StoredClients}

/-- One operation takes the store of a history to the store of the history with its changes. -/
theorem clients_apply_view (hc : h.Coherent) {op : StoreOp} (hclients : s.clients = h.view K)
    (hfile : ClientStore.load s.file = s.clients)
    (hfresh : ∀ id, op.drawnId = some id → ∀ c ∈ h, c.about ≠ id) (w : Write) :
    (s.apply K w op).clients = view K (h ++ h.changesOf op) := by
  have hids := hc.view_ids (K := K)
  rw [clients_apply]
  cases op with
  | pair label kind id token =>
      simp only [succeeds, changed, changesOf, if_true, hclients]
      exact (view_append_paired (hfresh id rfl)).symm
  | reattach name kind token =>
      simp only [succeeds, changed, changesOf, hclients]
      rw [← findId_view (K := K)]
      unfold ClientStore.findId ClientStore.reattach
      cases hfind : (h.view K).find? (ClientStore.named name kind) with
      | none => simp
      | some c =>
          rw [ClientStore.updateFirst_eq_map hids hfind]
          exact (view_append_issued c.id token).symm
  | grant id untilMs =>
      simp only [succeeds, changed, changesOf, hclients, has_view]
      by_cases hid : h.isAlive id = true
      · obtain ⟨c, hfind, hcid⟩ := ClientStore.find_of_has ((has_view (K := K) id).trans hid)
        rw [if_pos hid, if_pos hid, view_append_granted, ClientStore.grant,
          ClientStore.updateFirst_eq_map hids hfind, hcid]
      · simp [hid]
  | revokeGrant id =>
      simp only [succeeds, changed, changesOf, hclients, has_view]
      by_cases hid : h.isAlive id = true
      · obtain ⟨c, hfind, hcid⟩ := ClientStore.find_of_has ((has_view (K := K) id).trans hid)
        rw [if_pos hid, if_pos hid, view_append_granted, ClientStore.revokeGrant,
          ClientStore.updateFirst_eq_map hids hfind, hcid]
      · simp [hid]
  | revoke id =>
      simp only [succeeds, changed, changesOf, hclients, has_view]
      by_cases hid : h.isAlive id = true
      · rw [if_pos hid, if_pos hid, view_append_revoked, ClientStore.revoke]
      · simp [hid]
  | restart => simp [succeeds, changed, changesOf, hfile, hclients]

/-- Where every write goes through, the file holds the clients. -/
theorem load_apply (hfile : ClientStore.load s.file = s.clients) (op : StoreOp) :
    ClientStore.load (s.apply K .done op).file = (s.apply K .done op).clients := by
  cases op with
  | restart => rfl
  | _ =>
      unfold apply
      dsimp only
      split_ifs
      · exact ClientStore.load_toJson _
      · exact hfile

end StoredClients

/-! ## Histories of runs are coherent -/

namespace History

/-- What an operation adds to a history: a fresh client with its token, nothing, or a change about
a client that is alive. -/
theorem changesOf_cases (h : History) (op : StoreOp) :
    (∃ label kind id token, op = .pair label kind id token ∧
      h.changesOf op = [.paired id label kind, .issued id token]) ∨
    (op.drawnId = none ∧ h.changesOf op = []) ∨
    ∃ c, op.drawnId = none ∧ h.changesOf op = [c] ∧ c.pairing = none ∧
      c.about ∈ h.pairings.map Prod.fst ∧ ∀ t, c.token = some t → op.drawnToken = some t := by
  have halive : ∀ id, h.isAlive id = true → id ∈ h.pairings.map Prod.fst := by
    intro id hid
    obtain ⟨p, hp, hpid⟩ := List.any_eq_true.1 hid
    exact List.mem_map.2 ⟨p, (List.mem_filter.1 hp).1, of_decide_eq_true hpid⟩
  cases op with
  | pair label kind id token => exact Or.inl ⟨label, kind, id, token, rfl, rfl⟩
  | reattach name kind token =>
      right
      cases hfirst : h.firstNamed name kind with
      | none => exact Or.inl ⟨rfl, by simp [changesOf, hfirst]⟩
      | some id =>
          obtain ⟨p, hfind, rfl⟩ := Option.map_eq_some_iff.1 hfirst
          refine Or.inr ⟨.issued p.1 token, rfl, by simp [changesOf, hfirst], rfl, ?_, fun t ht => ht⟩
          exact List.mem_map_of_mem (List.mem_filter.1 (List.mem_of_find?_eq_some hfind)).1
  | grant id untilMs =>
      right
      by_cases hid : h.isAlive id = true
      · exact Or.inr ⟨.granted id (some untilMs), rfl, if_pos hid, rfl, halive id hid, nofun⟩
      · exact Or.inl ⟨rfl, if_neg hid⟩
  | revokeGrant id =>
      right
      by_cases hid : h.isAlive id = true
      · exact Or.inr ⟨.granted id none, rfl, if_pos hid, rfl, halive id hid, nofun⟩
      · exact Or.inl ⟨rfl, if_neg hid⟩
  | revoke id =>
      right
      by_cases hid : h.isAlive id = true
      · exact Or.inr ⟨.revoked id, rfl, if_pos hid, rfl, halive id hid, nofun⟩
      · exact Or.inl ⟨rfl, if_neg hid⟩
  | restart => exact Or.inr (Or.inl ⟨rfl, rfl⟩)

theorem pairings_append (h : History) (cs : List Change) :
    pairings (h ++ cs) = h.pairings ++ cs.filterMap Change.pairing := List.filterMap_append

/-- The clients paired are those whose ids were drawn. -/
theorem pairings_history (ops : List StoreOp) :
    (history ops).pairings.map Prod.fst = ops.filterMap StoreOp.drawnId := by
  induction ops using List.reverseRecOn with
  | nil => rfl
  | append_singleton ops op ih =>
      rw [history_concat, pairings_append, List.map_append, List.filterMap_append, ih]
      rcases (history ops).changesOf_cases op with
        ⟨label, kind, id, token, rfl, heq⟩ | ⟨hid, heq⟩ | ⟨c, hid, heq, hp, -, -⟩
      · simp [heq, Change.pairing, StoreOp.drawnId]
      · simp [heq, hid]
      · simp [heq, hid, hp]

/-- The tokens issued are among those drawn, in the order they were. -/
theorem tokens_history (ops : List StoreOp) :
    ((history ops).filterMap Change.token).Sublist (ops.filterMap StoreOp.drawnToken) := by
  induction ops using List.reverseRecOn with
  | nil => exact List.Sublist.refl _
  | append_singleton ops op ih =>
      rw [history_concat, List.filterMap_append, List.filterMap_append]
      refine ih.append ?_
      rcases (history ops).changesOf_cases op with
        ⟨label, kind, id, token, rfl, heq⟩ | ⟨hid, heq⟩ | ⟨c, hid, heq, -, -, htoken⟩
      · rw [heq]
        exact List.Sublist.refl [token]
      · simp [heq]
      · rw [heq]
        cases ht : c.token with
        | none => simp [ht]
        | some t => simp [ht, htoken t ht]

theorem about_history (ops : List StoreOp) :
    ∀ c ∈ history ops, c.about ∈ (history ops).pairings.map Prod.fst := by
  induction ops using List.reverseRecOn with
  | nil => exact fun _ hc => nomatch hc
  | append_singleton ops op ih =>
      intro c hc
      rw [history_concat] at hc ⊢
      rw [pairings_append, List.map_append]
      rcases List.mem_append.1 hc with hc | hc
      · exact List.mem_append_left _ (ih c hc)
      · rcases (history ops).changesOf_cases op with
          ⟨label, kind, id, token, rfl, heq⟩ | ⟨hid, heq⟩ | ⟨c', hid, heq, -, habout, -⟩
        · rw [heq] at hc ⊢
          refine List.mem_append_right _ ?_
          rcases List.mem_cons.1 hc with rfl | hc
          · simp [Change.pairing, Change.about]
          · simp [List.mem_singleton.1 hc, Change.pairing, Change.about]
        · rw [heq] at hc
          cases hc
        · rw [heq] at hc
          rw [List.mem_singleton.1 hc]
          exact List.mem_append_left _ habout

/-- A token once held stays held, or another one takes its place. -/
theorem held_append {h : History} {id token : String} (hheld : h.lastToken id = some token)
    (c : Change) : ∃ token, lastToken (h ++ [c]) id = some token := by
  rw [lastToken_append, hheld]
  cases c.tokenOf id with
  | none => exact ⟨token, rfl⟩
  | some t => exact ⟨t, rfl⟩

theorem held_history (ops : List StoreOp) :
    ∀ p ∈ (history ops).pairings, ∃ token, (history ops).lastToken p.1 = some token := by
  induction ops using List.reverseRecOn with
  | nil => exact fun _ hp => nomatch hp
  | append_singleton ops op ih =>
      intro p hp
      rw [history_concat] at hp ⊢
      rw [pairings_append] at hp
      rcases (history ops).changesOf_cases op with
        ⟨label, kind, id, token, rfl, heq⟩ | ⟨hid, heq⟩ | ⟨c, hid, heq, hpair, -, -⟩
      · rw [heq] at hp ⊢
        rw [List.append_cons]
        rcases List.mem_append.1 hp with hp | hp
        · obtain ⟨t, ht⟩ := ih p hp
          obtain ⟨t', ht'⟩ := held_append ht (.paired id label kind)
          exact held_append ht' _
        · have hpid : id = p.1 := by
            simp only [List.filterMap_cons, Change.pairing, List.filterMap_nil,
              List.mem_singleton] at hp
            rw [hp]
          exact ⟨token, by rw [lastToken_append]; simp [Change.tokenOf, hpid]⟩
      · simp only [heq, List.filterMap_nil, List.append_nil] at hp ⊢
        exact ih p hp
      · simp only [heq, List.filterMap_cons, hpair, List.filterMap_nil, List.append_nil] at hp ⊢
        obtain ⟨t, ht⟩ := ih p hp
        exact held_append ht c

theorem coherent_history {ops : List StoreOp} (hids : (ops.filterMap StoreOp.drawnId).Nodup)
    (htokens : (ops.filterMap StoreOp.drawnToken).Nodup) : (history ops).Coherent where
  ids := by rwa [pairings_history]
  about := about_history ops
  held := held_history ops
  tokens := (tokens_history ops).nodup htokens

end History

/-! ## The law of the store -/

section Law

variable {K : Crates}

/-- Operations whose writes go through. -/
def written (ops : List StoreOp) : List (StoreOp × Write) := ops.map fun op => (op, .done)

/-- The store of a run, started without a file. -/
def stored (K : Crates) (ops : List StoreOp) : StoredClients := StoredClients.run K {} (written ops)

theorem stored_concat (ops : List StoreOp) (op : StoreOp) :
    stored K (ops ++ [op]) = (stored K ops).apply K .done op := by
  unfold stored written
  rw [List.map_append, StoredClients.run_append]
  rfl

/-- The store reopened from its file is the store in memory. -/
theorem load_stored (ops : List StoreOp) :
    ClientStore.load (stored K ops).file = (stored K ops).clients := by
  induction ops using List.reverseRecOn with
  | nil => rfl
  | append_singleton ops op ih =>
      rw [stored_concat]
      exact StoredClients.load_apply ih op

/-- The store is what the history of its run says. -/
theorem clients_stored {ops : List StoreOp} (hids : (ops.filterMap StoreOp.drawnId).Nodup)
    (htokens : (ops.filterMap StoreOp.drawnToken).Nodup) :
    (stored K ops).clients = (history ops).view K := by
  induction ops using List.reverseRecOn with
  | nil => rfl
  | append_singleton ops op ih =>
      rw [List.filterMap_append] at hids htokens
      have hids' := (List.nodup_append.1 hids).1
      have htokens' := (List.nodup_append.1 htokens).1
      rw [stored_concat, history_concat]
      refine StoredClients.clients_apply_view (History.coherent_history hids' htokens')
        (ih hids' htokens') (load_stored ops) (fun id hid c hc heq => ?_) .done
      have hmem := History.about_history ops c hc
      rw [heq, History.pairings_history] at hmem
      exact (List.nodup_append.1 hids).2.2 id hmem id (by simp [hid]) rfl

/-- A client as a history has it: paired under its name and kind, not revoked, with the grant set
last and the token issued last. -/
structure Holds (K : Crates) (h : History) (c : PairedClient) (token : String) : Prop where
  paired : .paired c.id c.label c.kind ∈ h
  kept : .revoked c.id ∉ h
  issued : h.lastToken c.id = some token
  grant : c.grantedUntil = h.lastGrant c.id
  hash : c.tokenHash = K.sha256Hex token

theorem History.mem_alive {h : History} {p : String × String × ClientKind} :
    p ∈ h.alive ↔ .paired p.1 p.2.1 p.2.2 ∈ h ∧ .revoked p.1 ∉ h := by
  unfold History.alive History.pairings
  rw [List.mem_filter, List.mem_filterMap, decide_eq_true_eq]
  refine and_congr_left fun _ => ⟨?_, fun hp => ⟨_, hp, rfl⟩⟩
  rintro ⟨c, hc, hpair⟩
  cases c with
  | paired id label kind =>
      cases hpair
      exact hc
  | _ => cases hpair

/-- The clients of the store are those the history has, each with its token. -/
theorem History.mem_view {h : History} (hc : h.Coherent) {c : PairedClient} :
    c ∈ h.view K ↔ ∃ token, Holds K h c token := by
  constructor
  · intro hmem
    obtain ⟨p, hp, rfl⟩ := List.mem_map.1 hmem
    obtain ⟨token, ht⟩ := hc.held p (List.mem_filter.1 hp).1
    obtain ⟨hpaired, hkept⟩ := History.mem_alive.1 hp
    exact ⟨token, hpaired, hkept, ht, rfl, by simp [History.clientOf, ht]⟩
  · rintro ⟨token, hholds⟩
    refine List.mem_map.2 ⟨(c.id, c.label, c.kind), ?_, ?_⟩
    · exact History.mem_alive.2 ⟨hholds.paired, hholds.kept⟩
    · obtain ⟨id, label, kind, grantedUntil, tokenHash⟩ := c
      simp [History.clientOf, hholds.issued, ← hholds.grant, ← hholds.hash]

theorem verify_view {h : History} (hsha : Function.Injective K.sha256Hex) (hc : h.Coherent)
    {token : String} {c : PairedClient} :
    (h.view K).verify K token = some c ↔ Holds K h c token := by
  have howned : ∀ d ∈ h.view K, d.tokenHash = K.sha256Hex token → Holds K h d token := by
    intro d hd hhash
    obtain ⟨t, ht⟩ := (History.mem_view hc).1 hd
    rwa [hsha (hhash.symm.trans ht.hash)]
  constructor
  · intro hverify
    exact howned c (List.mem_of_find?_eq_some hverify) (by simpa using List.find?_some hverify)
  · intro hholds
    have hmem := (History.mem_view hc).2 ⟨token, hholds⟩
    unfold ClientStore.verify
    cases hfind : (h.view K).find? fun c => c.tokenHash = K.sha256Hex token with
    | none => exact absurd hholds.hash (by simpa using List.find?_eq_none.1 hfind c hmem)
    | some d =>
        have hd := List.mem_of_find?_eq_some hfind
        have hdholds := howned d hd (by simpa using List.find?_some hfind)
        have hid := hc.owner hdholds.issued hholds.issued
        rw [List.inj_on_of_nodup_map hc.view_ids hd hmem hid]

/-- What a re-attach does: nothing where nobody has the name and kind, and else it changes the token
of the first client that does. -/
theorem reattach_first (s : StoredClients) (name : String) (kind : ClientKind) (token : String) :
    (s.clients.findId name kind = none ∧ s.apply K .done (.reattach name kind token) = s) ∨
    ∃ before c after, s.clients = before ++ c :: after ∧ c.label = name ∧ c.kind = kind ∧
      (∀ d ∈ before, ¬ (d.label = name ∧ d.kind = kind)) ∧
      s.clients.findId name kind = some c.id ∧
      (s.apply K .done (.reattach name kind token)).clients =
        before ++ { c with tokenHash := K.sha256Hex token } :: after := by
  rw [StoredClients.clients_apply]
  cases hfind : s.clients.find? (ClientStore.named name kind) with
  | none =>
      left
      have hid : s.clients.findId name kind = none := by simp [ClientStore.findId, hfind]
      exact ⟨hid, by simp [StoredClients.apply, StoredClients.succeeds, hid]⟩
  | some c =>
      right
      have hid : s.clients.findId name kind = some c.id := by simp [ClientStore.findId, hfind]
      obtain ⟨hnamed, before, after, heq, hbefore⟩ := List.find?_eq_some_iff_append.1 hfind
      rw [heq] at hid ⊢
      refine ⟨before, c, after, rfl, ?_, ?_, fun d hd => ?_, hid, ?_⟩
      · exact (of_decide_eq_true hnamed).1
      · exact (of_decide_eq_true hnamed).2
      · rintro ⟨hlabel, hkind⟩
        have hd' := hbefore d hd
        simp [ClientStore.named, hlabel, hkind] at hd'
      · simp only [StoredClients.succeeds, StoredClients.changed, heq, hid, Option.isSome_some, if_true]
        exact ClientStore.updateFirst_append (fun d hd => by simpa using hbefore d hd) hnamed

/-- In every run whose writes go through and whose draws are fresh, a token is verified for the
client it was issued to last, unless that client was revoked; the client has the name, kind and grant
of its history; a re-attach changes one token; and the store reopened is the store in memory. -/
theorem client_store_refines (hsha : Function.Injective K.sha256Hex) (ops : List StoreOp)
    (hids : (ops.filterMap StoreOp.drawnId).Nodup)
    (htokens : (ops.filterMap StoreOp.drawnToken).Nodup) :
    (∀ token c, (stored K ops).clients.verify K token = some c ↔ Holds K (history ops) c token) ∧
    (∀ name kind token,
      ((stored K ops).clients.findId name kind = none ∧
        (stored K ops).apply K .done (.reattach name kind token) = stored K ops) ∨
      ∃ before c after, (stored K ops).clients = before ++ c :: after ∧ c.label = name ∧
        c.kind = kind ∧ (∀ d ∈ before, ¬ (d.label = name ∧ d.kind = kind)) ∧
        (stored K ops).clients.findId name kind = some c.id ∧
        ((stored K ops).apply K .done (.reattach name kind token)).clients =
          before ++ { c with tokenHash := K.sha256Hex token } :: after) ∧
    ClientStore.load (stored K ops).file = (stored K ops).clients := by
  refine ⟨fun token c => ?_, fun name kind token => reattach_first _ name kind token,
    load_stored ops⟩
  rw [clients_stored hids htokens]
  exact verify_view hsha (History.coherent_history hids htokens)

/-- An agent that was paired, granted, re-attached and found again after a restart. -/
theorem client_store_refines_bot :
    let ops : List StoreOp := [.pair "bot" .agent "client-1" "t1", .grant "client-1" 9,
      .reattach "bot" .agent "t2", .restart]
    (stored Wallet.plainCrates ops).clients.verify Wallet.plainCrates "t2" =
        some ⟨"client-1", "bot", .agent, some 9, "t2"⟩ ∧
      (stored Wallet.plainCrates ops).clients.verify Wallet.plainCrates "t1" = none := by
  have hlaw := client_store_refines (K := Wallet.plainCrates) (fun _ _ h => h)
    [.pair "bot" .agent "client-1" "t1", .grant "client-1" 9, .reattach "bot" .agent "t2", .restart]
    (by decide) (by decide)
  refine ⟨(hlaw.1 "t2" _).2 ⟨by decide, by decide, by decide, by decide, rfl⟩, ?_⟩
  decide +kernel

end Law

end Strkd.Rpc
