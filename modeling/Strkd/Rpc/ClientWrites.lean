import Strkd.Rpc.ClientRuns

/-!
# Revocations and the writes they need

A revocation takes effect in memory whatever becomes of its write.  It outlives a restart if its
write, or the write of a later operation before that restart, goes through; and then it lasts, no
matter how the writes after it go.
-/

namespace Strkd.Rpc

open Wallet (Crates)

namespace StoredClients

variable {K : Crates} {P : PairedClient → Prop} {s : StoredClients}

/-! ## What stays gone -/

/-- No client in memory satisfies `P`. -/
def Clean (P : PairedClient → Prop) (s : StoredClients) : Prop := ∀ c ∈ s.clients, ¬ P c

/-- No client in memory or in the file satisfies `P`. -/
def Gone (P : PairedClient → Prop) (s : StoredClients) : Prop :=
  Clean P s ∧ ∀ c ∈ ClientStore.load s.file, ¬ P c

/-- An operation that makes no client satisfy `P` where none does. -/
def Keeps (K : Crates) (P : PairedClient → Prop) (op : StoreOp) : Prop :=
  op = .restart ∨ ∀ s : StoredClients, Clean P s → ∀ c ∈ s.changed K op, ¬ P c

/-- Whether the write of one of the first operations, before a restart, goes through. -/
def Saves (K : Crates) : StoredClients → List (StoreOp × Write) → Prop
  | _, [] => False
  | s, (op, w) :: rest =>
      op ≠ .restart ∧ ((s.succeeds op = true ∧ w = .done) ∨ Saves K (s.apply K w op) rest)

theorem Clean.apply (h : Clean P s) {op : StoreOp} (hop : op ≠ .restart) (hk : Keeps K P op)
    (w : Write) : Clean P (s.apply K w op) := by
  intro c hc
  rw [clients_apply] at hc
  split_ifs at hc
  · exact (hk.resolve_left hop) s h c hc
  · exact h c hc

theorem file_apply {op : StoreOp} (w : Write) (s : StoredClients) :
    (op ≠ .restart ∧ s.succeeds op = true ∧ w = .done ∧
      ClientStore.load (s.apply K w op).file = (s.apply K w op).clients) ∨
    (s.apply K w op).file = s.file := by
  cases op with
  | restart => exact Or.inr rfl
  | _ =>
      unfold apply
      dsimp only
      split_ifs with hsucc
      · rcases load_persist w { s with clients := s.changed K _ } with ⟨hw, hload⟩ | hfile
        · exact Or.inl ⟨by simp, hsucc, hw, hload.trans (clients_persist _ _).symm⟩
        · exact Or.inr hfile
      · exact Or.inr rfl

/-- What is gone stays gone, however the write goes. -/
theorem Gone.apply (h : Gone P s) {op : StoreOp} (hk : Keeps K P op) (w : Write) :
    Gone P (s.apply K w op) := by
  have hclean : Clean P (s.apply K w op) := by
    by_cases hop : op = .restart
    · subst hop
      exact h.2
    · exact h.1.apply hop hk w
  refine ⟨hclean, ?_⟩
  rcases @file_apply K op w s with ⟨-, -, -, hload⟩ | hfile
  · rw [hload]
    exact hclean
  · rw [hfile]
    exact h.2

theorem Gone.run {steps : List (StoreOp × Write)} (h : Gone P s)
    (hk : ∀ x ∈ steps, Keeps K P x.1) : Gone P (s.run K steps) := by
  induction steps generalizing s with
  | nil => exact h
  | cons x rest ih =>
      rw [run_cons]
      refine ih (h.apply (hk x List.mem_cons_self) x.2) fun y hy => ?_
      exact hk y (List.mem_cons_of_mem _ hy)

/-- A write that goes through takes to the file what is clean in memory. -/
theorem gone_of_done {op : StoreOp} (hclean : Clean P (s.apply K .done op)) (hop : op ≠ .restart)
    (hsucc : s.succeeds op = true) : Gone P (s.apply K .done op) := by
  refine ⟨hclean, ?_⟩
  have hload : ClientStore.load (s.apply K .done op).file = (s.apply K .done op).clients := by
    cases op with
    | restart => exact absurd rfl hop
    | _ =>
        unfold StoredClients.apply
        dsimp only
        rw [if_pos hsucc]
        exact ClientStore.load_toJson _
  rw [hload]
  exact hclean

/-- From a clean memory, a run one of whose first writes goes through leaves nothing. -/
theorem Clean.run {steps : List (StoreOp × Write)} (h : Clean P s) (hsaves : Saves K s steps)
    (hk : ∀ x ∈ steps, Keeps K P x.1) : Gone P (s.run K steps) := by
  induction steps generalizing s with
  | nil => exact hsaves.elim
  | cons x rest ih =>
      obtain ⟨op, w⟩ := x
      obtain ⟨hop, hsaves⟩ := hsaves
      have hkop := hk _ List.mem_cons_self
      have hrest : ∀ y ∈ rest, Keeps K P y.1 := fun y hy => hk y (List.mem_cons_of_mem _ hy)
      have hclean := h.apply hop hkop w
      rw [run_cons]
      rcases hsaves with ⟨hsucc, rfl⟩ | hsaves
      · exact (gone_of_done hclean hop hsucc).run hrest
      · exact ih hclean hsaves hrest

/-- An operation that cleans the memory, in a run one of whose first writes goes through. -/
theorem gone_of_saves {op : StoreOp} {w : Write} {later : List (StoreOp × Write)}
    (hclean : Clean P (s.apply K w op)) (hsaves : Saves K s ((op, w) :: later))
    (hk : ∀ x ∈ later, Keeps K P x.1) : Gone P (s.run K ((op, w) :: later)) := by
  rw [run_cons]
  obtain ⟨hop, ⟨hsucc, rfl⟩ | hsaves⟩ := hsaves
  · exact (gone_of_done hclean hop hsucc).run hk
  · exact hclean.run hsaves hk

end StoredClients

/-! ## Tokens and their owners -/

namespace ClientStore

variable {p : PairedClient → Bool} {f : PairedClient → PairedClient} {s : ClientStore}

theorem mem_updateFirst {c : PairedClient} (h : c ∈ updateFirst p f s) :
    c ∈ s ∨ ∃ d, s.find? p = some d ∧ c = f d := by
  induction s with
  | nil => cases h
  | cons d rest ih =>
      unfold updateFirst at h
      by_cases hp : p d = true
      · rw [if_pos hp] at h
        rw [List.find?_cons_of_pos hp]
        rcases List.mem_cons.1 h with rfl | h
        · exact Or.inr ⟨d, rfl, rfl⟩
        · exact Or.inl (List.mem_cons_of_mem _ h)
      · rw [if_neg hp] at h
        rw [List.find?_cons_of_neg hp]
        rcases List.mem_cons.1 h with rfl | h
        · exact Or.inl List.mem_cons_self
        · exact (ih h).imp_left fun hc => List.mem_cons_of_mem _ hc

theorem map_id_updateFirst (hf : ∀ c, (f c).id = c.id) :
    (updateFirst p f s).map PairedClient.id = s.map PairedClient.id := by
  induction s with
  | nil => rfl
  | cons d rest ih =>
      unfold updateFirst
      split_ifs <;> simp [hf, ih]

/-- No id comes twice, and every client's token was issued to it. -/
structure Vouched (K : Crates) (issued : List (String × String)) (s : ClientStore) : Prop where
  ids : (s.map PairedClient.id).Nodup
  tokens : ∀ c ∈ s, ∃ t, (c.id, t) ∈ issued ∧ c.tokenHash = K.sha256Hex t

variable {K : Crates} {issued issued' : List (String × String)}

theorem Vouched.mono (h : Vouched K issued s) (hsub : issued ⊆ issued') : Vouched K issued' s :=
  ⟨h.ids, fun c hc => (h.tokens c hc).imp fun _ ht => ⟨hsub ht.1, ht.2⟩⟩

/-- A change of one client that leaves its id alone, and gives it a token of its own if any. -/
theorem Vouched.updateFirst (h : Vouched K issued s) (hid : ∀ c, (f c).id = c.id)
    (hf : ∀ c, s.find? p = some c → ∃ t, (c.id, t) ∈ issued ∧ (f c).tokenHash = K.sha256Hex t) :
    Vouched K issued (updateFirst p f s) := by
  refine ⟨(map_id_updateFirst hid).symm ▸ h.ids, fun c hc => ?_⟩
  rcases mem_updateFirst hc with hc | ⟨d, hd, rfl⟩
  · exact h.tokens c hc
  · rw [hid]
    exact hf d hd

/-- Where each token was issued once, two clients with one token are one client. -/
theorem Vouched.eq_of_token (h : Vouched K issued s) (hsha : Function.Injective K.sha256Hex)
    (honce : (issued.map Prod.snd).Nodup) {c d : PairedClient} (hc : c ∈ s) (hd : d ∈ s)
    (heq : c.tokenHash = d.tokenHash) : c = d := by
  obtain ⟨t, ht, hct⟩ := h.tokens c hc
  obtain ⟨u, hu, hdu⟩ := h.tokens d hd
  have htu : t = u := hsha (hct.symm.trans (heq.trans hdu))
  subst htu
  have hpair := List.inj_on_of_nodup_map honce ht hu rfl
  exact List.inj_on_of_nodup_map h.ids hc hd (Prod.ext_iff.1 hpair).1

end ClientStore

namespace StoredClients

variable {K : Crates} {s : StoredClients}

/-- What an operation issues, and to whom. -/
def issues (s : StoredClients) : StoreOp → List (String × String)
  | .pair _ _ id token => [(id, token)]
  | .reattach name kind token => ((s.clients.findId name kind).map fun id => (id, token)).toList
  | _ => []

/-- The clients in memory and in the file are accounted for by what was issued. -/
structure Accounted (K : Crates) (issued : List (String × String)) (s : StoredClients) : Prop where
  memory : s.clients.Vouched K issued
  file : (ClientStore.load s.file).Vouched K issued

theorem vouched_changed {issued : List (String × String)} (h : Accounted K issued s) {op : StoreOp}
    (hfresh : ∀ id, op.drawnId = some id → ∀ e ∈ issued, e.1 ≠ id) :
    (s.changed K op).Vouched K (issued ++ s.issues op) := by
  have hold := h.memory.mono (List.subset_append_left issued (s.issues op))
  have hsame : ∀ (p : PairedClient → Bool) (f : PairedClient → PairedClient),
      (∀ c, (f c).id = c.id) → (∀ c, (f c).tokenHash = c.tokenHash) →
      (ClientStore.updateFirst p f s.clients).Vouched K (issued ++ s.issues op) :=
    fun p f hid htoken => hold.updateFirst hid fun c hc => by
      rw [htoken]
      exact hold.tokens c (List.mem_of_find?_eq_some hc)
  cases op with
  | pair label kind id token =>
      have hnot : id ∉ s.clients.map PairedClient.id := by
        intro hmem
        obtain ⟨c, hc, rfl⟩ := List.mem_map.1 hmem
        obtain ⟨t, ht, -⟩ := h.memory.tokens c hc
        exact hfresh _ rfl _ ht rfl
      refine ⟨?_, fun c hc => ?_⟩
      · show ((s.clients ++ [_]).map PairedClient.id).Nodup
        rw [List.map_append]
        exact List.nodup_append.2 ⟨h.memory.ids, List.nodup_singleton _, fun a ha b hb heq =>
          hnot (by rwa [heq, List.mem_singleton.1 hb] at ha)⟩
      · rcases List.mem_append.1 hc with hc | hc
        · exact hold.tokens c hc
        · rw [List.mem_singleton.1 hc]
          exact ⟨token, List.mem_append_right _ List.mem_cons_self, rfl⟩
  | reattach name kind token =>
      refine hold.updateFirst (fun _ => rfl) fun c hc => ⟨token, List.mem_append_right _ ?_, rfl⟩
      simp [issues, ClientStore.findId, hc]
  | grant id untilMs => exact hsame _ _ (fun _ => rfl) fun _ => rfl
  | revokeGrant id => exact hsame _ _ (fun _ => rfl) fun _ => rfl
  | revoke id =>
      exact ⟨(List.filter_sublist.map _).nodup hold.ids,
        fun c hc => hold.tokens c (List.mem_filter.1 hc).1⟩
  | restart => exact h.file.mono (List.subset_append_left issued _)

theorem Accounted.apply {issued : List (String × String)} (h : Accounted K issued s) {op : StoreOp}
    (hfresh : ∀ id, op.drawnId = some id → ∀ e ∈ issued, e.1 ≠ id) (w : Write) :
    Accounted K (issued ++ s.issues op) (s.apply K w op) := by
  have hsub := List.subset_append_left issued (s.issues op)
  have hmemory : (s.apply K w op).clients.Vouched K (issued ++ s.issues op) := by
    rw [clients_apply]
    split_ifs
    · exact vouched_changed h hfresh
    · exact h.memory.mono hsub
  refine ⟨hmemory, ?_⟩
  rcases @file_apply K op w s with ⟨-, -, -, hload⟩ | hfile
  · rwa [hload]
  · rw [hfile]
    exact h.file.mono hsub

/-- What the operations of a run issue. -/
def issuedBy (K : Crates) : StoredClients → List (StoreOp × Write) → List (String × String)
  | _, [] => []
  | s, (op, w) :: rest => s.issues op ++ issuedBy K (s.apply K w op) rest

theorem issuedBy_append (s : StoredClients) (xs ys : List (StoreOp × Write)) :
    issuedBy K s (xs ++ ys) = issuedBy K s xs ++ issuedBy K (s.run K xs) ys := by
  induction xs generalizing s with
  | nil => rfl
  | cons x rest ih =>
      rw [List.cons_append, run_cons]
      show s.issues x.1 ++ issuedBy K (s.apply K x.2 x.1) (rest ++ ys) =
        s.issues x.1 ++ issuedBy K (s.apply K x.2 x.1) rest ++ _
      rw [ih, List.append_assoc]

theorem issues_tokens (s : StoredClients) (op : StoreOp) :
    ((s.issues op).map Prod.snd).Sublist op.drawnToken.toList := by
  cases op with
  | pair label kind id token => exact List.Sublist.refl [token]
  | reattach name kind token =>
      cases hid : s.clients.findId name kind with
      | none => simp [issues, hid]
      | some id => simp [issues, hid, StoreOp.drawnToken]
  | _ => exact List.nil_sublist _

/-- The tokens issued are among those drawn, in the order they were. -/
theorem issuedBy_tokens (s : StoredClients) (steps : List (StoreOp × Write)) :
    ((issuedBy K s steps).map Prod.snd).Sublist (steps.filterMap fun x => x.1.drawnToken) := by
  induction steps generalizing s with
  | nil => exact List.Sublist.refl _
  | cons x rest ih =>
      obtain ⟨op, w⟩ := x
      have hop := issues_tokens s op
      unfold issuedBy
      rw [List.map_append, List.filterMap_cons]
      cases ht : op.drawnToken with
      | none =>
          rw [ht] at hop
          rw [List.sublist_nil.1 hop]
          exact ih _
      | some t =>
          rw [ht] at hop
          exact hop.append (ih _)

/-- What is issued goes to a client that is new, or one that was issued something before. -/
theorem Accounted.issues_known {issued : List (String × String)} (h : Accounted K issued s)
    (op : StoreOp) : ∀ e ∈ s.issues op, op.drawnId = some e.1 ∨ ∃ t, (e.1, t) ∈ issued := by
  intro e he
  cases op with
  | pair label kind id token =>
      rw [List.mem_singleton.1 he]
      exact Or.inl rfl
  | reattach name kind token =>
      cases hfind : s.clients.find? (ClientStore.named name kind) with
      | none => simp [issues, ClientStore.findId, hfind] at he
      | some c =>
          obtain ⟨t, ht, -⟩ := h.memory.tokens c (List.mem_of_find?_eq_some hfind)
          simp only [issues, ClientStore.findId, hfind, Option.map_some, Option.toList_some,
            List.mem_singleton] at he
          exact Or.inr ⟨t, by rw [he]; exact ht⟩
  | _ => cases he

/-- A run whose draws are fresh leaves its clients accounted for, by tokens issued to ids that were
drawn. -/
theorem accounted_run (steps : List (StoreOp × Write))
    (hids : (steps.filterMap fun x => x.1.drawnId).Nodup) :
    Accounted K (issuedBy K {} steps) (StoredClients.run K {} steps) ∧
      ∀ e ∈ issuedBy K {} steps, e.1 ∈ steps.filterMap fun x => x.1.drawnId := by
  induction steps using List.reverseRecOn with
  | nil => exact ⟨⟨⟨List.nodup_nil, nofun⟩, ⟨List.nodup_nil, nofun⟩⟩, nofun⟩
  | append_singleton steps x ih =>
      obtain ⟨op, w⟩ := x
      rw [List.filterMap_append] at hids ⊢
      obtain ⟨haccounted, hdrawn⟩ := ih (List.nodup_append.1 hids).1
      have hfresh : ∀ id, op.drawnId = some id → ∀ e ∈ issuedBy K {} steps, e.1 ≠ id := by
        intro id hid e he heq
        exact (List.nodup_append.1 hids).2.2 _ (hdrawn e he) id (by simp [hid]) heq
      rw [run_append, issuedBy_append]
      have happ := haccounted.apply hfresh w
      refine ⟨by simpa [issuedBy, StoredClients.run] using happ, fun e he => ?_⟩
      rcases List.mem_append.1 he with he | he
      · exact List.mem_append_left _ (hdrawn e he)
      · simp only [issuedBy, List.append_nil] at he
        rcases haccounted.issues_known op e he with hid | ⟨t, ht⟩
        · exact List.mem_append_right _ (by simp [hid])
        · exact List.mem_append_left _ (hdrawn (e.1, t) ht)

/-! ## What an operation can change -/

/-- A client after an operation: one that was there, a new one, or one that was changed. -/
theorem mem_changed {op : StoreOp} (hop : op ≠ .restart) {c : PairedClient}
    (h : c ∈ s.changed K op) :
    c ∈ s.clients ∨
    (∃ label kind id token, op = .pair label kind id token ∧
      c = ⟨id, label, kind, none, K.sha256Hex token⟩) ∨
    ∃ d ∈ s.clients,
      (∃ name kind token, op = .reattach name kind token ∧
        c = { d with tokenHash := K.sha256Hex token }) ∨
      (∃ untilMs, op = .grant d.id untilMs ∧ c = { d with grantedUntil := some untilMs }) ∨
      (op = .revokeGrant d.id ∧ c = { d with grantedUntil := none }) := by
  cases op with
  | pair label kind id token =>
      rcases List.mem_append.1 h with h | h
      · exact Or.inl h
      · exact Or.inr (Or.inl ⟨label, kind, id, token, rfl, List.mem_singleton.1 h⟩)
  | reattach name kind token =>
      rcases ClientStore.mem_updateFirst h with h | ⟨d, hd, rfl⟩
      · exact Or.inl h
      · exact Or.inr (Or.inr ⟨d, List.mem_of_find?_eq_some hd, Or.inl ⟨name, kind, token, rfl, rfl⟩⟩)
  | grant id untilMs =>
      rcases ClientStore.mem_updateFirst h with h | ⟨d, hd, rfl⟩
      · exact Or.inl h
      · have hid : d.id = id := by simpa using List.find?_some hd
        exact Or.inr (Or.inr ⟨d, List.mem_of_find?_eq_some hd,
          Or.inr (Or.inl ⟨untilMs, by rw [hid], rfl⟩)⟩)
  | revokeGrant id =>
      rcases ClientStore.mem_updateFirst h with h | ⟨d, hd, rfl⟩
      · exact Or.inl h
      · have hid : d.id = id := by simpa using List.find?_some hd
        exact Or.inr (Or.inr ⟨d, List.mem_of_find?_eq_some hd,
          Or.inr (Or.inr ⟨by rw [hid], rfl⟩)⟩)
  | revoke id => exact Or.inl (List.mem_filter.1 h).1
  | restart => exact absurd rfl hop

/-- Only a pairing that draws its id brings a client with that id. -/
theorem keeps_id {id : String} {op : StoreOp} (h : op.drawnId ≠ some id) :
    Keeps K (fun c => c.id = id) op := by
  by_cases hop : op = .restart
  · exact Or.inl hop
  refine Or.inr fun s hclean c hc hid => ?_
  rcases mem_changed hop hc with hc | ⟨label, kind, i, token, rfl, rfl⟩ | ⟨d, hd, hc⟩
  · exact hclean c hc hid
  · exact h (congrArg some hid)
  · rcases hc with ⟨_, _, _, -, rfl⟩ | ⟨_, -, rfl⟩ | ⟨-, rfl⟩ <;> exact hclean d hd hid

/-- Only a grant to a client gives it a grant. -/
theorem keeps_grant {id : String} {op : StoreOp} (h : ∀ untilMs, op ≠ .grant id untilMs) :
    Keeps K (fun c => c.id = id ∧ c.grantedUntil ≠ none) op := by
  by_cases hop : op = .restart
  · exact Or.inl hop
  refine Or.inr fun s hclean c hc ⟨hid, hgrant⟩ => ?_
  rcases mem_changed hop hc with hc | ⟨label, kind, i, token, rfl, rfl⟩ | ⟨d, hd, hc⟩
  · exact hclean c hc ⟨hid, hgrant⟩
  · exact hgrant rfl
  · rcases hc with ⟨_, _, _, -, rfl⟩ | ⟨untilMs, rfl, rfl⟩ | ⟨-, rfl⟩
    · exact hclean d hd ⟨hid, hgrant⟩
    · exact h untilMs (by rw [← hid])
    · exact hgrant rfl

/-- Only an operation that draws a token makes it verify. -/
theorem keeps_token (hsha : Function.Injective K.sha256Hex) {token : String} {op : StoreOp}
    (h : op.drawnToken ≠ some token) : Keeps K (fun c => c.tokenHash = K.sha256Hex token) op := by
  by_cases hop : op = .restart
  · exact Or.inl hop
  refine Or.inr fun s hclean c hc hhash => ?_
  rcases mem_changed hop hc with hc | ⟨label, kind, i, t, rfl, rfl⟩ | ⟨d, hd, hc⟩
  · exact hclean c hc hhash
  · exact h (congrArg some (hsha hhash))
  · rcases hc with ⟨name, kind, t, rfl, rfl⟩ | ⟨_, -, rfl⟩ | ⟨-, rfl⟩
    · exact h (congrArg some (hsha hhash))
    · exact hclean d hd hhash
    · exact hclean d hd hhash

/-! ## What a revocation removes from memory -/

theorem clean_revoke {id : String} (w : Write) (h : s.succeeds (.revoke id) = true) :
    Clean (fun c => c.id = id) (s.apply K w (.revoke id)) := by
  intro c hc
  rw [clients_apply, if_pos h] at hc
  simpa using (List.mem_filter.1 hc).2

theorem clean_revokeGrant {issued : List (String × String)} {id : String} (w : Write)
    (ha : Accounted K issued s) (h : s.succeeds (.revokeGrant id) = true) :
    Clean (fun c => c.id = id ∧ c.grantedUntil ≠ none) (s.apply K w (.revokeGrant id)) := by
  intro c hc
  obtain ⟨d, hfind, hid⟩ := ClientStore.find_of_has h
  rw [clients_apply, if_pos h, changed, ClientStore.revokeGrant,
    ClientStore.updateFirst_eq_map ha.memory.ids hfind] at hc
  obtain ⟨e, -, rfl⟩ := List.mem_map.1 hc
  rw [hid]
  split_ifs with he
  · simp
  · simp [he]

theorem clean_reattach {issued : List (String × String)} {name : String} {kind : ClientKind}
    {token old : String} {c : PairedClient} (w : Write) (hsha : Function.Injective K.sha256Hex)
    (ha : Accounted K issued s) (honce : (issued.map Prod.snd).Nodup) (hne : token ≠ old)
    (hverify : s.clients.verify K old = some c) (hid : s.clients.findId name kind = some c.id) :
    Clean (fun c => c.tokenHash = K.sha256Hex old) (s.apply K w (.reattach name kind token)) := by
  have hsucc : s.succeeds (.reattach name kind token) = true := by simp [succeeds, hid]
  obtain ⟨d, hfind, hdid⟩ := Option.map_eq_some_iff.1 hid
  intro e he hhash
  rw [clients_apply, if_pos hsucc, changed, ClientStore.reattach,
    ClientStore.updateFirst_eq_map ha.memory.ids hfind] at he
  obtain ⟨e', he', rfl⟩ := List.mem_map.1 he
  split_ifs at hhash with heid
  · exact hne (hsha hhash)
  · have hold : c.tokenHash = K.sha256Hex old := by simpa using List.find?_some hverify
    have hsame := ha.memory.eq_of_token hsha honce he' (List.mem_of_find?_eq_some hverify)
      (hhash.trans hold.symm)
    exact heid (by rw [hsame, hdid])

end StoredClients

/-! ## Which revocations last -/

open StoredClients

/-- The store after operations with their writes, started without a file. -/
def storeAfter (K : Crates) (steps : List (StoreOp × Write)) : StoredClients :=
  StoredClients.run K {} steps

/-- A revocation whose write fails takes effect, and is undone by the next restart: the client and
the replaced token are back, and so is the grant. -/
theorem revocation_undone :
    let K := Wallet.plainCrates
    let s := storeAfter K [(.pair "bot" .agent "client-1" "t1", .done), (.grant "client-1" 9, .done)]
    let restarted := fun op => (s.apply K .notRenamed op).apply K .done .restart
    (s.succeeds (.revoke "client-1") = true ∧
      ((s.apply K .notRenamed (.revoke "client-1")).clients.verify K "t1").isNone ∧
      ((restarted (.revoke "client-1")).clients.verify K "t1").isSome) ∧
    (s.succeeds (.revokeGrant "client-1") = true ∧
      ((restarted (.revokeGrant "client-1")).clients.verify K "t1").any
        (fun c => c.grantActive 8) = true) ∧
    (s.succeeds (.reattach "bot" .agent "t2") = true ∧
      ((restarted (.reattach "bot" .agent "t2")).clients.verify K "t1").isSome) := by
  decide +kernel

/-- In every run whose draws are fresh, whatever becomes of the writes: a revocation that was
reported, and whose write or that of a later operation before the next restart goes through, lasts.
A revoked client verifies no more, a revoked grant is not active until another is set, and a replaced
token verifies no more. -/
theorem revocations_last {K : Crates} (hsha : Function.Injective K.sha256Hex)
    (before later : List (StoreOp × Write)) (op : StoreOp) (w : Write)
    (hids : ((before ++ (op, w) :: later).filterMap fun x => x.1.drawnId).Nodup)
    (htokens : ((before ++ (op, w) :: later).filterMap fun x => x.1.drawnToken).Nodup)
    (hsucc : (storeAfter K before).succeeds op = true)
    (hsaves : Saves K (storeAfter K before) ((op, w) :: later)) :
    (∀ id, op = .revoke id → ∀ token c,
      (storeAfter K (before ++ (op, w) :: later)).clients.verify K token = some c → c.id ≠ id) ∧
    (∀ id, op = .revokeGrant id → (∀ x ∈ later, ∀ untilMs, x.1 ≠ .grant id untilMs) →
      ∀ c ∈ (storeAfter K (before ++ (op, w) :: later)).clients, c.id = id →
        ∀ now, c.grantActive now = false) ∧
    ∀ name kind token, op = .reattach name kind token → ∀ old c,
      (storeAfter K before).clients.verify K old = some c →
      (storeAfter K before).clients.findId name kind = some c.id →
      (storeAfter K (before ++ (op, w) :: later)).clients.verify K old = none := by
  have hrun : storeAfter K (before ++ (op, w) :: later) =
      (storeAfter K before).run K ((op, w) :: later) := run_append {} before _
  rw [List.filterMap_append] at hids htokens
  obtain ⟨ha, hdrawn⟩ := accounted_run (K := K) before (List.nodup_append.1 hids).1
  have honce := (issuedBy_tokens (K := K) {} before).nodup (List.nodup_append.1 htokens).1
  have hafter : ∀ {f : StoreOp × Write → Option String} {x : StoreOp × Write} {v : String},
      x ∈ later → f x = some v → v ∈ ((op, w) :: later).filterMap f := fun hx hv =>
    List.mem_filterMap.2 ⟨_, List.mem_cons_of_mem _ hx, hv⟩
  rw [hrun]
  refine ⟨?_, ?_, ?_⟩
  · rintro id rfl token c hc
    obtain ⟨d, hd, hdid⟩ := List.any_eq_true.1 hsucc
    have hid : id ∈ before.filterMap fun x => x.1.drawnId := by
      obtain ⟨t, ht, -⟩ := ha.memory.tokens d hd
      have := hdrawn (d.id, t) ht
      rwa [of_decide_eq_true hdid] at this
    have hgone := gone_of_saves (clean_revoke w hsucc) hsaves fun x hx => keeps_id fun heq =>
      (List.nodup_append.1 hids).2.2 id hid id (hafter hx heq) rfl
    exact hgone.1 c (List.mem_of_find?_eq_some hc)
  · rintro id rfl hgrants c hc hid now
    have hgone := gone_of_saves (clean_revokeGrant w ha hsucc) hsaves fun x hx =>
      keeps_grant (hgrants x hx)
    have hnone : c.grantedUntil = none := by
      by_contra hgrant
      exact hgone.1 c hc ⟨hid, hgrant⟩
    simp [PairedClient.grantActive, hnone]
  · rintro name kind token rfl old c hverify hfound
    have hold : old ∈ before.filterMap fun x => x.1.drawnToken := by
      obtain ⟨t, ht, hhash⟩ := ha.memory.tokens c (List.mem_of_find?_eq_some hverify)
      have hcold : c.tokenHash = K.sha256Hex old := by simpa using List.find?_some hverify
      rw [← hsha (hhash.symm.trans hcold)]
      exact (issuedBy_tokens (K := K) {} before).subset (List.mem_map_of_mem ht)
    have hlater := (List.nodup_append.1 htokens).2.2 old hold
    have hne : token ≠ old := fun heq => hlater token (by simp [StoreOp.drawnToken]) heq.symm
    have hgone := gone_of_saves (clean_reattach w hsha ha honce hne hverify hfound) hsaves
      fun x hx => keeps_token hsha fun heq => hlater old (hafter hx heq) rfl
    exact List.find?_eq_none.2 fun d hd => by simpa using hgone.1 d hd

/-- A revocation whose own write fails, saved by the next grant and then lasting. -/
theorem revocations_last_bot :
    let K := Wallet.plainCrates
    let before : List (StoreOp × Write) := [(.pair "bot" .agent "client-1" "t1", .done),
      (.pair "app" .app "client-2" "t2", .done)]
    let later : List (StoreOp × Write) := [(.grant "client-2" 9, .done), (.restart, .done)]
    ∀ token c, (storeAfter K (before ++ (.revoke "client-1", .notRenamed) :: later)).clients.verify K
      token = some c → c.id ≠ "client-1" := by
  refine (revocations_last (K := Wallet.plainCrates) (fun _ _ h => h) _ _ (.revoke "client-1")
    .notRenamed (by decide) (by decide) (by decide) ?_).1 "client-1" rfl
  exact ⟨by simp, Or.inr ⟨by simp, Or.inl ⟨by decide, rfl⟩⟩⟩

end Strkd.Rpc
