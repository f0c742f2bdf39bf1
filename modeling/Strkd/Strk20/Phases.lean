import Strkd.Strk20.Draw

/-!
# The parts of a plan

A plan is put together from parts of one phase each.  This file collects the actions of one kind
from a plan, shows that each kind is found in the part that holds it, and that a returned plan is
sorted by phase.
-/

namespace Strkd.Strk20

/-! ## Actions of one kind -/

/-- The `Deposit` actions: `(token, amount)`. -/
def deposited (actions : List ClientAction) : List (Felt × U128) :=
  actions.filterMap fun
    | .deposit token amount => some (token, amount)
    | _ => none

/-- The `Withdraw` actions: `(to, token, amount)`. -/
def withdrawn (actions : List ClientAction) : List (Felt × Felt × U128) :=
  actions.filterMap fun
    | .withdraw toAddr token amount _ => some (toAddr, token, amount)
    | _ => none

/-- The `UseNote` actions: `(channel key, token, index)`. -/
def used (actions : List ClientAction) : List (Felt × Felt × U32) :=
  actions.filterMap fun
    | .useNote key token index => some (key, token, index)
    | _ => none

/-- The `CreateEncNote` actions: `(recipient, token, amount)`. -/
def created (actions : List ClientAction) : List (Felt × Felt × U128) :=
  actions.filterMap fun
    | .createEncNote recipient _ token amount _ _ => some (recipient, token, amount)
    | _ => none

theorem deposited_append (xs ys : List ClientAction) :
    deposited (xs ++ ys) = deposited xs ++ deposited ys := List.filterMap_append

theorem withdrawn_append (xs ys : List ClientAction) :
    withdrawn (xs ++ ys) = withdrawn xs ++ withdrawn ys := List.filterMap_append

theorem used_append (xs ys : List ClientAction) : used (xs ++ ys) = used xs ++ used ys :=
  List.filterMap_append

theorem created_append (xs ys : List ClientAction) : created (xs ++ ys) = created xs ++ created ys :=
  List.filterMap_append

/-- All actions of `xs` run in the phase `ph`. -/
def InPhase (ph : Phase) (xs : List ClientAction) : Prop := ∀ x ∈ xs, x.phase = ph

theorem deposited_of_inPhase {ph : Phase} {xs : List ClientAction} (h : InPhase ph xs)
    (hph : ph ≠ .deposit) : deposited xs = [] := by
  refine List.filterMap_eq_nil_iff.2 fun x hx => ?_
  have := h x hx
  cases x <;> first | rfl | exact absurd this.symm hph

theorem withdrawn_of_inPhase {ph : Phase} {xs : List ClientAction} (h : InPhase ph xs)
    (hph : ph ≠ .withdraw) : withdrawn xs = [] := by
  refine List.filterMap_eq_nil_iff.2 fun x hx => ?_
  have := h x hx
  cases x <;> first | rfl | exact absurd this.symm hph

theorem used_of_inPhase {ph : Phase} {xs : List ClientAction} (h : InPhase ph xs)
    (hph : ph ≠ .useNotes) : used xs = [] := by
  refine List.filterMap_eq_nil_iff.2 fun x hx => ?_
  have := h x hx
  cases x <;> first | rfl | exact absurd this.symm hph

theorem created_of_inPhase {ph : Phase} {xs : List ClientAction} (h : InPhase ph xs)
    (hph : ph ≠ .createNotes) : created xs = [] := by
  refine List.filterMap_eq_nil_iff.2 fun x hx => ?_
  have := h x hx
  cases x <;> first | rfl | exact absurd this.symm hph

/-! ## The allocation loop -/

/-- Each list of the allocation holds actions of its own phase. -/
structure Alloc.Phased (a : Alloc) : Prop where
  channels : InPhase .channel a.openChannels
  subchannels : InPhase .subchannel a.openSubchannels
  notes : InPhase .createNotes a.createNotes

theorem InPhase.append {ph : Phase} {xs ys : List ClientAction} (hx : InPhase ph xs)
    (hy : InPhase ph ys) : InPhase ph (xs ++ ys) := fun x h =>
  (List.mem_append.1 h).elim (hx x) (hy x)

theorem inPhase_singleton (x : ClientAction) : InPhase x.phase [x] := fun y h => by
  rw [List.mem_singleton.1 h]

theorem Alloc.Phased.openChannel {a : Alloc} (h : a.Phased) (recipient : Felt)
    (channel : OutgoingChannel) (random salt : Felt) :
    (a.openChannel recipient channel random salt).Phased :=
  ⟨h.channels.append (inPhase_singleton (.openChannel ..)), h.subchannels, h.notes⟩

theorem Alloc.Phased.createNote {a : Alloc} (h : a.Phased) (recipient token : Felt) (amount : U128)
    (channel : OutgoingChannel) {opened : List ClientAction} (hop : InPhase .subchannel opened)
    (sub : Subchannel) (salt : U128) :
    (a.createNote recipient token amount channel opened sub salt).Phased :=
  ⟨h.channels, h.subchannels.append hop, h.notes.append (inPhase_singleton (.createEncNote ..))⟩

section

variable {ρ : Type} {rng : Randomness ρ} {fuel : ℕ}

/-- One turn of the loop creates the note it is for. -/
theorem phased_allocNote {a a' : Alloc} {n : Felt × Felt × U128} {s s' : ρ}
    (h : Returns (allocNote rng fuel a n) s a' s') (ha : a.Phased) :
    a'.Phased ∧ created a'.createNotes = created a.createNotes ++ [n] := by
  obtain ⟨recipient, token, amount⟩ := n
  obtain ⟨a₁, s₁, channel, salt, hc, -, -, hsub⟩ := returns_allocNote h
  have h₁ : a₁.Phased ∧ a₁.createNotes = a.createNotes := by
    obtain ⟨ch, -, ⟨-, rfl⟩ | ⟨-, random, salt, rfl⟩⟩ := returns_ensureChannel hc
    · exact ⟨ha, rfl⟩
    · exact ⟨ha.openChannel .., rfl⟩
  rcases hsub with ⟨sub, -, rfl⟩ | ⟨-, random, rfl⟩
  · refine ⟨h₁.1.createNote _ _ _ _ (by simp [InPhase]) _ _, ?_⟩
    rw [← h₁.2]
    exact created_append _ _
  · refine ⟨h₁.1.createNote _ _ _ _ (inPhase_singleton (.openSubchannel ..)) _ _, ?_⟩
    rw [← h₁.2]
    exact created_append _ _

/-- The loop creates the notes it is given, in order. -/
theorem phased_allocNotes {a a' : Alloc} {notes : List (Felt × Felt × U128)} {s s' : ρ}
    (h : Returns (allocNotes rng fuel a notes) s a' s') (ha : a.Phased) :
    a'.Phased ∧ created a'.createNotes = created a.createNotes ++ notes := by
  induction notes generalizing a s with
  | nil =>
    obtain ⟨rfl, -⟩ := returns_pure.1 h
    exact ⟨ha, (List.append_nil _).symm⟩
  | cons n rest ih =>
    obtain ⟨a₁, s₁, hn, h⟩ := returns_bind.1 h
    obtain ⟨h₁, hcreated⟩ := phased_allocNote hn ha
    obtain ⟨h₂, hrest⟩ := ih h h₁
    refine ⟨h₂, ?_⟩
    rw [hrest, hcreated, List.append_assoc, List.singleton_append]

end

/-! ## The plan -/

theorem inPhase_deposits (deposits : List (Felt × U128)) :
    InPhase .deposit (deposits.map fun (token, amount) => .deposit token amount) := by
  intro x hx
  obtain ⟨d, -, rfl⟩ := List.mem_map.1 hx
  rfl

theorem deposited_deposits (deposits : List (Felt × U128)) :
    deposited (deposits.map fun (token, amount) => .deposit token amount) = deposits := by
  unfold deposited
  rw [List.filterMap_map]
  exact List.filterMap_some

theorem inPhase_useNotes (spends : List Note) :
    InPhase .useNotes (spends.map fun n => .useNote n.channelKey n.token n.index) := by
  intro x hx
  obtain ⟨n, -, rfl⟩ := List.mem_map.1 hx
  rfl

theorem used_useNotes (spends : List Note) :
    used (spends.map fun n => .useNote n.channelKey n.token n.index) =
      spends.map fun n => (n.channelKey, n.token, n.index) := by
  unfold used
  rw [List.filterMap_map]
  show spends.filterMap (some ∘ fun n => (n.channelKey, n.token, n.index)) = _
  rw [List.filterMap_eq_map]

theorem inPhase_withdraws {withdrawals : List (Felt × Felt × U128)} {actions : List ClientAction}
    (h : List.Forall₂ (fun w action => ∃ random, action = .withdraw w.1 w.2.1 w.2.2 random)
      withdrawals actions) : InPhase .withdraw actions := by
  induction h with
  | nil => simp [InPhase]
  | cons hw _ ih =>
    obtain ⟨random, rfl⟩ := hw
    exact (inPhase_singleton (.withdraw ..)).append ih

theorem withdrawn_withdraws {withdrawals : List (Felt × Felt × U128)} {actions : List ClientAction}
    (h : List.Forall₂ (fun w action => ∃ random, action = .withdraw w.1 w.2.1 w.2.2 random)
      withdrawals actions) : withdrawn actions = withdrawals := by
  induction h with
  | nil => rfl
  | cons hw _ ih =>
    obtain ⟨random, rfl⟩ := hw
    exact congrArg₂ List.cons rfl ih

section

variable {ρ : Type} {rng : Randomness ρ} {C : Curve} {fuel : ℕ} {intent : Intent} {st : State}
  {p : Plan}

theorem Assembled.start_phased (h : Assembled rng C fuel intent st p) :
    InPhase .account h.account ∧ h.start.Phased ∧ h.start.createNotes = [] := by
  rcases returns_registerUser h.started with ⟨-, hacc, hstart⟩ | ⟨-, ⟨random, hacc⟩, _, _, hstart⟩
  · rw [hacc, hstart]
    exact ⟨by simp [InPhase], ⟨by simp [InPhase], by simp [InPhase], by simp [InPhase]⟩, rfl⟩
  · rw [hacc, hstart]
    refine ⟨inPhase_singleton (.setViewingKey random), Alloc.Phased.openChannel ?_ .., rfl⟩
    exact ⟨by simp [InPhase], by simp [InPhase], by simp [InPhase]⟩

theorem Assembled.phased (h : Assembled rng C fuel intent st p) :
    h.final.Phased ∧ created h.final.createNotes = newNotes intent st.user p.change := by
  obtain ⟨-, hstart, hnil⟩ := h.start_phased
  have := phased_allocNotes h.allocated hstart
  rwa [hnil] at this

/-- `xs` is sorted by phase and has no phase after `ph`. -/
def SortedUpTo (ph : Phase) (xs : List ClientAction) : Prop :=
  xs.Pairwise (fun x y => x.phase ≤ y.phase) ∧ ∀ x ∈ xs, x.phase ≤ ph

theorem InPhase.sortedUpTo {ph : Phase} {xs : List ClientAction} (h : InPhase ph xs) :
    SortedUpTo ph xs :=
  ⟨List.pairwise_of_forall_mem_list fun x hx y hy => ((h x hx).trans (h y hy).symm).le,
    fun x hx => (h x hx).le⟩

/-- A part of a later phase goes at the end. -/
theorem SortedUpTo.append {ph ph' : Phase} {xs ys : List ClientAction} (hx : SortedUpTo ph xs)
    (hy : InPhase ph' ys) (hph : ph ≤ ph') : SortedUpTo ph' (xs ++ ys) := by
  refine ⟨List.pairwise_append.2 ⟨hx.1, hy.sortedUpTo.1, fun x h y h' => ?_⟩, fun x h => ?_⟩
  · rw [hy y h']
    exact (hx.2 x h).trans hph
  · rcases List.mem_append.1 h with h | h
    · exact (hx.2 x h).trans hph
    · exact (hy x h).le

/-- A returned plan is sorted by phase. -/
theorem Assembled.sorted (h : Assembled rng C fuel intent st p) :
    p.actions.Pairwise fun x y => x.phase ≤ y.phase := by
  obtain ⟨hacc, -, -⟩ := h.start_phased
  obtain ⟨⟨hch, hsub, hnotes⟩, -⟩ := h.phased
  rw [h.actions]
  have h₁ := hacc.sortedUpTo.append hch (by decide)
  have h₂ := (h₁.append hsub (by decide)).append (inPhase_deposits intent.deposits) (by decide)
  have h₃ := (h₂.append (inPhase_useNotes h.spends) (by decide)).append hnotes (by decide)
  exact (h₃.append (inPhase_withdraws h.withdrawn) (by decide)).1

end

end Strkd.Strk20
