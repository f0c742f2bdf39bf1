import Strkd.Strk20.Planner
import Strkd.Lib.TreeMap

/-!
# What each step of the planner can do

`Returns x s a s'` says that the drawing computation `x`, started on the randomness `s`, ends with
the value `a` and leaves the randomness in `s'`.  Each function of the planner gets one lemma that
says all a returning call did; the properties of plans are derived from these.
-/

namespace Strkd.Strk20

open Std (ExtTreeMap)

variable {ρ α β : Type}

/-- `x` started on `s` returns `a` and leaves the randomness `s'`. -/
def Returns (x : Draw ρ α) (s : ρ) (a : α) (s' : ρ) : Prop :=
  ExceptT.run (StateT.run x s) = some (.ok (a, s'))

/-- The value a draw returns, if it does. -/
def result (x : Draw ρ α) (s : ρ) : Option α :=
  match ExceptT.run (StateT.run x s) with
  | some (.ok (a, _)) => some a
  | _ => none

theorem returns_of_result {x : Draw ρ α} {s : ρ} {a : α} (h : result x s = some a) :
    ∃ s', Returns x s a s' := by
  unfold result at h
  split at h
  · rename_i b s' hx
    cases h
    exact ⟨s', hx⟩
  · cases h

theorem returns_pure {a b : α} {s s' : ρ} :
    Returns (pure a : Draw ρ α) s b s' ↔ b = a ∧ s' = s := by
  simp only [Returns, StateT.run_pure, ExceptT.run_pure, Option.pure_def, Option.some.injEq,
    Except.ok.injEq, Prod.mk.injEq]
  exact and_congr eq_comm eq_comm

theorem returns_bind {x : Draw ρ α} {f : α → Draw ρ β} {s s'' : ρ} {b : β} :
    Returns (x >>= f) s b s'' ↔ ∃ a s', Returns x s a s' ∧ Returns (f a) s' b s'' := by
  simp only [Returns, StateT.run_bind, ExceptT.run_bind]
  cases hx : ExceptT.run (StateT.run x s) with
  | none => simp
  | some r => cases r with
    | error e => simp
    | ok p =>
      obtain ⟨a, s'⟩ := p
      constructor
      · intro h
        exact ⟨a, s', rfl, h⟩
      · rintro ⟨_, _, hp, h⟩
        cases hp
        exact h

theorem not_returns_throw {e : Error} {s s' : ρ} {a : α} :
    ¬ Returns (throw e : Draw ρ α) s a s' := by
  intro h
  cases h

theorem not_returns_outOfFuel {s s' : ρ} {a : α} : ¬ Returns (outOfFuel : Draw ρ α) s a s' := by
  intro h
  cases h

theorem returns_lift {x : Except Error α} {s s' : ρ} {a : α} :
    Returns (liftM x : Draw ρ α) s a s' ↔ x = .ok a ∧ s' = s := by
  cases x with
  | error e =>
    constructor
    · intro h
      cases h
    · rintro ⟨h, _⟩
      cases h
  | ok b =>
    constructor
    · intro h
      cases h
      exact ⟨rfl, rfl⟩
    · rintro ⟨h, rfl⟩
      cases h
      rfl

/-! ## Failures -/

/-- `x` started on `s` fails with `e`. -/
def Fails (x : Draw ρ α) (s : ρ) (e : Error) : Prop :=
  ExceptT.run (StateT.run x s) = some (.error e)

theorem fails_bind {x : Draw ρ α} {f : α → Draw ρ β} {s : ρ} {e : Error} :
    Fails (x >>= f) s e ↔ Fails x s e ∨ ∃ a s', Returns x s a s' ∧ Fails (f a) s' e := by
  simp only [Fails, Returns, StateT.run_bind, ExceptT.run_bind]
  cases hx : ExceptT.run (StateT.run x s) with
  | none => simp
  | some r => cases r with
    | error e' => simp
    | ok p =>
      obtain ⟨a, s'⟩ := p
      constructor
      · intro h
        exact .inr ⟨a, s', rfl, h⟩
      · rintro (h | ⟨_, _, hp, h⟩)
        · cases h
        · cases hp
          exact h

theorem not_fails_pure {a : α} {s : ρ} {e : Error} : ¬ Fails (pure a : Draw ρ α) s e := by
  intro h
  cases h

theorem fails_throw {e e' : Error} {s : ρ} : Fails (throw e : Draw ρ α) s e' ↔ e' = e := by
  constructor <;> intro h <;> cases h <;> rfl

theorem not_fails_outOfFuel {s : ρ} {e : Error} : ¬ Fails (outOfFuel : Draw ρ α) s e := by
  intro h
  cases h

theorem fails_lift {x : Except Error α} {s : ρ} {e : Error} :
    Fails (liftM x : Draw ρ α) s e ↔ x = .error e := by
  cases x <;> constructor <;> intro h <;> cases h <;> rfl

/-- Every failure of `x` is one of `Q`. -/
def FailsOnly (Q : Error → Prop) (x : Draw ρ α) : Prop := ∀ s e, Fails x s e → Q e

variable {Q : Error → Prop}

theorem FailsOnly.bind {x : Draw ρ α} {f : α → Draw ρ β} (hx : FailsOnly Q x)
    (hf : ∀ a, FailsOnly Q (f a)) : FailsOnly Q (x >>= f) := by
  intro s e h
  rcases fails_bind.1 h with h | ⟨a, s', -, h⟩
  · exact hx s e h
  · exact hf a s' e h

theorem FailsOnly.pure (a : α) : FailsOnly Q (pure a : Draw ρ α) :=
  fun _ _ h => absurd h not_fails_pure

theorem FailsOnly.throw {e : Error} (he : Q e) : FailsOnly Q (throw e : Draw ρ α) := by
  intro s e' h
  rwa [fails_throw.1 h]

theorem FailsOnly.outOfFuel : FailsOnly Q (outOfFuel : Draw ρ α) :=
  fun _ _ h => absurd h not_fails_outOfFuel

/-! ## The planner's functions -/

section

variable {rng : Randomness ρ}

/-- A source that always draws the felt 0 and the salt 2. -/
def constantRandomness : Randomness Unit where
  felt := fun s => (.ok 0, s)
  salt120 := fun s => (.ok 2, s)

theorem returns_drawSalt120 {s s' : ρ} {v : U128} :
    Returns (drawSalt120 rng) s v s' ↔ rng.salt120 s = (.ok v, s') := by
  show drawSalt120 rng s = some (.ok (v, s')) ↔ _
  unfold drawSalt120
  rcases rng.salt120 s with ⟨_ | w, t⟩
  · constructor <;> intro h <;> cases h
  · constructor <;> intro h <;> cases h <;> rfl

/-- A salt that `noteSalt` returns was drawn, and does not mark an open note. -/
theorem returns_noteSalt {fuel : ℕ} {s s' : ρ} {salt : U128}
    (h : Returns (noteSalt rng fuel) s salt s') :
    openNoteSalt < salt ∧ ∃ t t', rng.salt120 t = (.ok salt, t') := by
  induction fuel generalizing s with
  | zero => exact absurd h not_returns_outOfFuel
  | succ fuel ih =>
    obtain ⟨v, t, hv, h⟩ := returns_bind.1 h
    split_ifs at h with hlt
    · obtain ⟨rfl, rfl⟩ := returns_pure.1 h
      exact ⟨hlt, s, _, returns_drawSalt120.1 hv⟩
    · exact ih h

/-- The allocation state after a channel to `recipient` was opened. -/
def Alloc.openChannel (a : Alloc) (recipient : Felt) (channel : OutgoingChannel)
    (random salt : Felt) : Alloc :=
  { a with
    openChannels := a.openChannels ++ [.openChannel recipient a.nextChannelIndex random salt]
    nextChannelIndex := a.nextChannelIndex + 1
    channels := a.channels.insert recipient { channel with isOpen := true } }

/-- `ensureChannel` leaves an open channel alone and opens a closed one. -/
theorem returns_ensureChannel {recipient : Felt} {a a' : Alloc} {s s' : ρ}
    (h : Returns (ensureChannel rng recipient a) s a' s') :
    ∃ channel, a.channels[recipient]? = some channel ∧
      (channel.isOpen = true ∧ a' = a ∨
        channel.isOpen = false ∧ ∃ random salt, a' = a.openChannel recipient channel random salt) := by
  unfold ensureChannel at h
  cases hc : a.channels[recipient]? with
  | none =>
    rw [hc] at h
    exact absurd h not_returns_throw
  | some channel =>
    simp only [hc] at h
    refine ⟨channel, rfl, ?_⟩
    split_ifs at h with ho
    · exact .inl ⟨ho, (returns_pure.1 h).1⟩
    · obtain ⟨random, t, -, h⟩ := returns_bind.1 h
      obtain ⟨salt, t', -, h⟩ := returns_bind.1 h
      exact .inr ⟨by simpa using ho, random, salt, (returns_pure.1 h).1⟩

/-- The allocation state after a note was allocated in the subchannel `sub` of `token`, opened by
the actions `opened`. -/
def Alloc.createNote (a : Alloc) (recipient token : Felt) (amount : U128)
    (channel : OutgoingChannel) (opened : List ClientAction) (sub : Subchannel) (salt : U128) :
    Alloc :=
  { a with
    openSubchannels := a.openSubchannels ++ opened
    createNotes := a.createNotes ++
      [.createEncNote recipient channel.recipientPublicKey token amount sub.nextNoteIndex salt]
    channels := a.channels.insert recipient { channel with
      subchannels := channel.subchannels.insert token
        { sub with nextNoteIndex := sub.nextNoteIndex + 1 } } }

/-- `allocNote` makes sure of the channel, then of the subchannel, then creates one note. -/
theorem returns_allocNote {fuel : ℕ} {a a' : Alloc} {recipient token : Felt} {amount : U128}
    {s s' : ρ} (h : Returns (allocNote rng fuel a (recipient, token, amount)) s a' s') :
    ∃ a₁ s₁ channel salt, Returns (ensureChannel rng recipient a) s a₁ s₁ ∧
      a₁.channels[recipient]? = some channel ∧
      (openNoteSalt < salt ∧ ∃ t t', rng.salt120 t = (.ok salt, t')) ∧
      ((∃ sub, channel.subchannels[token]? = some sub ∧
          a' = a₁.createNote recipient token amount channel [] sub salt) ∨
        (channel.subchannels[token]? = none ∧ ∃ random,
          let index := BitVec.ofNat 32 channel.subchannels.size
          a' = a₁.createNote recipient token amount channel
            [.openSubchannel recipient channel.recipientPublicKey channel.key index token random]
            ⟨index, 0⟩ salt)) := by
  obtain ⟨a₁, s₁, h₁, h⟩ := returns_bind.1 h
  cases hc : a₁.channels[recipient]? with
  | none =>
    simp only [hc] at h
    exact absurd h not_returns_throw
  | some channel =>
    simp only [hc] at h
    obtain ⟨⟨sub, a₂⟩, s₂, hsub, h⟩ := returns_bind.1 h
    obtain ⟨salt, s₃, hsalt, h⟩ := returns_bind.1 h
    obtain ⟨rfl, rfl⟩ := returns_pure.1 h
    refine ⟨a₁, s₁, channel, salt, h₁, hc, returns_noteSalt hsalt, ?_⟩
    unfold ensureSubchannel at hsub
    cases ht : channel.subchannels[token]? with
    | some sub' =>
      simp only [ht] at hsub
      obtain ⟨hp, -⟩ := returns_pure.1 hsub
      cases hp
      exact .inl ⟨sub, rfl, by simp [Alloc.createNote]⟩
    | none =>
      simp only [ht] at hsub
      obtain ⟨random, s₄, -, hsub⟩ := returns_bind.1 hsub
      obtain ⟨hp, -⟩ := returns_pure.1 hsub
      cases hp
      exact .inr ⟨rfl, random, rfl⟩

/-- `registerUser` does nothing, or inserts a fresh self-channel and opens it. -/
theorem returns_registerUser {C : Curve} {intent : Intent} {st : State}
    {account : List ClientAction} {a : Alloc} {s s' : ρ}
    (h : Returns (registerUser rng C intent st) s (account, a) s') :
    let start : Alloc := { channels := st.channels, nextChannelIndex := st.outgoingChannels }
    let self := selfChannel C st.user st.userSk
    ((intent.register && !st.registered) = false ∧ account = [] ∧ a = start) ∨
    ((intent.register && !st.registered) = true ∧ (∃ random, account = [.setViewingKey random]) ∧
      ∃ random salt, a = Alloc.openChannel { start with channels := st.channels.insert st.user self }
        st.user self random salt) := by
  intro start self
  unfold registerUser at h
  split_ifs at h with hr
  · obtain ⟨random, s₁, -, h⟩ := returns_bind.1 h
    obtain ⟨a', s₂, ha, h⟩ := returns_bind.1 h
    obtain ⟨hp, -⟩ := returns_pure.1 h
    cases hp
    refine .inr ⟨hr, ⟨random, rfl⟩, ?_⟩
    obtain ⟨channel, hc, hopen⟩ := returns_ensureChannel ha
    rw [TreeMap.getElem?_insert, if_pos rfl, Option.some.injEq] at hc
    subst hc
    rcases hopen with ⟨ho, -⟩ | ⟨-, hopen⟩
    · cases ho
    · exact hopen
  · obtain ⟨hp, -⟩ := returns_pure.1 h
    cases hp
    exact .inl ⟨by simpa using hr, rfl, rfl⟩

/-- The withdrawal actions are the withdrawals, in order. -/
theorem returns_withdrawActions {withdrawals : List (Felt × Felt × U128)}
    {actions : List ClientAction} {s s' : ρ}
    (h : Returns (withdrawActions rng withdrawals) s actions s') :
    List.Forall₂ (fun w action => ∃ random, action = .withdraw w.1 w.2.1 w.2.2 random)
      withdrawals actions := by
  induction withdrawals generalizing s s' actions with
  | nil =>
    obtain ⟨rfl, -⟩ := returns_pure.1 h
    exact .nil
  | cons w rest ih =>
    obtain ⟨toAddr, token, amount⟩ := w
    obtain ⟨random, s₁, -, h⟩ := returns_bind.1 h
    obtain ⟨actions', s₂, hrest, h⟩ := returns_bind.1 h
    obtain ⟨rfl, -⟩ := returns_pure.1 h
    exact .cons ⟨random, rfl⟩ (ih hrest)

/-- What a returned plan was assembled from. -/
structure Assembled (rng : Randomness ρ) (C : Curve) (fuel : ℕ) (intent : Intent) (st : State)
    (p : Plan) where
  spends : List Note
  account : List ClientAction
  start : Alloc
  final : Alloc
  withdraws : List ClientAction
  {s₀ s₁ s₂ : ρ}
  registered : intent.register = true ∨ st.registered = true
  selected : selectNotes intent st = .ok (spends, p.change)
  started : Returns (registerUser rng C intent st) s₀ (account, start) s₁
  allocated : Returns (allocNotes rng fuel start (newNotes intent st.user p.change)) s₁ final s₂
  withdrawn : List.Forall₂ (fun w action => ∃ random, action = .withdraw w.1 w.2.1 w.2.2 random)
    intent.withdrawals withdraws
  actions : p.actions = account ++ final.openChannels ++ final.openSubchannels
    ++ intent.deposits.map (fun (token, amount) => .deposit token amount)
    ++ spends.map (fun n => .useNote n.channelKey n.token n.index)
    ++ final.createNotes ++ withdraws
  spent : p.spent = spends.map Note.id

theorem returns_plan {C : Curve} {fuel : ℕ} {intent : Intent} {st : State} {p : Plan} {s s' : ρ}
    (h : Returns (plan rng C fuel intent st) s p s') :
    Nonempty (Assembled rng C fuel intent st p) := by
  unfold plan at h
  dsimp only at h
  split_ifs at h with hreg
  · obtain ⟨_, _, h, -⟩ := returns_bind.1 h
    exact absurd h not_returns_throw
  · obtain ⟨_, _, -, h⟩ := returns_bind.1 h
    obtain ⟨_, _, -, h⟩ := returns_bind.1 h
    obtain ⟨⟨spends, change⟩, s₀, hsel, h⟩ := returns_bind.1 h
    obtain ⟨⟨account, start⟩, s₁, hstart, h⟩ := returns_bind.1 h
    obtain ⟨final, s₂, hfinal, h⟩ := returns_bind.1 h
    obtain ⟨withdraws, s₃, hw, h⟩ := returns_bind.1 h
    obtain ⟨rfl, rfl⟩ := returns_pure.1 h
    obtain ⟨hspends, rfl⟩ := returns_lift.1 hsel
    refine ⟨{
      spends, account, start, final, withdraws
      registered := ?_
      selected := hspends
      withdrawn := returns_withdrawActions hw
      started := hstart
      allocated := hfinal
      actions := rfl
      spent := rfl }⟩
    cases hi : intent.register <;> cases hs : st.registered <;> simp_all

/-! ## The stages of a plan -/

/-- What is left of a plan once its notes are selected. -/
def assemble (rng : Randomness ρ) (C : Curve) (fuel : ℕ) (intent : Intent) (st : State)
    (selected : List Note × ExtTreeMap Felt U128) : Draw ρ Plan := do
  let (account, a) ← registerUser rng C intent st
  let a ← allocNotes rng fuel a (newNotes intent st.user selected.2)
  let withdraws ← withdrawActions rng intent.withdrawals
  let actions := account ++ a.openChannels ++ a.openSubchannels
    ++ intent.deposits.map (fun (token, amount) => .deposit token amount)
    ++ selected.1.map (fun n => .useNote n.channelKey n.token n.index)
    ++ a.createNotes ++ withdraws
  return {
    actions
    spent := selected.1.map Note.id
    change := selected.2
    warnings := if 1 < (actions.filter isOpenChannel).length then [.userLinkage] else [] }

theorem lift_bind (x : Except Error α) (f : α → Except Error β) :
    (liftM (x >>= f) : Draw ρ β) = (liftM x : Draw ρ α) >>= fun a => liftM (f a) := by
  cases x <;> rfl

theorem lift_forM (l : List α) (f : α → Except Error PUnit) :
    (liftM (l.forM f) : Draw ρ PUnit) = l.forM fun a => liftM (f a) := by
  induction l with
  | nil => rfl
  | cons a l ih =>
    show (liftM (f a >>= fun _ => l.forM f) : Draw ρ PUnit) = _
    rw [lift_bind, ih]
    rfl

/-- What `plan` asks of an intent before it looks at values. -/
def checkIntent (intent : Intent) (st : State) : Except Error Unit := do
  if !intent.register && !st.registered then throw (.notRegistered st.user)
  intent.deposits.forM fun d => nonzero d.2
  (intent.transfers ++ intent.withdrawals).forM fun t => nonzero t.2.2

theorem plan_eq (rng : Randomness ρ) (C : Curve) (fuel : ℕ) (intent : Intent) (st : State) :
    plan rng C fuel intent st = (do
      (checkIntent intent st : Except Error Unit)
      let selected ← (selectNotes intent st : Except Error _)
      assemble rng C fuel intent st selected) := by
  unfold checkIntent plan
  by_cases h : (!intent.register && !st.registered) = true
  · simp only [if_pos h]
    rfl
  · simp only [if_neg h, lift_bind, lift_forM, bind_assoc]
    rfl

theorem fails_plan_iff {C : Curve} {fuel : ℕ} {intent : Intent} {st : State} {s : ρ} {e : Error} :
    Fails (plan rng C fuel intent st) s e ↔ checkIntent intent st = .error e ∨
      checkIntent intent st = .ok () ∧ (selectNotes intent st = .error e ∨
        ∃ selected, selectNotes intent st = .ok selected ∧
          Fails (assemble rng C fuel intent st selected) s e) := by
  rw [plan_eq, fails_bind, fails_lift]
  refine or_congr Iff.rfl ⟨?_, ?_⟩
  · rintro ⟨_, _, hcheck, hrest⟩
    obtain ⟨hchecked, rfl⟩ := returns_lift.1 hcheck
    refine ⟨hchecked, ?_⟩
    rcases fails_bind.1 hrest with hselect | ⟨selected, _, hselect, hassemble⟩
    · exact .inl (fails_lift.1 hselect)
    · obtain ⟨hselected, rfl⟩ := returns_lift.1 hselect
      exact .inr ⟨selected, hselected, hassemble⟩
  · rintro ⟨hcheck, hrest⟩
    refine ⟨(), s, returns_lift.2 ⟨hcheck, rfl⟩, fails_bind.2 ?_⟩
    rcases hrest with hselect | ⟨selected, hselected, hassemble⟩
    · exact .inl (fails_lift.2 hselect)
    · exact .inr ⟨selected, s, returns_lift.2 ⟨hselected, rfl⟩, hassemble⟩

theorem returns_plan_iff {C : Curve} {fuel : ℕ} {intent : Intent} {st : State} {p : Plan} {s s' : ρ} :
    Returns (plan rng C fuel intent st) s p s' ↔ checkIntent intent st = .ok () ∧
      ∃ selected, selectNotes intent st = .ok selected ∧
        Returns (assemble rng C fuel intent st selected) s p s' := by
  rw [plan_eq, returns_bind]
  constructor
  · rintro ⟨_, _, hcheck, hrest⟩
    obtain ⟨hchecked, rfl⟩ := returns_lift.1 hcheck
    obtain ⟨selected, _, hselect, hassemble⟩ := returns_bind.1 hrest
    obtain ⟨hselected, rfl⟩ := returns_lift.1 hselect
    exact ⟨hchecked, selected, hselected, hassemble⟩
  · rintro ⟨hcheck, selected, hselected, h⟩
    exact ⟨(), s, returns_lift.2 ⟨hcheck, rfl⟩,
      returns_bind.2 ⟨selected, s, returns_lift.2 ⟨hselected, rfl⟩, h⟩⟩

end

end Strkd.Strk20
