import Strkd.Rpc.Strk20
import Strkd.Strk20.Draw
import Strkd.Strk20.Outgoing

/-!
# Discovery for one intent

Discovery for an intent reads the notes of the tokens it pays with, and the channels to those it pays
and to the user.  It finds what a discovery of everything finds there, and a plan looks at no other
channel.
-/

namespace Strkd.Strk20

open Std (ExtTreeMap)
open Wallet (Crates)
open Rpc (Ans Op Serve WalletRpcError)
open Rpc.Strk20 (Ctx discoverChannels discoverState)
open Snapshot

/-! ## One snapshot, one answer -/

section

variable {m : Type → Type} [Monad m] {O : Outcomes m} {K : Crates} {r : PoolReader m} {v : Snapshot}

theorem Slot.before_asymm (a b : Slot) (h : Slot.before a b) : ¬ Slot.before b a := by
  intro h'
  unfold Slot.before at h h'
  simp only [Prod.lex_def] at h h'
  omega

/-- The notes of some tokens are the notes of all, filtered. -/
theorem discoverNotes_filter (hr : Answers O r v) {user userSk : Felt} {tokens : List Felt}
    {notes all : List Note} (hne : tokens ≠ [])
    (h : O.Gives (discoverNotes K r user userSk tokens) notes)
    (hall : O.Gives (discoverNotes K r user userSk []) all) :
    notes = all.filter fun n => n.token ∈ tokens := by
  have hlists := (discoverNotes_lists hr h).2
  have hfilter := (discoverNotes_lists hr hall).2.filter fun n => decide (n.token ∈ tokens)
  refine hlists.unique Slot.before_asymm (hfilter.congr fun slot => ?_)
  obtain ⟨c, k, i⟩ := slot
  constructor
  · rintro ⟨hc, info, hinfo, hk, hasked, hi, hs⟩
    obtain ⟨note, hnote⟩ := exists_noteAt (not_empty_of_lt_firstEmpty hi)
    refine ⟨⟨hc, info, hinfo, hk, .inl rfl, hi, hs⟩, note, ?_, ?_⟩
    · simp only [slotNote, hinfo]
      exact hnote
    · rw [(noteAt_eq_some hnote).2.1]
      exact decide_eq_true (hasked.resolve_left hne)
  · rintro ⟨⟨hc, info, hinfo, hk, -, hi, hs⟩, note, hnote, htoken⟩
    simp only [slotNote, hinfo] at hnote
    rw [(noteAt_eq_some hnote).2.1] at htoken
    exact ⟨hc, info, hinfo, hk, .inr (of_decide_eq_true htoken), hi, hs⟩

/-- A channel is discovered in one way only. -/
theorem discoverChannel_unique (hr : Answers O r v) (hstuck : ∀ n : U32, ¬ O.Gives r.stuck n)
    {fuel : ℕ} {user userSk recipient : Felt} {ch ch' : OutgoingChannel}
    (h : O.Gives (discoverChannel K r fuel user userSk recipient) ch)
    (h' : O.Gives (discoverChannel K r fuel user userSk recipient) ch') : ch = ch' := by
  obtain ⟨-, hrecipient, hpk, hkey, hopen, hsubs, hnone⟩ := discoverChannel_gives hr hstuck h
  obtain ⟨-, hrecipient', hpk', hkey', hopen', hsubs', hnone'⟩ := discoverChannel_gives hr hstuck h'
  have hsame : ch.isOpen = ch'.isOpen := Bool.eq_iff_iff.2 (hopen.trans hopen'.symm)
  have hsubchannels : ch.subchannels = ch'.subchannels := by
    cases hb : ch.isOpen with
    | true => rw [(hsubs hb).2.2.2, (hsubs' (hsame ▸ hb)).2.2.2, hkey, hkey']
    | false => rw [hnone hb, hnone' (hsame ▸ hb)]
  cases ch
  cases ch'
  simp only at hrecipient hpk hkey hsame hsubchannels hrecipient' hpk' hkey'
  rw [hrecipient, hpk, hkey, hsame, hsubchannels, hrecipient', hpk', hkey']

/-- An outgoing-channel slot of the user that no channel was opened in. -/
def outgoingEmpty (K : Crates) (v : Snapshot) (user userSk : Felt) (s : ℕ) : Prop :=
  read K v "get_outgoing_channel_info"
    [outgoingChannelId K.curve user userSk (BitVec.ofNat 32 s)] 0 = 0

theorem scanChannelCount_gives (hr : Answers O r v) {user userSk : Felt} {left s : ℕ} {n : U32}
    (h : O.Gives (scanChannelCount K r user userSk left s) n) :
    ∃ j, s ≤ j ∧ outgoingEmpty K v user userSk j ∧
      (∀ i, s ≤ i → i < j → ¬ outgoingEmpty K v user userSk i) ∧ n = BitVec.ofNat 32 j := by
  induction left generalizing s with
  | zero => exact h.throw.elim
  | succ left ih =>
      obtain ⟨o, ho, h⟩ := h.bind
      rw [gives_view hr ho] at h
      split at h
      · rename_i hzero
        exact ⟨s, le_rfl, hzero, fun i hi hlt => by omega, h.pure⟩
      · rename_i hne
        obtain ⟨j, hsj, hend, hfull, rfl⟩ := ih h
        refine ⟨j, by omega, hend, fun i hi hlt => ?_, rfl⟩
        rcases hi.eq_or_lt with rfl | hi
        · exact hne
        · exact hfull i hi hlt

theorem outgoingChannelCount_gives (hr : Answers O r v) {user userSk : Felt} {n : U32}
    (h : O.Gives (outgoingChannelCount K r user userSk) n) :
    n = BitVec.ofNat 32 (firstEmpty (outgoingEmpty K v user userSk)) := by
  obtain ⟨j, -, hend, hfull, rfl⟩ := scanChannelCount_gives hr h
  rw [firstEmpty_eq hend fun i hi => hfull i (Nat.zero_le i) hi]

end

/-! ## Two discoveries -/

section

variable {legal : (op : Op) → Ans op → Prop} {K : Crates} {S : Rpc.Setup} {v : Snapshot} {c : Ctx}
  {r : PoolReader (Prog Op Ans)} {userSk : Felt}

/-- What a reading of the pool gives as a step of a request. -/
theorem gives_fromPool {α : Type} {x : ExceptT Error (Prog Op Ans) α} {a : α}
    (h : (Outcomes.prog legal).Gives (Rpc.Strk20.fromPool x) a) : (Outcomes.prog legal).Gives x a := by
  obtain ⟨res, hres, h⟩ := (Outcomes.prog legal).ends_bind (x := x.run) h
  cases res with
  | ok b =>
      have hb : (Except.ok a : Except WalletRpcError α) = .ok b :=
        (Outcomes.prog legal).ends_pure h
      rw [Except.ok.inj hb]
      exact hres
  | error e =>
      have hb : (Except.ok a : Except WalletRpcError α) = .error (Rpc.Strk20.mapStrk20 e) :=
        (Outcomes.prog legal).ends_pure h
      cases hb

/-- The channels of those that were asked for. -/
theorem discoverChannels_gives {recipients : List Felt} {channels found : Channels}
    (h : (Outcomes.prog legal).Gives (discoverChannels K S c r userSk recipients channels) found) :
    (∀ a ∈ channels, found[a]? = channels[a]?) ∧ ∀ a ∈ recipients, a ∉ channels →
      ∃ ch, (Outcomes.prog legal).Gives (discoverChannel K r S.fuel c.user userSk a) ch ∧
        found[a]? = some ch := by
  induction recipients generalizing channels with
  | nil =>
      rw [h.pure]
      exact ⟨fun _ _ => rfl, fun a ha => nomatch ha⟩
  | cons recipient rest ih =>
      unfold discoverChannels at h
      split at h
      · rename_i hin
        obtain ⟨hkept, hfound⟩ := ih h
        refine ⟨hkept, fun a ha hnot => ?_⟩
        rcases List.mem_cons.1 ha with rfl | ha
        · exact absurd hin hnot
        · exact hfound a ha hnot
      · rename_i hnew
        obtain ⟨ch, hch, h⟩ := h.bind
        obtain ⟨hkept, hfound⟩ := ih h
        have hmem : ∀ a, a ∈ channels.insert recipient ch ↔ a = recipient ∨ a ∈ channels := by
          intro a
          rw [ExtTreeMap.mem_insert, Std.compare_eq_iff_eq, eq_comm]
        have hget : ∀ a, (channels.insert recipient ch)[a]? =
            if recipient = a then some ch else channels[a]? := fun a => TreeMap.getElem?_insert channels recipient a ch
        refine ⟨fun a ha => ?_, fun a ha hnot => ?_⟩
        · have hne : recipient ≠ a := fun heq => hnew (heq ▸ ha)
          rw [hkept a ((hmem a).2 (.inr ha)), hget, if_neg hne]
        · by_cases heq : a = recipient
          · refine ⟨ch, heq ▸ gives_fromPool hch, ?_⟩
            rw [hkept a ((hmem a).2 (.inl heq)), hget, if_pos heq.symm]
          · refine hfound a ((List.mem_cons.1 ha).resolve_left heq) fun hin => ?_
            exact ((hmem a).1 hin).elim heq hnot

/-- Discovery of every note, and of the channels to `everyone`. -/
def discoverEverything (K : Crates) (S : Rpc.Setup) (c : Ctx) (r : PoolReader (Prog Op Ans))
    (userSk : Felt) (everyone : List Felt) : Serve State := do
  let registered := (← Rpc.Strk20.fromPool (registeredKey K r c.user)).isSome
  let channels ← discoverChannels K S c r userSk everyone ∅
  let notes ← Rpc.Strk20.fromPool (discoverNotes K r c.user userSk [])
  let outgoingChannels ← Rpc.Strk20.fromPool (outgoingChannelCount K r c.user userSk)
  return { user := c.user, userSk, registered, outgoingChannels, channels, notes }

/-- The tokens an intent pays with. -/
def paidTokens (intent : Intent) : List Felt :=
  intent.transfers.map (fun t => t.2.1) ++ intent.withdrawals.map fun w => w.2.1

/-- `st` holds what an intent needs of what `full` holds. -/
structure Filtered (intent : Intent) (st full : State) : Prop where
  user : st.user = full.user
  userSk : st.userSk = full.userSk
  registered : st.registered = true ∧ full.registered = true
  outgoing : st.outgoingChannels = full.outgoingChannels
  channels : ∀ a ∈ intent.transfers.map (fun t => t.1) ++ [st.user],
    st.channels[a]? = full.channels[a]?
  notes : st.notes = full.notes.filter fun n => n.token ∈ paidTokens intent

theorem filtered_of_discovery {intent : Intent} {everyone : List Felt} {st full : State}
    (hr : Answers (Outcomes.prog legal) r v)
    (hstuck : ∀ n : U32, ¬ (Outcomes.prog legal).Gives r.stuck n)
    (hregistered : Strk20.registered K v c.user ≠ 0)
    (heveryone : ∀ a, Strk20.registered K v a ≠ 0 → a ∈ everyone)
    (h : (Outcomes.prog legal).Gives (discoverState K S c r userSk intent) st)
    (hfull : (Outcomes.prog legal).Gives (discoverEverything K S c r userSk everyone) full) :
    Filtered intent st full := by
  -- what the full discovery found
  obtain ⟨pk', hpk', hfull⟩ := hfull.bind
  obtain ⟨found', hfound', hfull⟩ := hfull.bind
  obtain ⟨all, hall, hfull⟩ := hfull.bind
  obtain ⟨count', hcount', hfull⟩ := hfull.bind
  have hkey : ∀ {pk : Option Felt},
      (Outcomes.prog legal).Gives (registeredKey K r c.user) pk → pk.isSome = true := by
    intro pk hpk
    have hzero : ¬ Snapshot.read K v "get_public_key" [c.user] 0 = 0 := hregistered
    rw [gives_registeredKey hr hpk, if_neg hzero]
    rfl
  rw [hfull.pure]
  -- what the discovery for the intent found
  obtain ⟨pk, hpk, h⟩ := h.bind
  have hpk := hkey (gives_fromPool hpk)
  simp only [hpk, if_true, true_and] at h
  obtain ⟨found, hfound, h⟩ := h.bind
  obtain ⟨notes, hnotes, h⟩ : ∃ notes, notes = all.filter (fun n => n.token ∈ paidTokens intent) ∧
      (Outcomes.prog legal).Gives (do
        let outgoingChannels ← Rpc.Strk20.fromPool (outgoingChannelCount K r c.user userSk)
        return ({ user := c.user, userSk, registered := true, outgoingChannels, channels := found,
                  notes } : State)) st := by
    split at h
    · rename_i htokens
      obtain ⟨notes, hnotes, h⟩ := h.bind
      exact ⟨notes, discoverNotes_filter hr htokens (gives_fromPool hnotes) (gives_fromPool hall), h⟩
    · rename_i htokens
      obtain ⟨notes, hnotes, h⟩ := h.bind
      refine ⟨notes, ?_, h⟩
      have hnil : paidTokens intent = [] := not_not.1 htokens
      rw [hnotes.pure, hnil]
      simp
  obtain ⟨count, hcount, h⟩ := h.bind
  rw [h.pure]
  refine ⟨rfl, rfl, ⟨rfl, hkey (gives_fromPool hpk')⟩, ?_, fun a ha => ?_, hnotes⟩
  · rw [outgoingChannelCount_gives hr (gives_fromPool hcount),
      outgoingChannelCount_gives hr (gives_fromPool hcount')]
  · have hnew : a ∉ (∅ : Channels) := ExtTreeMap.not_mem_empty
    obtain ⟨ch, hch, hget⟩ := (discoverChannels_gives hfound).2 a ha hnew
    have hmem := heveryone a (discoverChannel_gives hr hstuck hch).1
    obtain ⟨ch', hch', hget'⟩ := (discoverChannels_gives hfound').2 a hmem hnew
    rw [hget, hget', discoverChannel_unique hr hstuck hch hch']

end

/-! ## Computations that end alike -/

section

variable {ρ α β α' β' : Type}

/-- The same failure, or values related by `R` with the same randomness left. -/
inductive EndsAlike (R : α → α' → Prop) :
    Option (Except Error (α × ρ)) → Option (Except Error (α' × ρ)) → Prop
  | stuck : EndsAlike R none none
  | failed (e : Error) : EndsAlike R (some (.error e)) (some (.error e))
  | done (a : α) (a' : α') (s : ρ) (h : R a a') :
      EndsAlike R (some (.ok (a, s))) (some (.ok (a', s)))

def Alike (R : α → α' → Prop) (x : Draw ρ α) (x' : Draw ρ α') : Prop :=
  ∀ s, EndsAlike R (ExceptT.run (StateT.run x s)) (ExceptT.run (StateT.run x' s))

variable {R : α → α' → Prop} {Q : β → β' → Prop}

theorem Alike.pure {a : α} {a' : α'} (h : R a a') : Alike R (pure a : Draw ρ α) (pure a') :=
  fun s => .done a a' s h

theorem Alike.throw (e : Error) : Alike R (throw e : Draw ρ α) (throw e) := fun _ => .failed e

theorem Alike.refl (x : Draw ρ α) : Alike Eq x x := by
  intro s
  cases hx : ExceptT.run (StateT.run x s) with
  | none => exact .stuck
  | some r =>
      cases r with
      | error e => exact .failed e
      | ok p => exact .done p.1 p.1 p.2 rfl

theorem Alike.bind {x : Draw ρ α} {x' : Draw ρ α'} {f : α → Draw ρ β} {f' : α' → Draw ρ β'}
    (hx : Alike R x x') (hf : ∀ a a', R a a' → Alike Q (f a) (f' a')) :
    Alike Q (x >>= f) (x' >>= f') := by
  intro s
  simp only [StateT.run_bind, ExceptT.run_bind]
  generalize hy : ExceptT.run (StateT.run x s) = y
  generalize hy' : ExceptT.run (StateT.run x' s) = y'
  have h : EndsAlike R y y' := hy ▸ hy' ▸ hx s
  cases h with
  | stuck => exact .stuck
  | failed e => exact .failed e
  | done a a' t hR => exact hf a a' hR t

theorem EndsAlike.eq {y y' : Option (Except Error (α × ρ))} (h : EndsAlike Eq y y') : y = y' := by
  cases h with
  | stuck => rfl
  | failed e => rfl
  | done a a' s h => rw [h]

theorem Alike.eq {x x' : Draw ρ α} (h : Alike Eq x x') : x = x' := funext fun s => (h s).eq

end

/-! ## What a plan looks at -/

/-- Two allocations that differ at most in channels that are not to `seen`. -/
structure SameFor (seen : List Felt) (a a' : Alloc) : Prop where
  next : a.nextChannelIndex = a'.nextChannelIndex
  openChannels : a.openChannels = a'.openChannels
  openSubchannels : a.openSubchannels = a'.openSubchannels
  createNotes : a.createNotes = a'.createNotes
  channels : ∀ x ∈ seen, a.channels[x]? = a'.channels[x]?

section

variable {ρ : Type} {rng : Randomness ρ} {seen : List Felt} {a a' : Alloc} {recipient : Felt}

theorem SameFor.insert (h : SameFor seen a a') (channel : OutgoingChannel) :
    ∀ x ∈ seen, (a.channels.insert recipient channel)[x]? =
      (a'.channels.insert recipient channel)[x]? := by
  intro x hx
  rw [TreeMap.getElem?_insert, TreeMap.getElem?_insert, h.channels x hx]

theorem SameFor.ensureChannel (h : SameFor seen a a') (hin : recipient ∈ seen) :
    Alike (SameFor seen) (ensureChannel rng recipient a) (ensureChannel rng recipient a') := by
  unfold Strk20.ensureChannel
  rw [h.channels recipient hin]
  split
  · exact .throw _
  · split_ifs
    · exact .pure h
    · refine (Alike.refl _).bind fun random _ hrandom => ?_
      subst hrandom
      refine (Alike.refl _).bind fun salt _ hsalt => ?_
      subst hsalt
      refine .pure ⟨?_, ?_, h.openSubchannels, h.createNotes, h.insert _⟩
      · rw [h.next]
      · rw [h.next, h.openChannels]

theorem SameFor.ensureSubchannel (h : SameFor seen a a') (token : Felt) (channel : OutgoingChannel) :
    Alike (fun p p' => p.1 = p'.1 ∧ SameFor seen p.2 p'.2)
      (ensureSubchannel rng recipient token channel a)
      (ensureSubchannel rng recipient token channel a') := by
  unfold Strk20.ensureSubchannel
  split
  · exact .pure ⟨rfl, h⟩
  · refine (Alike.refl _).bind fun salt _ hsalt => ?_
    subst hsalt
    refine .pure ⟨rfl, h.next, h.openChannels, ?_, h.createNotes, h.channels⟩
    rw [h.openSubchannels]

theorem SameFor.allocNote (h : SameFor seen a a') {fuel : ℕ} {n : Felt × Felt × U128}
    (hin : n.1 ∈ seen) :
    Alike (SameFor seen) (allocNote rng fuel a n) (allocNote rng fuel a' n) := by
  obtain ⟨recipient, token, amount⟩ := n
  refine (h.ensureChannel hin).bind fun b b' hb => ?_
  rw [hb.channels recipient hin]
  split
  · exact .throw _
  · refine (hb.ensureSubchannel token _).bind fun p p' hp => ?_
    obtain ⟨sub, b₁⟩ := p
    obtain ⟨sub', b₁'⟩ := p'
    obtain ⟨hsub, hb₁⟩ := hp
    simp only at hsub hb₁
    subst hsub
    refine (Alike.refl _).bind fun salt _ hsalt => ?_
    subst hsalt
    refine .pure ⟨hb₁.next, hb₁.openChannels, hb₁.openSubchannels, ?_, hb₁.insert _⟩
    rw [hb₁.createNotes]

theorem SameFor.allocNotes (h : SameFor seen a a') {fuel : ℕ} {notes : List (Felt × Felt × U128)}
    (hin : ∀ n ∈ notes, n.1 ∈ seen) :
    Alike (SameFor seen) (allocNotes rng fuel a notes) (allocNotes rng fuel a' notes) := by
  induction notes generalizing a a' with
  | nil => exact .pure h
  | cons n rest ih =>
      refine (h.allocNote (hin n List.mem_cons_self)).bind fun b b' hb => ?_
      exact ih hb fun m hm => hin m (List.mem_cons_of_mem n hm)

end

section

variable {intent : Intent} {st full : State}

theorem Filtered.assemble {ρ : Type} (h : Filtered intent st full) (rng : Randomness ρ) (C : Curve)
    (fuel : ℕ) (selected : List Note × ExtTreeMap Felt U128) :
    assemble rng C fuel intent st selected = assemble rng C fuel intent full selected := by
  have hregister : ∀ st : State, st.registered = true → registerUser rng C intent st =
      pure ([], { channels := st.channels, nextChannelIndex := st.outgoingChannels }) := by
    intro st hst
    unfold registerUser
    rw [hst, Bool.not_true, Bool.and_false]
    rfl
  refine Alike.eq ?_
  unfold Strk20.assemble
  rw [hregister st h.registered.1, hregister full h.registered.2, pure_bind, pure_bind, ← h.user]
  have hsame : SameFor (intent.transfers.map (fun t => t.1) ++ [st.user])
      { channels := st.channels, nextChannelIndex := st.outgoingChannels }
      { channels := full.channels, nextChannelIndex := full.outgoingChannels } :=
    ⟨h.outgoing, rfl, rfl, rfl, h.channels⟩
  refine (hsame.allocNotes fun n hn => ?_).bind fun b b' hb => ?_
  · rcases List.mem_append.1 hn with hn | hn
    · exact List.mem_append_left _ (List.mem_map_of_mem hn)
    · obtain ⟨x, -, rfl⟩ := List.mem_map.1 hn
      exact List.mem_append_right _ List.mem_cons_self
  · refine (Alike.refl _).bind fun withdraws _ hw => ?_
    subst hw
    rw [hb.openChannels, hb.openSubchannels, hb.createNotes]
    exact .pure rfl

end

end Strkd.Strk20
