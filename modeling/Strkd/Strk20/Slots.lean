import Strkd.Lib.Consecutive
import Strkd.Strk20.Value

/-!
# Plans allocate slots in order

The allocation loop threads the counters of channels, subchannels and notes.  `Alloc.Slots` says
what the loop has done after it reached some recipients and created the notes `done`; each counter
has then handed out consecutive 32-bit words.  A returned plan's indices are therefore consecutive
numbers exactly when no counter wraps.
-/

namespace Strkd.Strk20

open Std (ExtTreeMap)

/-! ## The slots of a list of actions -/

/-- The `OpenChannel` actions: `(recipient, index)`. -/
def channelSlots (actions : List ClientAction) : List (Felt × U32) :=
  actions.filterMap fun
    | .openChannel recipient index _ _ => some (recipient, index)
    | _ => none

/-- The `OpenSubchannel` actions to `r`: `(token, index)`. -/
def subchannelSlots (r : Felt) (actions : List ClientAction) : List (Felt × U32) :=
  actions.filterMap fun
    | .openSubchannel recipient _ _ index token _ => if recipient = r then some (token, index) else none
    | _ => none

/-- The indices of the `CreateEncNote` actions to `r` in `t`. -/
def noteSlots (r t : Felt) (actions : List ClientAction) : List U32 :=
  actions.filterMap fun
    | .createEncNote recipient _ token _ index _ =>
        if recipient = r ∧ token = t then some index else none
    | _ => none

/-- Recipient and token of every `CreateEncNote` action. -/
def notePairs (actions : List ClientAction) : List (Felt × Felt) :=
  (created actions).map fun n => (n.1, n.2.1)

/-- The index the next note of `t` takes on a channel: 0 on a subchannel yet to be opened. -/
def nextIndex (channel : OutgoingChannel) (t : Felt) : U32 :=
  ((channel.subchannels[t]?).map Subchannel.nextNoteIndex).getD 0

/-- The user registers in this batch. -/
def registers (intent : Intent) (st : State) : Bool := intent.register && !st.registered

/-- The channels a batch starts from: those of the state, and the self-channel of a user that
registers. -/
def startChannels (C : Curve) (intent : Intent) (st : State) : Channels :=
  if registers intent st then st.channels.insert st.user (selfChannel C st.user st.userSk)
  else st.channels

/-- Slots are allocated correctly by the actions of a plan. -/
structure SlotsOk (C : Curve) (intent : Intent) (st : State) (actions : List ClientAction) :
    Prop where
  sorted : actions.Pairwise fun x y => x.phase ≤ y.phase
  /-- Channels take consecutive indices, one for each recipient whose channel is not open. -/
  channelIndices : (channelSlots actions).map (fun c => c.2.toNat) =
    List.range' st.outgoingChannels.toNat (channelSlots actions).length
  channelNodup : ((channelSlots actions).map Prod.fst).Nodup
  mem_channels : ∀ r, r ∈ (channelSlots actions).map Prod.fst ↔
    (r ∈ (notePairs actions).map Prod.fst ∨ registers intent st = true ∧ r = st.user) ∧
      ∃ channel, (startChannels C intent st)[r]? = some channel ∧ channel.isOpen = false
  /-- Subchannels take consecutive indices on their channel, one for each token new to it. -/
  subchannelIndices : ∀ r channel, (startChannels C intent st)[r]? = some channel →
    (subchannelSlots r actions).map (fun c => c.2.toNat) =
      List.range' channel.subchannels.size (subchannelSlots r actions).length
  subchannelNodup : ∀ r, ((subchannelSlots r actions).map Prod.fst).Nodup
  mem_subchannels : ∀ r channel, (startChannels C intent st)[r]? = some channel →
    ∀ t, t ∈ (subchannelSlots r actions).map Prod.fst ↔
      channel.subchannels[t]? = none ∧ (r, t) ∈ notePairs actions
  /-- Notes take consecutive indices on their subchannel. -/
  noteIndices : ∀ r channel, (startChannels C intent st)[r]? = some channel →
    ∀ t, (noteSlots r t actions).map BitVec.toNat =
      List.range' (nextIndex channel t).toNat (noteSlots r t actions).length
  /-- The slots a note needs exist or are made before it, and its salt marks no open note. -/
  notes : ∀ pre post r pk t amount index salt,
    actions = pre ++ .createEncNote r pk t amount index salt :: post →
      ∃ channel, (startChannels C intent st)[r]? = some channel ∧ pk = channel.recipientPublicKey ∧
        (channel.isOpen = true ∨ ∃ i random salt, .openChannel r i random salt ∈ pre) ∧
        ((channel.subchannels[t]?).isSome ∨ ∃ i salt,
          .openSubchannel r channel.recipientPublicKey channel.key i t salt ∈ pre) ∧
        2 ≤ salt.toNat ∧ salt.toNat < 2 ^ 120
  /-- The channel of a new subchannel is open or opened before it. -/
  subchannels : ∀ pre post r pk key index t salt,
    actions = pre ++ .openSubchannel r pk key index t salt :: post →
      ∃ channel, (startChannels C intent st)[r]? = some channel ∧ pk = channel.recipientPublicKey ∧
        key = channel.key ∧
        (channel.isOpen = true ∨ ∃ i random salt, .openChannel r i random salt ∈ pre)

/-! ## What the allocation loop has done -/

/-- The channel `c` of the allocation, against the channel `channel` to `r` it started from, after
the recipients `reached` and the notes `done`, with the actions `subs` and `notes`. -/
structure ChannelSlots (channel c : OutgoingChannel) (r : Felt) (reached : List Felt)
    (done : List (Felt × Felt)) (subs notes : List ClientAction) : Prop where
  recipientPublicKey : c.recipientPublicKey = channel.recipientPublicKey
  key : c.key = channel.key
  isOpen : c.isOpen = true ↔ channel.isOpen = true ∨ r ∈ reached
  size : c.subchannels.size = channel.subchannels.size + (subchannelSlots r subs).length
  next : ∀ t, (c.subchannels[t]?).map Subchannel.nextNoteIndex =
    if (channel.subchannels[t]?).isSome ∨ (r, t) ∈ done then
      some (nextIndex channel t + BitVec.ofNat 32 (done.count (r, t)))
    else none
  indices : (subchannelSlots r subs).map Prod.snd =
    consecutive 32 channel.subchannels.size (subchannelSlots r subs).length
  nodup : ((subchannelSlots r subs).map Prod.fst).Nodup
  mem_subchannels : ∀ t, t ∈ (subchannelSlots r subs).map Prod.fst ↔
    channel.subchannels[t]? = none ∧ (r, t) ∈ done
  indices_notes : ∀ t, noteSlots r t notes =
    consecutive 32 (nextIndex channel t).toNat (done.count (r, t))

/-- The allocation started from `start` and the counter `base`, after the recipients `reached` and
the notes `done`. -/
structure Alloc.Slots {ρ : Type} (rng : Randomness ρ) (start : Channels) (base : U32) (reached : List Felt)
    (done : List (Felt × Felt)) (a : Alloc) : Prop where
  absent : ∀ r : Felt, start[r]? = none → a.channels[r]? = none
  channel : ∀ r channel, start[r]? = some channel →
    ∃ c, a.channels[r]? = some c ∧ ChannelSlots channel c r reached done a.openSubchannels a.createNotes
  next : a.nextChannelIndex = base + BitVec.ofNat 32 (channelSlots a.openChannels).length
  indices : (channelSlots a.openChannels).map Prod.snd =
    consecutive 32 base.toNat (channelSlots a.openChannels).length
  nodup : ((channelSlots a.openChannels).map Prod.fst).Nodup
  mem_channels : ∀ r, r ∈ (channelSlots a.openChannels).map Prod.fst ↔
    r ∈ reached ∧ ∃ channel, start[r]? = some channel ∧ channel.isOpen = false
  subchannels : ∀ r pk key index t salt, .openSubchannel r pk key index t salt ∈ a.openSubchannels →
    r ∈ reached ∧ ∃ channel, start[r]? = some channel ∧ pk = channel.recipientPublicKey ∧
      key = channel.key
  created : ∀ r pk t amount index salt, .createEncNote r pk t amount index salt ∈ a.createNotes →
    r ∈ reached ∧ (r, t) ∈ done ∧ (∃ channel, start[r]? = some channel ∧
      pk = channel.recipientPublicKey) ∧ openNoteSalt < salt ∧ ∃ s s', rng.salt120 s = (.ok salt, s')

theorem channelSlots_append (xs ys : List ClientAction) :
    channelSlots (xs ++ ys) = channelSlots xs ++ channelSlots ys := List.filterMap_append

theorem subchannelSlots_append (r : Felt) (xs ys : List ClientAction) :
    subchannelSlots r (xs ++ ys) = subchannelSlots r xs ++ subchannelSlots r ys :=
  List.filterMap_append

theorem noteSlots_append (r t : Felt) (xs ys : List ClientAction) :
    noteSlots r t (xs ++ ys) = noteSlots r t xs ++ noteSlots r t ys := List.filterMap_append

/-- No subchannel is opened on a channel the loop did not start from. -/
theorem Alloc.Slots.subchannelSlots_eq_nil {ρ : Type} {rng : Randomness ρ} {start : Channels}
    {base : U32} {reached : List Felt} {done : List (Felt × Felt)} {a : Alloc}
    (h : a.Slots rng start base reached done) {r : Felt} (hr : start[r]? = none) :
    subchannelSlots r a.openSubchannels = [] := by
  refine List.filterMap_eq_nil_iff.2 fun x hx => ?_
  cases x with
  | openSubchannel recipient pk key index token salt =>
    obtain ⟨-, channel, hch, -⟩ := h.subchannels _ _ _ _ _ _ hx
    have hne : recipient ≠ r := fun he => by
      rw [he, hr] at hch
      cases hch
    exact if_neg hne
  | _ => rfl

/-! ## One turn of the loop -/

section

variable {ρ : Type} {rng : Randomness ρ} {start : Channels} {base : U32} {reached : List Felt}
  {done : List (Felt × Felt)} {a : Alloc}

/-- Reaching a recipient keeps the slots of a channel, opened by then if it is that recipient's. -/
theorem ChannelSlots.reach {channel c : OutgoingChannel} {r' : Felt}
    {subs notes : List ClientAction} (h : ChannelSlots channel c r' reached done subs notes)
    (r : Felt) (isOpen : Bool) (ho : if r' = r then isOpen = true else isOpen = c.isOpen) :
    ChannelSlots channel { c with isOpen } r' (reached ++ [r]) done subs notes := by
  refine { h with isOpen := ?_ }
  rw [List.mem_append, List.mem_singleton]
  split_ifs at ho with hr
  · simp [ho, hr]
  · rw [ho, h.isOpen]
    simp [hr]

/-- An open channel is reached without any action. -/
theorem Alloc.Slots.reach (h : a.Slots rng start base reached done) {r : Felt} {c : OutgoingChannel}
    (hc : a.channels[r]? = some c) (ho : c.isOpen = true) :
    a.Slots rng start base (reached ++ [r]) done := by
  refine { h with channel := ?_, mem_channels := ?_, subchannels := ?_, created := ?_ }
  · intro r' channel hr'
    obtain ⟨c', hc', hslots⟩ := h.channel r' channel hr'
    refine ⟨c', hc', hslots.reach r c'.isOpen ?_⟩
    split_ifs with hr
    · rw [hr, hc, Option.some.injEq] at hc'
      exact hc' ▸ ho
    · rfl
  · intro r'
    rw [h.mem_channels, List.mem_append, List.mem_singleton]
    constructor
    · rintro ⟨hr, hch⟩
      exact ⟨.inl hr, hch⟩
    · rintro ⟨hr | rfl, channel, hch, hclosed⟩
      · exact ⟨hr, channel, hch, hclosed⟩
      · obtain ⟨c', hc', hslots⟩ := h.channel r' channel hch
        rw [hc, Option.some.injEq] at hc'
        subst hc'
        refine ⟨?_, channel, hch, hclosed⟩
        exact (hslots.isOpen.1 ho).resolve_left (by simp [hclosed])
  · intro r' pk key index t salt hx
    obtain ⟨hr, hch⟩ := h.subchannels r' pk key index t salt hx
    exact ⟨List.mem_append_left _ hr, hch⟩
  · intro r' pk t amount index salt hx
    obtain ⟨hr, hch⟩ := h.created r' pk t amount index salt hx
    exact ⟨List.mem_append_left _ hr, hch⟩

/-- A closed channel is opened at the next channel index. -/
theorem Alloc.Slots.openChannel (h : a.Slots rng start base reached done) {r : Felt}
    {c : OutgoingChannel} (hc : a.channels[r]? = some c) (ho : c.isOpen = false) (random salt : Felt) :
    (a.openChannel r c random salt).Slots rng start base (reached ++ [r]) done := by
  have hslots : channelSlots (a.openChannel r c random salt).openChannels =
      channelSlots a.openChannels ++ [(r, a.nextChannelIndex)] := channelSlots_append _ _
  obtain ⟨channel, hch⟩ : ∃ channel, start[r]? = some channel := by
    cases hs : start[r]? with
    | none => rw [h.absent r hs] at hc; cases hc
    | some channel => exact ⟨channel, rfl⟩
  have hclosed : channel.isOpen = false ∧ r ∉ reached := by
    obtain ⟨c', hc', hs⟩ := h.channel r channel hch
    rw [hc, Option.some.injEq] at hc'
    subst hc'
    have := hs.isOpen
    rw [ho] at this
    simpa using this
  constructor
  · intro r' hr'
    have hne : r ≠ r' := fun he => by
      rw [← he, hch] at hr'
      cases hr'
    show (a.channels.insert r _)[r']? = none
    rw [TreeMap.getElem?_insert, if_neg hne, h.absent r' hr']
  · intro r' channel' hr'
    obtain ⟨c', hc', hs⟩ := h.channel r' channel' hr'
    show ∃ c'', (a.channels.insert r { c with isOpen := true })[r']? = some c'' ∧ _
    rw [TreeMap.getElem?_insert]
    split_ifs with he
    · subst he
      rw [hc, Option.some.injEq] at hc'
      subst hc'
      exact ⟨_, rfl, hs.reach r true (by simp)⟩
    · exact ⟨c', hc', hs.reach r c'.isOpen (by simp [Ne.symm he])⟩
  · show a.nextChannelIndex + 1 = _
    rw [hslots, h.next, List.length_append, List.length_singleton, BitVec.ofNat_add, BitVec.add_assoc]
    rfl
  · rw [hslots, List.map_append, h.indices, List.length_append, List.length_singleton,
      consecutive_succ, h.next, BitVec.ofNat_add, BitVec.ofNat_toNat, BitVec.setWidth_eq]
    rfl
  · rw [hslots, List.map_append]
    refine List.nodup_append.2 ⟨h.nodup, List.nodup_singleton _, ?_⟩
    rintro r' hr' _ hr'' rfl
    rw [List.map_singleton, List.mem_singleton] at hr''
    subst hr''
    exact hclosed.2 ((h.mem_channels _).1 hr').1
  · intro r'
    rw [hslots, List.map_append, List.mem_append, h.mem_channels, List.mem_append, List.map_singleton,
      List.mem_singleton]
    constructor
    · rintro (⟨hr, hx⟩ | rfl)
      · exact ⟨.inl hr, hx⟩
      · exact ⟨.inr rfl, channel, hch, hclosed.1⟩
    · rintro ⟨hr | rfl, hx⟩
      · exact .inl ⟨hr, hx⟩
      · exact .inr rfl
  · intro r' pk key index t salt hx
    obtain ⟨hr, hx⟩ := h.subchannels r' pk key index t salt hx
    exact ⟨List.mem_append_left _ hr, hx⟩
  · intro r' pk t amount index salt hx
    obtain ⟨hr, hx⟩ := h.created r' pk t amount index salt hx
    exact ⟨List.mem_append_left _ hr, hx⟩

theorem slots_ensureChannel {r : Felt} {a' : Alloc} {s s' : ρ}
    (hret : Returns (ensureChannel rng r a) s a' s') (h : a.Slots rng start base reached done) :
    a'.Slots rng start base (reached ++ [r]) done := by
  obtain ⟨c, hc, ⟨ho, rfl⟩ | ⟨ho, random, salt, rfl⟩⟩ := returns_ensureChannel hret
  · exact h.reach hc ho
  · exact h.openChannel hc ho random salt

/-- How the subchannel of a new note in `t` was come by: it was on the channel `c`, or the action
`opened` puts it there. -/
def Subchannel.From (sub : Subchannel) (c : OutgoingChannel) (r t : Felt)
    (opened : List ClientAction) : Prop :=
  c.subchannels[t]? = some sub ∧ opened = [] ∨
    c.subchannels[t]? = none ∧ sub.nextNoteIndex = 0 ∧ ∃ random, opened =
      [.openSubchannel r c.recipientPublicKey c.key (BitVec.ofNat 32 c.subchannels.size) t random]

theorem Subchannel.From.slots_of_ne {sub : Subchannel} {c : OutgoingChannel} {r t r' : Felt}
    {opened : List ClientAction} (h : sub.From c r t opened) (hr : r' ≠ r) :
    subchannelSlots r' opened = [] := by
  rcases h with ⟨-, rfl⟩ | ⟨-, -, random, rfl⟩
  · rfl
  · simp [subchannelSlots, Ne.symm hr]

/-- The new note takes the next index of its subchannel. -/
theorem ChannelSlots.nextNoteIndex {channel c : OutgoingChannel} {r t : Felt} {sub : Subchannel}
    {subs notes opened : List ClientAction} (h : ChannelSlots channel c r reached done subs notes)
    (hsub : sub.From c r t opened) :
    sub.nextNoteIndex = nextIndex channel t + BitVec.ofNat 32 (done.count (r, t)) := by
  have hnext := h.next t
  rcases hsub with ⟨hc, -⟩ | ⟨hc, hzero, -⟩
  · rw [hc] at hnext
    split_ifs at hnext with hex
    · exact Option.some.inj hnext
    · cases hnext
  · rw [hc] at hnext
    split_ifs at hnext with hex
    · cases hnext
    rw [not_or, Option.not_isSome_iff_eq_none] at hex
    rw [hzero, List.count_eq_zero.2 hex.2, nextIndex, hex.1]
    rfl

/-- Creating a note in `t` keeps the slots of its channel. -/
theorem ChannelSlots.createNote {channel c : OutgoingChannel} {r t : Felt} {amount salt : U128}
    {sub : Subchannel} {subs notes opened : List ClientAction}
    (h : ChannelSlots channel c r reached done subs notes) (hsub : sub.From c r t opened) :
    ChannelSlots channel
      { c with subchannels := c.subchannels.insert t { sub with
          nextNoteIndex := sub.nextNoteIndex + 1 } }
      r reached (done ++ [(r, t)]) (subs ++ opened)
      (notes ++ [.createEncNote r c.recipientPublicKey t amount sub.nextNoteIndex salt]) := by
  have hindex := h.nextNoteIndex hsub
  have hcount : ∀ t', (done ++ [(r, t)]).count (r, t') =
      done.count (r, t') + if t = t' then 1 else 0 := fun t' => by
    rw [List.count_append, List.count_singleton]
    by_cases ht : t = t' <;> simp [ht]
  have hmem : ∀ t', (r, t') ∈ done ++ [(r, t)] ↔ (r, t') ∈ done ∨ t' = t := fun t' => by
    simp
  have hknown : (channel.subchannels[t]?).isSome ∨ (r, t) ∈ done ↔ (c.subchannels[t]?).isSome := by
    have := congrArg Option.isSome (h.next t)
    rw [Option.isSome_map] at this
    rw [this]
    split_ifs with hk
    · exact iff_of_true hk rfl
    · exact iff_of_false hk Bool.false_ne_true
  constructor
  · exact h.recipientPublicKey
  · exact h.key
  · exact h.isOpen
  · rw [subchannelSlots_append, List.length_append, ← Nat.add_assoc, ← h.size]
    rcases hsub with ⟨hc, rfl⟩ | ⟨hc, -, random, rfl⟩
    · rw [TreeMap.size_insert_of_some hc]
      rfl
    · rw [TreeMap.size_insert_of_none hc]
      simp [subchannelSlots]
  · intro t'
    rw [TreeMap.getElem?_insert, hcount]
    by_cases ht : t = t'
    · subst ht
      rw [if_pos rfl, if_pos rfl, if_pos (.inr ((hmem t).2 (.inr rfl)))]
      simp only [Option.map_some, hindex, BitVec.ofNat_add, BitVec.add_assoc]
      rfl
    · rw [if_neg ht, if_neg ht, h.next t', Nat.add_zero]
      simp only [hmem, Ne.symm ht, or_false]
  · rw [subchannelSlots_append, List.map_append, List.length_append, h.indices]
    rcases hsub with ⟨-, rfl⟩ | ⟨-, -, random, rfl⟩
    · simp [subchannelSlots]
    · have hone : subchannelSlots r [.openSubchannel r c.recipientPublicKey c.key
          (BitVec.ofNat 32 c.subchannels.size) t random] =
            [(t, BitVec.ofNat 32 c.subchannels.size)] := by simp [subchannelSlots]
      rw [hone, List.length_singleton, consecutive_succ, h.size]
      rfl
  · rw [subchannelSlots_append, List.map_append]
    rcases hsub with ⟨-, rfl⟩ | ⟨hc, -, random, rfl⟩
    · simpa [subchannelSlots] using h.nodup
    · refine List.nodup_append.2 ⟨h.nodup, by simp [subchannelSlots], ?_⟩
      rintro t' ht' _ ht'' rfl
      have ht : t' = t := by simpa [subchannelSlots] using ht''
      subst ht
      exact absurd (hknown.1 (.inr ((h.mem_subchannels t').1 ht').2)) (by simp [hc])
  · intro t'
    rw [subchannelSlots_append, List.map_append, List.mem_append, h.mem_subchannels, hmem]
    rcases hsub with ⟨hc, rfl⟩ | ⟨hc, -, random, rfl⟩
    · have hk := hknown.2 (by simp [hc])
      constructor
      · rintro (⟨hn, hd⟩ | hd)
        · exact ⟨hn, .inl hd⟩
        · cases hd
      · rintro ⟨hn, hd | rfl⟩
        · exact .inl ⟨hn, hd⟩
        · exact .inl ⟨hn, hk.resolve_left (by simp [hn])⟩
    · have hk := mt hknown.1 (by simp [hc])
      rw [not_or, Option.not_isSome_iff_eq_none] at hk
      have hone : t' ∈ (subchannelSlots r [.openSubchannel r c.recipientPublicKey c.key
          (BitVec.ofNat 32 c.subchannels.size) t random]).map Prod.fst ↔ t' = t := by
        simp [subchannelSlots]
      rw [hone]
      constructor
      · rintro (⟨hn, hd⟩ | rfl)
        · exact ⟨hn, .inl hd⟩
        · exact ⟨hk.1, .inr rfl⟩
      · rintro ⟨hn, hd | rfl⟩
        · exact .inl ⟨hn, hd⟩
        · exact .inr rfl
  · intro t'
    rw [noteSlots_append, h.indices_notes, hcount]
    by_cases ht : t = t'
    · subst ht
      rw [if_pos rfl, consecutive_succ, hindex, BitVec.ofNat_add, BitVec.ofNat_toNat,
        BitVec.setWidth_eq]
      simp [noteSlots]
    · rw [if_neg ht, Nat.add_zero]
      simp [noteSlots, ht]

/-- Creating a note to `r` leaves the slots of the other channels alone. -/
theorem ChannelSlots.createNote_of_ne {channel c d : OutgoingChannel} {r r' t : Felt}
    {amount salt : U128} {sub : Subchannel} {subs notes opened : List ClientAction} {pk : Felt}
    {index : U32} (h : ChannelSlots channel c r' reached done subs notes) (hr : r' ≠ r)
    (hsub : sub.From d r t opened) :
    ChannelSlots channel c r' reached (done ++ [(r, t)]) (subs ++ opened)
      (notes ++ [.createEncNote r pk t amount index salt]) := by
  have hslots : subchannelSlots r' (subs ++ opened) = subchannelSlots r' subs := by
    rw [subchannelSlots_append, hsub.slots_of_ne hr, List.append_nil]
  have hcount : ∀ t', (done ++ [(r, t)]).count (r', t') = done.count (r', t') := fun t' => by
    simp [List.count_append, Ne.symm hr]
  have hmem : ∀ t', (r', t') ∈ done ++ [(r, t)] ↔ (r', t') ∈ done := fun t' => by
    simp [hr]
  refine ⟨h.recipientPublicKey, h.key, h.isOpen, hslots ▸ h.size, fun t' => ?_, hslots ▸ h.indices,
    hslots ▸ h.nodup, fun t' => ?_, fun t' => ?_⟩
  · simp only [hmem, hcount, h.next t']
  · rw [hslots, hmem, h.mem_subchannels]
  · rw [noteSlots_append, hcount, h.indices_notes]
    simp [noteSlots, Ne.symm hr]

/-- Creating a note keeps the slots of the allocation. -/
theorem Alloc.Slots.createNote (h : a.Slots rng start base reached done) {r t : Felt}
    {amount salt : U128} {c : OutgoingChannel} {sub : Subchannel} {opened : List ClientAction}
    (hr : r ∈ reached) (hc : a.channels[r]? = some c) (hsub : sub.From c r t opened)
    (hsalt : openNoteSalt < salt ∧ ∃ s s', rng.salt120 s = (.ok salt, s')) :
    (a.createNote r t amount c opened sub salt).Slots rng start base reached (done ++ [(r, t)]) := by
  obtain ⟨channel, hch⟩ : ∃ channel, start[r]? = some channel := by
    cases hs : start[r]? with
    | none => rw [h.absent r hs] at hc; cases hc
    | some channel => exact ⟨channel, rfl⟩
  have hslots : ChannelSlots channel c r reached done a.openSubchannels a.createNotes := by
    obtain ⟨c', hc', hs⟩ := h.channel r channel hch
    rw [hc, Option.some.injEq] at hc'
    exact hc' ▸ hs
  refine ⟨?_, ?_, h.next, h.indices, h.nodup, h.mem_channels, ?_, ?_⟩
  · intro r' hr'
    have hne : r ≠ r' := fun he => by
      rw [← he, hch] at hr'
      cases hr'
    show (a.channels.insert r _)[r']? = none
    rw [TreeMap.getElem?_insert, if_neg hne, h.absent r' hr']
  · intro r' channel' hr'
    obtain ⟨c', hc', hs⟩ := h.channel r' channel' hr'
    show ∃ c'', (a.channels.insert r _)[r']? = some c'' ∧ _
    rw [TreeMap.getElem?_insert]
    split_ifs with he
    · subst he
      rw [hch, Option.some.injEq] at hr'
      subst hr'
      exact ⟨_, rfl, hslots.createNote hsub⟩
    · exact ⟨c', hc', hs.createNote_of_ne (Ne.symm he) hsub⟩
  · intro r' pk key index t' salt' hx
    rcases List.mem_append.1 hx with hx | hx
    · exact h.subchannels r' pk key index t' salt' hx
    · rcases hsub with ⟨-, rfl⟩ | ⟨-, -, random, rfl⟩
      · cases hx
      · cases List.mem_singleton.1 hx
        exact ⟨hr, channel, hch, hslots.recipientPublicKey, hslots.key⟩
  · intro r' pk t' amount' index salt' hx
    rcases List.mem_append.1 hx with hx | hx
    · obtain ⟨hr', hd, hrest⟩ := h.created r' pk t' amount' index salt' hx
      exact ⟨hr', List.mem_append_left _ hd, hrest⟩
    · cases List.mem_singleton.1 hx
      exact ⟨hr, List.mem_append_right _ (List.mem_singleton.2 rfl),
        ⟨channel, hch, hslots.recipientPublicKey⟩, hsalt⟩

/-! ## The whole loop -/

theorem slots_allocNote {fuel : ℕ} {r t : Felt} {amount : U128} {a' : Alloc} {s s' : ρ}
    (hret : Returns (allocNote rng fuel a (r, t, amount)) s a' s')
    (h : a.Slots rng start base reached done) :
    a'.Slots rng start base (reached ++ [r]) (done ++ [(r, t)]) := by
  obtain ⟨a₁, s₁, c, salt, hens, hc, hsalt, hsub⟩ := returns_allocNote hret
  have h₁ := slots_ensureChannel hens h
  have hr : r ∈ reached ++ [r] := List.mem_append_right _ (List.mem_singleton.2 rfl)
  rcases hsub with ⟨sub, ht, rfl⟩ | ⟨ht, random, rfl⟩
  · exact h₁.createNote hr hc (.inl ⟨ht, rfl⟩) hsalt
  · exact h₁.createNote hr hc (.inr ⟨ht, rfl, random, rfl⟩) hsalt

theorem slots_allocNotes {fuel : ℕ} {notes : List (Felt × Felt × U128)} {a' : Alloc} {s s' : ρ}
    (hret : Returns (allocNotes rng fuel a notes) s a' s')
    (h : a.Slots rng start base reached done) :
    a'.Slots rng start base (reached ++ notes.map Prod.fst)
      (done ++ notes.map fun n => (n.1, n.2.1)) := by
  induction notes generalizing a reached done s with
  | nil =>
    obtain ⟨rfl, -⟩ := returns_pure.1 hret
    simpa using h
  | cons n rest ih =>
    obtain ⟨r, t, amount⟩ := n
    obtain ⟨a₁, s₁, hn, hret⟩ := returns_bind.1 hret
    have := ih hret (slots_allocNote hn h)
    rwa [List.append_assoc, List.append_assoc] at this

end

/-! ## The slots a batch needs -/

/-- The tokens of an intent. -/
def Intent.tokens (intent : Intent) : List Felt :=
  intent.deposits.map Prod.fst ++ (intent.transfers ++ intent.withdrawals).map fun t => t.2.1

/-- Recipient and token of the notes a batch creates: its transfers, and the change. -/
def neededPairs (intent : Intent) (st : State) : List (Felt × Felt) :=
  intent.transfers.map (fun t => (t.1, t.2.1)) ++
    ((intent.tokens.dedup.filter fun t => ReturnsChange intent st t).map fun t => (st.user, t))

/-- The recipients whose channel the batch has to open. -/
def channelsToOpen (C : Curve) (intent : Intent) (st : State) : Finset Felt :=
  ((neededPairs intent st).map Prod.fst ++ if registers intent st then [st.user] else []).toFinset.filter
    fun r => ((startChannels C intent st)[r]?).any fun channel => !channel.isOpen

/-- The tokens the batch has to open a subchannel for on the channel to `r`. -/
def subchannelsToOpen (intent : Intent) (st : State) (r : Felt) (channel : OutgoingChannel) :
    Finset Felt :=
  (((neededPairs intent st).filter fun x => x.1 = r).map Prod.snd).toFinset.filter
    fun t => (channel.subchannels[t]?).isNone

/-- No counter of the batch wraps: every index it hands out is a 32-bit number. -/
structure SlotsFit (C : Curve) (intent : Intent) (st : State) : Prop where
  channels : st.outgoingChannels.toNat + (channelsToOpen C intent st).card ≤ 2 ^ 32
  subchannels : ∀ r channel, (startChannels C intent st)[r]? = some channel →
    (subchannelsToOpen intent st r channel).card ≠ 0 →
      channel.subchannels.size + (subchannelsToOpen intent st r channel).card ≤ 2 ^ 32
  notes : ∀ r channel, (startChannels C intent st)[r]? = some channel →
    ∀ t, (nextIndex channel t).toNat + (neededPairs intent st).count (r, t) ≤ 2 ^ 32

/-- A net amount that is not zero is that of a token of the intent. -/
theorem mem_tokens_of_returnsChange {intent : Intent} {st : State} {t : Felt}
    (h : ReturnsChange intent st t) : t ∈ intent.tokens := by
  by_contra hnot
  rw [Intent.tokens, List.mem_append, not_or] at hnot
  have hdep : total t intent.deposits = 0 :=
    total_eq_zero fun x hx he => hnot.1 (List.mem_map.2 ⟨x, hx, he⟩)
  have hpay : total t ((intent.transfers ++ intent.withdrawals).map Prod.snd) = 0 := by
    refine total_eq_zero fun x hx he => hnot.2 ?_
    obtain ⟨y, hy, rfl⟩ := List.mem_map.1 hx
    exact List.mem_map.2 ⟨y, hy, he⟩
  have hnet : intent.net t = 0 := by
    rw [Intent.net, hdep, hpay, sub_zero]
  unfold ReturnsChange at h
  rw [hnet] at h
  rcases h with h | ⟨h, -⟩
  · exact absurd h (by decide)
  · exact absurd h (by decide)

/-- The notes of a plan are the needed ones, up to the order of the change. -/
theorem perm_neededPairs {intent : Intent} {st : State} {spends : List Note}
    {change : ExtTreeMap Felt U128} (h : Selects intent st spends change) :
    ((newNotes intent st.user change).map fun n => (n.1, n.2.1)).Perm (neededPairs intent st) := by
  have hkeys : (change.toList.map Prod.fst).Perm
      (intent.tokens.dedup.filter fun t => ReturnsChange intent st t) := by
    refine (List.perm_ext_iff_of_nodup (TreeMap.nodup_keys change)
      ((List.nodup_dedup _).filter _)).2 fun t => ?_
    rw [TreeMap.mem_keys_iff, h.change_isSome_iff, List.mem_filter, List.mem_dedup, decide_eq_true_eq]
    exact ⟨fun hc => ⟨mem_tokens_of_returnsChange hc, hc⟩, fun hc => hc.2⟩
  unfold newNotes neededPairs
  rw [List.map_append, List.map_map]
  refine List.Perm.append_left _ ?_
  have := hkeys.map fun t => (st.user, t)
  rwa [List.map_map] at this

/-! ## The plan -/

theorem channelSlots_of_inPhase {ph : Phase} {xs : List ClientAction} (h : InPhase ph xs)
    (hph : ph ≠ .channel) : channelSlots xs = [] := by
  refine List.filterMap_eq_nil_iff.2 fun x hx => ?_
  have := h x hx
  cases x <;> first | rfl | exact absurd this.symm hph

theorem subchannelSlots_of_inPhase {ph : Phase} {xs : List ClientAction} (r : Felt)
    (h : InPhase ph xs) (hph : ph ≠ .subchannel) : subchannelSlots r xs = [] := by
  refine List.filterMap_eq_nil_iff.2 fun x hx => ?_
  have := h x hx
  cases x <;> first | rfl | exact absurd this.symm hph

theorem noteSlots_of_inPhase {ph : Phase} {xs : List ClientAction} (r t : Felt) (h : InPhase ph xs)
    (hph : ph ≠ .createNotes) : noteSlots r t xs = [] := by
  refine List.filterMap_eq_nil_iff.2 fun x hx => ?_
  have := h x hx
  cases x <;> first | rfl | exact absurd this.symm hph

/-- In a sorted list, an action of an earlier phase comes before. -/
theorem mem_pre_of_phase_lt {actions pre post : List ClientAction} {x y : ClientAction}
    (hs : actions.Pairwise fun x y => x.phase ≤ y.phase) (hx : actions = pre ++ x :: post)
    (hy : y ∈ actions) (hlt : y.phase < x.phase) : y ∈ pre := by
  subst hx
  rcases List.mem_append.1 hy with hy | hy
  · exact hy
  · rcases List.mem_cons.1 hy with rfl | hy
    · exact absurd hlt (lt_irrefl _)
    · have := (List.pairwise_cons.1 (List.pairwise_append.1 hs).2.1).1 y hy
      exact absurd this (not_le.2 hlt)

section

variable {ρ : Type} {rng : Randomness ρ} {C : Curve} {fuel : ℕ} {intent : Intent} {st : State}
  {p : Plan}

/-- The recipients a batch reaches: the user if it registers, then those of its notes. -/
def Assembled.reached (_ : Assembled rng C fuel intent st p) : List Felt :=
  (if registers intent st then [st.user] else []) ++
    (newNotes intent st.user p.change).map Prod.fst

theorem Assembled.slots (h : Assembled rng C fuel intent st p) :
    h.final.Slots rng (startChannels C intent st) st.outgoingChannels h.reached
      ((newNotes intent st.user p.change).map fun n => (n.1, n.2.1)) := by
  have hinit : Alloc.Slots rng (startChannels C intent st) st.outgoingChannels [] []
      { channels := startChannels C intent st, nextChannelIndex := st.outgoingChannels } := by
    refine ⟨fun r hr => hr, fun r channel hr => ⟨channel, hr, ?_⟩, by simp [channelSlots], rfl,
      by simp [channelSlots], by simp [channelSlots], by simp, by simp⟩
    refine ⟨rfl, rfl, by simp, by simp [subchannelSlots], fun t => ?_, rfl, by simp [subchannelSlots],
      by simp [subchannelSlots], fun t => rfl⟩
    unfold nextIndex
    cases channel.subchannels[t]? <;> simp
  have hstart : h.start.Slots rng (startChannels C intent st) st.outgoingChannels
      (if registers intent st then [st.user] else []) [] := by
    rcases returns_registerUser h.started with ⟨hreg, -, hstart⟩ | ⟨hreg, -, random, salt, hstart⟩
    · have hreg : registers intent st = false := hreg
      rw [startChannels, hreg] at hinit ⊢
      rw [hstart]
      exact hinit
    · have hreg : registers intent st = true := hreg
      rw [startChannels, hreg] at hinit ⊢
      rw [hstart]
      refine hinit.openChannel ?_ rfl random salt
      exact (TreeMap.getElem?_insert ..).trans (if_pos rfl)
  exact slots_allocNotes h.allocated hstart

theorem Assembled.channelSlots_eq (h : Assembled rng C fuel intent st p) :
    channelSlots p.actions = channelSlots h.final.openChannels := by
  obtain ⟨hacc, -, -⟩ := h.start_phased
  obtain ⟨⟨-, hsub, hnotes⟩, -⟩ := h.phased
  rw [h.actions]
  simp only [channelSlots_append, channelSlots_of_inPhase hacc (by decide),
    channelSlots_of_inPhase hsub (by decide),
    channelSlots_of_inPhase (inPhase_deposits intent.deposits) (by decide),
    channelSlots_of_inPhase (inPhase_useNotes h.spends) (by decide),
    channelSlots_of_inPhase hnotes (by decide),
    channelSlots_of_inPhase (inPhase_withdraws h.withdrawn) (by decide), List.nil_append,
    List.append_nil]

theorem Assembled.subchannelSlots_eq (h : Assembled rng C fuel intent st p) (r : Felt) :
    subchannelSlots r p.actions = subchannelSlots r h.final.openSubchannels := by
  obtain ⟨hacc, -, -⟩ := h.start_phased
  obtain ⟨⟨hch, -, hnotes⟩, -⟩ := h.phased
  rw [h.actions]
  simp only [subchannelSlots_append, subchannelSlots_of_inPhase r hacc (by decide),
    subchannelSlots_of_inPhase r hch (by decide),
    subchannelSlots_of_inPhase r (inPhase_deposits intent.deposits) (by decide),
    subchannelSlots_of_inPhase r (inPhase_useNotes h.spends) (by decide),
    subchannelSlots_of_inPhase r hnotes (by decide),
    subchannelSlots_of_inPhase r (inPhase_withdraws h.withdrawn) (by decide), List.nil_append,
    List.append_nil]

theorem Assembled.noteSlots_eq (h : Assembled rng C fuel intent st p) (r t : Felt) :
    noteSlots r t p.actions = noteSlots r t h.final.createNotes := by
  obtain ⟨hacc, -, -⟩ := h.start_phased
  obtain ⟨⟨hch, hsub, -⟩, -⟩ := h.phased
  rw [h.actions]
  simp only [noteSlots_append, noteSlots_of_inPhase r t hacc (by decide),
    noteSlots_of_inPhase r t hch (by decide), noteSlots_of_inPhase r t hsub (by decide),
    noteSlots_of_inPhase r t (inPhase_deposits intent.deposits) (by decide),
    noteSlots_of_inPhase r t (inPhase_useNotes h.spends) (by decide),
    noteSlots_of_inPhase r t (inPhase_withdraws h.withdrawn) (by decide), List.nil_append,
    List.append_nil]

theorem Assembled.notePairs_eq (h : Assembled rng C fuel intent st p) :
    notePairs p.actions = (newNotes intent st.user p.change).map fun n => (n.1, n.2.1) := by
  unfold notePairs
  rw [(moves_of_assembled h).created]
  rfl

/-- The part of a plan an action comes from is determined by its phase. -/
theorem Assembled.mem_part (h : Assembled rng C fuel intent st p) {x : ClientAction}
    (hx : x ∈ p.actions) : (x.phase = .subchannel → x ∈ h.final.openSubchannels) ∧
      (x.phase = .createNotes → x ∈ h.final.createNotes) := by
  obtain ⟨hacc, -, -⟩ := h.start_phased
  obtain ⟨⟨hch, hsub, hnotes⟩, -⟩ := h.phased
  rw [h.actions] at hx
  simp only [List.mem_append] at hx
  rcases hx with (((((hx | hx) | hx) | hx) | hx) | hx) | hx
  · simp [hacc x hx]
  · simp [hch x hx]
  · simp [hsub x hx, hx]
  · simp [inPhase_deposits _ x hx]
  · simp [inPhase_useNotes _ x hx]
  · simp [hnotes x hx, hx]
  · simp [inPhase_withdraws h.withdrawn x hx]

/-- A closed channel of a reached recipient is opened before any later phase. -/
theorem Assembled.openChannel_mem_pre (h : Assembled rng C fuel intent st p) {r : Felt}
    {channel : OutgoingChannel} (hch : (startChannels C intent st)[r]? = some channel)
    (hr : r ∈ h.reached) {pre post : List ClientAction} {x : ClientAction}
    (hx : p.actions = pre ++ x :: post) (hlt : Phase.channel < x.phase) :
    channel.isOpen = true ∨ ∃ i random salt, .openChannel r i random salt ∈ pre := by
  cases ho : channel.isOpen with
  | true => exact .inl rfl
  | false =>
    have hmem := (h.slots.mem_channels r).2 ⟨hr, channel, hch, ho⟩
    obtain ⟨slot, hslot, rfl⟩ := List.mem_map.1 hmem
    obtain ⟨y, hy, hyslot⟩ := List.mem_filterMap.1 hslot
    cases y with
    | openChannel recipient i random salt =>
      cases hyslot
      refine .inr ⟨i, random, salt, mem_pre_of_phase_lt h.sorted hx ?_ hlt⟩
      rw [h.actions]
      simp only [List.mem_append]
      exact .inl (.inl (.inl (.inl (.inl (.inr hy)))))
    | _ => cases hyslot

/-- The subchannel a note is created on is known or opened before it. -/
theorem Assembled.openSubchannel_mem_pre (h : Assembled rng C fuel intent st p) {r t : Felt}
    {channel : OutgoingChannel} (hch : (startChannels C intent st)[r]? = some channel)
    (hd : (r, t) ∈ (newNotes intent st.user p.change).map fun n => (n.1, n.2.1))
    {pre post : List ClientAction} {x : ClientAction}
    (hx : p.actions = pre ++ x :: post) (hlt : Phase.subchannel < x.phase) :
    (channel.subchannels[t]?).isSome ∨ ∃ i salt,
      .openSubchannel r channel.recipientPublicKey channel.key i t salt ∈ pre := by
  cases ht : channel.subchannels[t]? with
  | some sub => exact .inl rfl
  | none =>
    obtain ⟨c, -, hs⟩ := h.slots.channel r channel hch
    obtain ⟨slot, hslot, rfl⟩ := List.mem_map.1 ((hs.mem_subchannels t).2 ⟨ht, hd⟩)
    obtain ⟨y, hy, hyslot⟩ := List.mem_filterMap.1 hslot
    cases y with
    | openSubchannel recipient pk key i token salt =>
      simp only [Option.ite_none_right_eq_some, Option.some.injEq] at hyslot
      obtain ⟨rfl, rfl⟩ := hyslot
      obtain ⟨-, channel', hch', rfl, rfl⟩ := h.slots.subchannels _ _ _ _ _ _ hy
      rw [hch, Option.some.injEq] at hch'
      subst hch'
      refine .inr ⟨i, salt, mem_pre_of_phase_lt h.sorted hx ?_ hlt⟩
      rw [h.actions]
      simp only [List.mem_append]
      exact .inl (.inl (.inl (.inl (.inr hy))))
    | _ => cases hyslot

theorem card_channelsToOpen (h : Assembled rng C fuel intent st p) :
    (channelSlots p.actions).length = (channelsToOpen C intent st).card := by
  rw [h.channelSlots_eq, ← List.length_map Prod.fst, ← List.toFinset_card_of_nodup h.slots.nodup]
  congr 1
  ext r
  have hperm := (perm_neededPairs (selects_of_selectNotes h.selected)).map Prod.fst
  rw [List.map_map] at hperm
  rw [List.mem_toFinset, h.slots.mem_channels, channelsToOpen, Finset.mem_filter, List.mem_toFinset,
    List.mem_append, ← hperm.mem_iff, Assembled.reached, List.mem_append, or_comm]
  refine and_congr Iff.rfl ?_
  cases (startChannels C intent st)[r]? <;> simp

theorem card_subchannelsToOpen (h : Assembled rng C fuel intent st p) {r : Felt}
    {channel : OutgoingChannel} (hch : (startChannels C intent st)[r]? = some channel) :
    (subchannelSlots r p.actions).length = (subchannelsToOpen intent st r channel).card := by
  obtain ⟨c, -, hs⟩ := h.slots.channel r channel hch
  rw [h.subchannelSlots_eq, ← List.length_map Prod.fst, ← List.toFinset_card_of_nodup hs.nodup]
  congr 1
  ext t
  have hperm := perm_neededPairs (selects_of_selectNotes h.selected)
  rw [List.mem_toFinset, hs.mem_subchannels, subchannelsToOpen, Finset.mem_filter, List.mem_toFinset,
    hperm.mem_iff, and_comm, Option.isNone_iff_eq_none]
  refine and_congr ?_ Iff.rfl
  simp

/-- A returned plan allocates slots correctly exactly when no counter wraps. -/
theorem slotsOk_iff (h : Assembled rng C fuel intent st p)
    (hrng : ∀ s salt s', rng.salt120 s = (.ok salt, s') → salt.toNat < 2 ^ 120) :
    SlotsOk C intent st p.actions ↔ SlotsFit C intent st := by
  have hslots := h.slots
  have hperm := perm_neededPairs (selects_of_selectNotes h.selected)
  have hchannels : (channelSlots p.actions).map (fun c => c.2.toNat) =
      (consecutive 32 st.outgoingChannels.toNat (channelSlots p.actions).length).map BitVec.toNat := by
    rw [h.channelSlots_eq, ← hslots.indices, List.map_map]
    rfl
  have hsubs : ∀ r channel, (startChannels C intent st)[r]? = some channel →
      (subchannelSlots r p.actions).map (fun c => c.2.toNat) =
        (consecutive 32 channel.subchannels.size (subchannelSlots r p.actions).length).map
          BitVec.toNat := by
    intro r channel hch
    obtain ⟨c, -, hs⟩ := hslots.channel r channel hch
    rw [h.subchannelSlots_eq, ← hs.indices, List.map_map]
    rfl
  have hnotes : ∀ r channel, (startChannels C intent st)[r]? = some channel → ∀ t,
      noteSlots r t p.actions =
        consecutive 32 (nextIndex channel t).toNat ((neededPairs intent st).count (r, t)) := by
    intro r channel hch t
    obtain ⟨c, -, hs⟩ := hslots.channel r channel hch
    rw [h.noteSlots_eq, hs.indices_notes, hperm.count_eq]
  constructor
  · intro hok
    refine ⟨?_, fun r channel hch => ?_, fun r channel hch t => ?_⟩
    · have := hok.channelIndices
      rw [hchannels, map_toNat_consecutive_iff, card_channelsToOpen h] at this
      have := st.outgoingChannels.isLt
      omega
    · have := hok.subchannelIndices r channel hch
      rwa [hsubs r channel hch, map_toNat_consecutive_iff, card_subchannelsToOpen h hch] at this
    · have := hok.noteIndices r channel hch t
      rw [hnotes r channel hch, length_consecutive, map_toNat_consecutive_iff] at this
      have := (nextIndex channel t).isLt
      omega
  · intro hfit
    constructor
    · exact h.sorted
    · rw [hchannels, map_toNat_consecutive_iff, card_channelsToOpen h]
      exact fun _ => hfit.channels
    · rw [h.channelSlots_eq]
      exact hslots.nodup
    · intro r
      rw [h.channelSlots_eq, hslots.mem_channels, h.notePairs_eq, Assembled.reached, List.mem_append,
        or_comm, List.map_map]
      refine and_congr (or_congr Iff.rfl ?_) Iff.rfl
      split_ifs with hreg <;> simp [hreg]
    · intro r channel hch
      rw [hsubs r channel hch, map_toNat_consecutive_iff, card_subchannelsToOpen h hch]
      exact hfit.subchannels r channel hch
    · intro r
      rw [h.subchannelSlots_eq]
      cases hch : (startChannels C intent st)[r]? with
      | some channel =>
        obtain ⟨c, -, hs⟩ := hslots.channel r channel hch
        exact hs.nodup
      | none =>
        rw [hslots.subchannelSlots_eq_nil hch]
        exact List.nodup_nil
    · intro r channel hch t
      obtain ⟨c, -, hs⟩ := hslots.channel r channel hch
      rw [h.subchannelSlots_eq, hs.mem_subchannels, h.notePairs_eq]
    · intro r channel hch t
      rw [hnotes r channel hch, length_consecutive, map_toNat_consecutive_iff]
      exact fun _ => hfit.notes r channel hch t
    · intro pre post r pk t amount index salt hx
      have hmem := (h.mem_part (hx ▸ List.mem_append_right pre (.head _))).2 rfl
      obtain ⟨hr, hd, ⟨channel, hch, hpk⟩, hsalt, s, s', hdraw⟩ := hslots.created _ _ _ _ _ _ hmem
      have hlt : Phase.channel < Phase.createNotes ∧ Phase.subchannel < Phase.createNotes := by decide
      exact ⟨channel, hch, hpk, h.openChannel_mem_pre hch hr hx hlt.1,
        h.openSubchannel_mem_pre hch hd hx hlt.2, hsalt, hrng s salt s' hdraw⟩
    · intro pre post r pk key index t salt hx
      have hmem := (h.mem_part (hx ▸ List.mem_append_right pre (.head _))).1 rfl
      obtain ⟨hr, channel, hch, hpk, hkey⟩ := hslots.subchannels _ _ _ _ _ _ hmem
      have hlt : Phase.channel < Phase.subchannel := by decide
      exact ⟨channel, hch, hpk, hkey, h.openChannel_mem_pre hch hr hx hlt⟩

/-- A returned plan allocates slots correctly if and only if no 32-bit counter of the batch wraps. -/
theorem plan_slots {s s' : ρ} (hrng : ∀ s salt s', rng.salt120 s = (.ok salt, s') →
    salt.toNat < 2 ^ 120) (h : Returns (plan rng C fuel intent st) s p s') :
    SlotsOk C intent st p.actions ↔ SlotsFit C intent st := by
  obtain ⟨ha⟩ := returns_plan h
  exact slotsOk_iff ha hrng

end

theorem plan_slots_oneNote : ∃ p,
    SlotsOk zeroCurve { withdrawals := [(3, 7, 30)] } oneNote p ↔
      SlotsFit zeroCurve { withdrawals := [(3, 7, 30)] } oneNote := by
  have hsome : (result (plan constantRandomness zeroCurve 1 { withdrawals := [(3, 7, 30)] }
      oneNote) ()).isSome := by decide +kernel
  obtain ⟨p, hp⟩ := Option.isSome_iff_exists.1 hsome
  obtain ⟨s', h⟩ := returns_of_result hp
  refine ⟨p.actions, plan_slots (fun s salt s' hs => ?_) h⟩
  cases hs
  decide

/-! ## A wrapping counter -/

/-- A state as discovery builds it. -/
structure Discovered (st : State) : Prop where
  keyed : ∀ (r : Felt) (channel : OutgoingChannel), st.channels[r]? = some channel →
    channel.recipient = r
  indices : ∀ (r : Felt) (channel : OutgoingChannel), st.channels[r]? = some channel →
    (channel.subchannels.toList.map fun x => x.2.index.toNat).Perm
      (List.range channel.subchannels.size)
  closed : ∀ (r : Felt) (channel : OutgoingChannel), st.channels[r]? = some channel →
    channel.isOpen = false → channel.subchannels = ∅

/-- A user whose own subchannel has a single note index left. -/
def lastIndex : State where
  user := 1
  userSk := 5
  registered := true
  outgoingChannels := 1
  channels := (∅ : Channels).insert 1
    { recipient := 1, recipientPublicKey := 6, key := 8, isOpen := true,
      subchannels := (∅ : ExtTreeMap Felt Subchannel).insert 7 ⟨0, 2 ^ 32 - 1⟩ }
  notes := []

/-- A deposit of 10, 3 of it as a note to the user and 7 as change. -/
def twoSelfNotes : Intent where
  deposits := [(7, 10)]
  transfers := [(1, 7, 3)]

theorem discovered_lastIndex : Discovered lastIndex := by
  have hone : ∀ (r : Felt) (channel : OutgoingChannel), lastIndex.channels[r]? = some channel → r = 1 ∧ channel =
      { recipient := 1, recipientPublicKey := 6, key := 8, isOpen := true,
        subchannels := (∅ : ExtTreeMap Felt Subchannel).insert 7 ⟨0, 2 ^ 32 - 1⟩ } := by
    intro r channel h
    unfold lastIndex at h
    rw [TreeMap.getElem?_insert] at h
    split_ifs at h with hr
    · cases h
      exact ⟨hr.symm, rfl⟩
    · rw [TreeMap.getElem?_empty] at h
      cases h
  refine ⟨fun r channel h => ?_, fun r channel h => ?_, fun r channel h ho => ?_⟩
  · obtain ⟨rfl, rfl⟩ := hone r channel h
    rfl
  · obtain ⟨rfl, rfl⟩ := hone r channel h
    decide +kernel
  · obtain ⟨rfl, rfl⟩ := hone r channel h
    cases ho

/-- The second note takes the index 0, which the pool already holds. -/
theorem plan_wraps_slots : Discovered lastIndex ∧ ∃ p s',
    Returns (plan constantRandomness zeroCurve 1 twoSelfNotes lastIndex) () p s' ∧
      ¬ SlotsOk zeroCurve twoSelfNotes lastIndex p.actions := by
  have hsome : (result (plan constantRandomness zeroCurve 1 twoSelfNotes lastIndex) ()).isSome := by
    decide +kernel
  obtain ⟨p, hp⟩ := Option.isSome_iff_exists.1 hsome
  obtain ⟨s', h⟩ := returns_of_result hp
  refine ⟨discovered_lastIndex, p, s', h, fun hok => ?_⟩
  obtain ⟨ha⟩ := returns_plan h
  have hrng : ∀ s salt s', constantRandomness.salt120 s = (.ok salt, s') → salt.toNat < 2 ^ 120 := by
    intro s salt s' hs
    cases hs
    decide
  have hfit := ((slotsOk_iff ha hrng).1 hok).notes 1 _ (TreeMap.getElem?_insert ..) 7
  exact absurd hfit (by decide +kernel)

end Strkd.Strk20
