import Strkd.Strk20.Snapshot

/-!
# Discovery is exact

`discoverNotes` finds exactly the unspent notes of a snapshot, in the order of their slots.
-/

namespace Strkd.Strk20

open Wallet (Crates plainCrates getSelectorFromName)
open Snapshot

/-- A note's place: incoming channel, subchannel, note. -/
abbrev Slot := ℕ × ℕ × ℕ

/-- Slots in lexicographic order. -/
def Slot.before : Slot → Slot → Prop := Prod.Lex (· < ·) (Prod.Lex (· < ·) (· < ·))

section

variable (K : Crates) (v : Snapshot)

/-- `tokens` filters by token; empty means all. -/
def Asked (tokens : List Felt) (t : Felt) : Prop := tokens = [] ∨ t ∈ tokens

/-- The subchannel's token was asked for and the slot is below its first empty one and not spent. -/
def Held (info : ChannelInfo) (userSk : Felt) (tokens : List Felt) (slot : ℕ × ℕ) : Prop :=
  Asked tokens (token K v info.key slot.1) ∧
    slot.2 < numNotes K v info.key (token K v info.key slot.1) ∧
    ¬ spent K v info.key (token K v info.key slot.1) userSk slot.2

/-- A slot of a channel that holds an unspent note of a token asked for. -/
def UnspentIn (info : ChannelInfo) (userSk : Felt) (tokens : List Felt) (slot : ℕ × ℕ) : Prop :=
  slot.1 < numSubchannels K v info.key ∧ Held K v info userSk tokens slot

/-- A slot of a user's incoming channels that holds an unspent note of a token asked for. -/
def Unspent (user userSk : Felt) (tokens : List Felt) (slot : Slot) : Prop :=
  slot.1 < numChannels K v user ∧ ∃ info, channel K v user userSk slot.1 = .ok info ∧
    UnspentIn K v info userSk tokens slot.2

/-- The note in a slot of a channel. -/
def noteIn (info : ChannelInfo) (slot : ℕ × ℕ) : Option Note :=
  noteAt K v info (token K v info.key slot.1) slot.2

/-- The note in a slot of a user's incoming channels. -/
def slotNote (user userSk : Felt) (slot : Slot) : Option Note :=
  match channel K v user userSk slot.1 with
  | .ok info => noteIn K v info slot.2
  | .error _ => none

end

section

variable {m : Type → Type} [Monad m] {O : Outcomes m} {K : Crates} {r : PoolReader m} {v : Snapshot}

/-! ## The notes of a subchannel -/

theorem decryptNoteValue_eq_none {C : Curve} {packed key token : Felt} {index : U32} :
    decryptNoteValue C packed key token index = none ↔ packed = 0 := by
  unfold decryptNoteValue
  split_ifs with h
  · simp [h]
  · simp only [h, iff_false]
    split_ifs <;> simp

/-- A scan of a subchannel from slot `i` on runs to its first empty slot. -/
theorem scanNotes_lists (hr : Answers O r v) {info : ChannelInfo} {userSk t : Felt} {left i : ℕ}
    {notes : List Note} (h : O.Gives (scanNotes K r info userSk t left i) notes) :
    ∃ n, i ≤ n ∧ noteEmpty K v info.key t n ∧
      (∀ j, i ≤ j → j < n → ¬ noteEmpty K v info.key t j) ∧
      Lists (· < ·) (fun j => (i ≤ j ∧ j < n) ∧ ¬ spent K v info.key t userSk j)
        (noteAt K v info t) notes := by
  induction left generalizing i notes with
  | zero => exact h.throw.elim
  | succ left ih =>
      obtain ⟨packed, hpacked, h⟩ := h.bind
      have hp : packed = Snapshot.packed K v info.key t i := gives_notePackedValue hr hpacked
      subst hp
      split at h
      · -- the empty slot ends the scan
        rename_i hnone
        rw [h.pure]
        refine ⟨i, le_rfl, decryptNoteValue_eq_none.1 hnone, fun j hj hlt => ?_, .nil fun j hj => ?_⟩
        · omega
        · omega
      · rename_i value hvalue
        obtain ⟨b, hb, h⟩ := h.bind
        obtain ⟨rest, hrest, h⟩ := h.bind
        obtain ⟨n, hin, hend, hfull, hlists⟩ := ih hrest
        have hslot : ¬ noteEmpty K v info.key t i := fun hempty => by
          rw [decryptNoteValue_eq_none.2 hempty] at hvalue
          cases hvalue
        have hspent : b = true ↔ spent K v info.key t userSk i := gives_flag hr hb
        refine ⟨n, by omega, hend, fun j hj hlt => ?_, ?_⟩
        · rcases hj.eq_or_lt with rfl | hj
          · exact hslot
          · exact hfull j hj hlt
        · rw [h.pure]
          split
          · -- a spent note is passed over, not a reason to stop
            rename_i hs
            refine hlists.congr fun j => ?_
            have := hspent.1 hs
            constructor
            · rintro ⟨⟨hj, hlt⟩, hns⟩
              have hne : j ≠ i := fun e => hns (e ▸ this)
              exact ⟨⟨by omega, hlt⟩, hns⟩
            · rintro ⟨⟨hj, hlt⟩, hns⟩
              exact ⟨⟨by omega, hlt⟩, hns⟩
          · rename_i hs
            have hns : ¬ spent K v info.key t userSk i := fun h => hs (hspent.2 h)
            have hnote : noteAt K v info t i = some ⟨noteId K.curve info.key t (BitVec.ofNat 32 i), t,
                value.amount, info.key, BitVec.ofNat 32 i, info.sender, value.isOpen⟩ := by
              simp only [noteAt, hvalue, Option.map_some]
            refine ((Lists.singleton hnote).append hlists fun a b ha hb => ?_).congr fun j => ?_
            · omega
            · constructor
              · rintro ⟨⟨hj, hlt⟩, hns⟩
                rcases hj.eq_or_lt with rfl | hj
                · exact .inl rfl
                · exact .inr ⟨⟨hj, hlt⟩, hns⟩
              · rintro (rfl | ⟨⟨hj, hlt⟩, hns'⟩)
                · exact ⟨⟨le_rfl, hin⟩, hns⟩
                · exact ⟨⟨by omega, hlt⟩, hns'⟩

/-- The scan of a subchannel finds its unspent notes. -/
theorem scanNotes_numNotes (hr : Answers O r v) {info : ChannelInfo} {userSk t : Felt} {left : ℕ}
    {notes : List Note} (h : O.Gives (scanNotes K r info userSk t left 0) notes) :
    Lists (· < ·) (fun j => j < numNotes K v info.key t ∧ ¬ spent K v info.key t userSk j)
      (noteAt K v info t) notes := by
  obtain ⟨n, -, hend, hfull, hlists⟩ := scanNotes_lists hr h
  have hn : numNotes K v info.key t = n := firstEmpty_eq hend fun i => hfull i (Nat.zero_le i)
  rw [hn]
  exact hlists.congr fun j => by simp

/-! ## The subchannels of a channel -/

theorem asked_of_not_filtered {tokens : List Felt} {t : Felt}
    (h : ¬ (tokens ≠ [] ∧ t ∉ tokens)) : Asked tokens t := by
  by_contra hn
  exact h ⟨fun h => hn (.inl h), fun h => hn (.inr h)⟩

/-- The notes of one subchannel, as slots of its channel. -/
theorem subchannelNotes_lists {info : ChannelInfo} {userSk : Felt} {tokens : List Felt} {k : ℕ}
    {notes : List Note} (hasked : Asked tokens (token K v info.key k))
    (h : Lists (· < ·) (fun j => j < numNotes K v info.key (token K v info.key k) ∧
      ¬ spent K v info.key (token K v info.key k) userSk j)
      (noteAt K v info (token K v info.key k)) notes) :
    Lists (Prod.Lex (· < ·) (· < ·)) (fun slot => slot.1 = k ∧ Held K v info userSk tokens slot)
      (noteIn K v info) notes := by
  refine (h.map (fun j => (k, j)) (fun a b => Prod.Lex.right k) fun j b _ hj => hj).congr ?_
  rintro ⟨k', j⟩
  constructor
  · rintro ⟨rfl, -, hj, hs⟩
    exact ⟨j, ⟨hj, hs⟩, rfl⟩
  · rintro ⟨j', ⟨hj, hs⟩, heq⟩
    obtain ⟨rfl, rfl⟩ := Prod.mk.inj heq
    exact ⟨rfl, hasked, hj, hs⟩

/-- A scan of a channel from subchannel `k` on runs to its first empty subchannel. -/
theorem scanSubchannels_lists (hr : Answers O r v) {info : ChannelInfo} {userSk : Felt}
    {tokens : List Felt} {left k : ℕ} {notes : List Note}
    (h : O.Gives (scanSubchannels K r info userSk tokens left k) notes) :
    ∃ n, k ≤ n ∧ subchannelEmpty K v info.key n ∧
      (∀ j, k ≤ j → j < n → ¬ subchannelEmpty K v info.key j) ∧
      Lists (Prod.Lex (· < ·) (· < ·)) (fun slot => (k ≤ slot.1 ∧ slot.1 < n) ∧
        Held K v info userSk tokens slot) (noteIn K v info) notes := by
  induction left generalizing k notes with
  | zero => exact h.throw.elim
  | succ left ih =>
      obtain ⟨sub, hsub, h⟩ := h.bind
      have hs := gives_subchannelInfo hr hsub
      subst hs
      split at h
      · rename_i hzero
        rw [h.pure]
        refine ⟨k, le_rfl, hzero, fun j hj hlt => ?_, .nil fun slot hslot => ?_⟩
        · omega
        · omega
      · rename_i hne
        obtain ⟨here, rest, hhere, hrest, rfl⟩ : ∃ here rest,
            Lists (Prod.Lex (· < ·) (· < ·)) (fun slot => slot.1 = k ∧ Held K v info userSk tokens slot)
              (noteIn K v info) here ∧
            O.Gives (scanSubchannels K r info userSk tokens left (k + 1)) rest ∧
            notes = here ++ rest := by
          dsimp only at h
          split at h
          · -- a token that was not asked for: its notes are left out, the scan goes on
            rename_i hfilter
            obtain ⟨here, hhere, h⟩ := h.bind
            obtain ⟨rest, hrest, h⟩ := h.bind
            refine ⟨here, rest, ?_, hrest, h.pure⟩
            rw [hhere.pure]
            refine .nil fun slot hslot => ?_
            obtain ⟨hk, hasked, -⟩ := hslot
            rw [hk] at hasked
            rcases hasked with hnil | hmem
            · exact hfilter.1 hnil
            · exact hfilter.2 hmem
          · rename_i hfilter
            obtain ⟨here, hhere, h⟩ := h.bind
            obtain ⟨rest, hrest, h⟩ := h.bind
            exact ⟨here, rest, subchannelNotes_lists (asked_of_not_filtered hfilter)
              (scanNotes_numNotes hr hhere), hrest, h.pure⟩
        obtain ⟨n, hkn, hend, hfull, hlists⟩ := ih hrest
        refine ⟨n, by omega, hend, fun j hj hlt => ?_, ?_⟩
        · rcases hj.eq_or_lt with rfl | hj
          · exact hne
          · exact hfull j hj hlt
        · refine (hhere.append hlists fun a b ha hb => ?_).congr fun slot => ?_
          · have hak : a.1 = k := ha.1
            exact Prod.lex_def.2 (.inl (by omega))
          · constructor
            · rintro ⟨⟨hj, hlt⟩, hin⟩
              rcases hj.eq_or_lt with heq | hj
              · exact .inl ⟨heq.symm, hin⟩
              · exact .inr ⟨⟨hj, hlt⟩, hin⟩
            · rintro (⟨heq, hin⟩ | ⟨⟨hj, hlt⟩, hin⟩)
              · exact ⟨⟨by omega, by omega⟩, hin⟩
              · exact ⟨⟨by omega, hlt⟩, hin⟩

/-- The scan of a channel finds its unspent notes. -/
theorem scanSubchannels_unspentIn (hr : Answers O r v) {info : ChannelInfo} {userSk : Felt}
    {tokens : List Felt} {left : ℕ} {notes : List Note}
    (h : O.Gives (scanSubchannels K r info userSk tokens left 0) notes) :
    Lists (Prod.Lex (· < ·) (· < ·)) (UnspentIn K v info userSk tokens) (noteIn K v info) notes := by
  obtain ⟨n, -, hend, hfull, hlists⟩ := scanSubchannels_lists hr h
  have hn : numSubchannels K v info.key = n := firstEmpty_eq hend fun i => hfull i (Nat.zero_le i)
  refine hlists.congr fun slot => ?_
  unfold UnspentIn Held
  rw [hn]
  simp

/-! ## All channels -/

theorem scanChannels_lists (hr : Answers O r v) {user userSk : Felt} {tokens : List Felt}
    {left c : ℕ} {notes : List Note}
    (h : O.Gives (scanChannels K r user userSk tokens left c) notes) :
    (∀ j, c ≤ j → j < c + left → ∃ info, channel K v user userSk j = .ok info) ∧
    Lists Slot.before (fun slot => (c ≤ slot.1 ∧ slot.1 < c + left) ∧
      ∃ info, channel K v user userSk slot.1 = .ok info ∧ UnspentIn K v info userSk tokens slot.2)
      (slotNote K v user userSk) notes := by
  induction left generalizing c notes with
  | zero =>
      rw [h.pure]
      exact ⟨fun j hj hlt => by omega, .nil fun slot hslot => by omega⟩
  | succ left ih =>
      obtain ⟨o, ho, h⟩ := h.bind
      obtain ⟨info, hinfo, h⟩ := h.bind
      obtain ⟨here, hhere, h⟩ := h.bind
      obtain ⟨rest, hrest, h⟩ := h.bind
      have hchannel : channel K v user userSk c = .ok info := by
        rw [← hinfo.lift, gives_view hr ho]
        rfl
      obtain ⟨hok, hlists⟩ := ih hrest
      rw [h.pure]
      refine ⟨fun j hj hlt => ?_, ?_⟩
      · rcases hj.eq_or_lt with rfl | hj
        · exact ⟨info, hchannel⟩
        · exact hok j hj (by omega)
      have hmap := (scanSubchannels_unspentIn hr hhere).map (t := Slot.before)
        (g := slotNote K v user userSk) (fun slot => (c, slot)) (fun a b => Prod.Lex.right c)
        (fun slot note _ hnote => by
          simp only [slotNote, hchannel]
          exact hnote)
      refine (hmap.append hlists fun a b ha hb => ?_).congr fun slot => ?_
      · obtain ⟨_, -, rfl⟩ := ha
        exact Prod.lex_def.2 (.inl (by simp only; omega))
      · constructor
        · rintro ⟨⟨hj, hlt⟩, info', hinfo', hin⟩
          rcases hj.eq_or_lt with heq | hj
          · rw [← heq, hchannel] at hinfo'
            cases hinfo'
            exact .inl ⟨slot.2, hin, Prod.ext heq rfl⟩
          · exact .inr ⟨⟨hj, by omega⟩, info', hinfo', hin⟩
        · rintro (⟨slot', hin, rfl⟩ | ⟨⟨hj, hlt⟩, hin⟩)
          · exact ⟨⟨le_rfl, by simp only; omega⟩, info, hchannel, hin⟩
          · exact ⟨⟨by omega, by omega⟩, hin⟩

/-- What discovery returns is the unspent notes of the snapshot, slot by slot. -/
theorem discoverNotes_lists (hr : Answers O r v) {user userSk : Felt} {tokens : List Felt}
    {notes : List Note} (h : O.Gives (discoverNotes K r user userSk tokens) notes) :
    (∀ c < numChannels K v user, ∃ info, channel K v user userSk c = .ok info) ∧
    Lists Slot.before (Unspent K v user userSk tokens) (slotNote K v user userSk) notes := by
  obtain ⟨o, ho, h⟩ := h.bind
  obtain ⟨-, h⟩ := h.refuse
  rw [gives_view hr ho] at h
  obtain ⟨hok, hlists⟩ := scanChannels_lists hr h
  refine ⟨fun c hc => hok c (Nat.zero_le c) (by rwa [Nat.zero_add]), hlists.congr fun slot => ?_⟩
  unfold Unspent
  rw [Nat.zero_add]
  exact and_congr ⟨fun h => ⟨Nat.zero_le _, h⟩, fun h => h.2⟩ Iff.rfl

/-- Whatever a reader that answers from one snapshot returns, from any state, is exactly the unspent
notes of the tokens asked for: each slot once, in lexicographic order, with what decrypting it
gives. -/
theorem discoverNotes_exact {σ : Type} (K : Crates) (r : PoolReader (StateM σ)) (v : Snapshot)
    (user userSk : Felt) (tokens : List Felt) (s : σ) (notes : List Note)
    (hr : Answers (Outcomes.state σ) r v)
    (h : ((discoverNotes K r user userSk tokens).run.run s).1 = .ok notes) :
    Lists Slot.before (Unspent K v user userSk tokens) (slotNote K v user userSk) notes :=
  (discoverNotes_lists hr ⟨s, h⟩).2

end

/-! ## A small pool -/

/-- One incoming channel with key 5, one subchannel of token 3, and two open notes of which the
first is spent. -/
def twoNotes : Snapshot := fun _ calldata =>
  let C := plainCurve
  if calldata = [1] then [1]
  else if calldata = [1, 0] then [4, 5 + encChannelKeyHash C 8, 9 + encSenderAddrHash C 8]
  else if calldata = [subchannelId C 5 0] then [6, 3 + encTokenHash C 5 0 6]
  else if calldata = [noteId C 5 3 0] then [Felt.ofNat (2 ^ 128 + 10)]
  else if calldata = [noteId C 5 3 1] then [Felt.ofNat (2 ^ 128 + 20)]
  else if calldata = [nullifier C 5 3 0 2] then [1]
  else [0, 0, 0]

def twoNotesReader : PoolReader (StateM Unit) where
  call selector calldata := pure (twoNotes selector calldata)
  stuck := throw (.read "stuck")

theorem discoverNotes_exact_twoNotes :
    Lists Slot.before (Unspent plainCrates twoNotes 1 2 []) (slotNote plainCrates twoNotes 1 2)
      [⟨noteId plainCurve 5 3 1, 3, 20, 5, 1, 9, true⟩] :=
  discoverNotes_exact plainCrates twoNotesReader twoNotes 1 2 [] () _ (fun _ _ _ h => h.pure) rfl

end Strkd.Strk20
