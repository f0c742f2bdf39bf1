import Strkd.Lib.TreeMap
import Strkd.Strk20.Scans

/-!
# Sender and receiver see the same slots

What the sender's scan of a channel finds in a snapshot, and its agreement with the receiver's scan
of the same channel.
-/

namespace Strkd.Strk20

open Std (ExtTreeMap)
open Wallet (Crates plainCrates getSelectorFromName)
open Snapshot

/-! ## The sender's scan -/

section

variable (K : Crates) (v : Snapshot)

/-- Subchannel `k` of a channel as the sender records it. -/
noncomputable def sentSubchannel (key : Felt) (k : ℕ) : Subchannel :=
  ⟨BitVec.ofNat 32 k, BitVec.ofNat 32 (numNotes K v key (token K v key k))⟩

/-- Record the given subchannels of a channel by their token, in order. -/
noncomputable def record (key : Felt) (found : ExtTreeMap Felt Subchannel) (ks : List ℕ) :
    ExtTreeMap Felt Subchannel :=
  ks.foldl (fun m k => m.insert (token K v key k) (sentSubchannel K v key k)) found

/-- The key a user registered, 0 if there is none. -/
def registered (user : Felt) : Felt := read K v "get_public_key" [user] 0

/-- The pool holds the channel from `sender` to `recipient`. -/
def channelOpen (sender senderSk recipient : Felt) : Prop :=
  let pk := registered K v recipient
  read K v "channel_exists"
    [channelMarker K.curve (channelKey K.curve sender senderSk recipient pk) sender recipient pk] 0 ≠ 0

end

section

variable {m : Type → Type} [Monad m] {O : Outcomes m} {K : Crates} {r : PoolReader m} {v : Snapshot}

/-- A count from slot `i` on ends at the first empty slot. -/
theorem countNotes_gives (hr : Answers O r v) (hstuck : ∀ n : U32, ¬ O.Gives r.stuck n)
    {key t : Felt} {fuel i : ℕ} {n : U32}
    (h : O.Gives (countNotes K r key t fuel (BitVec.ofNat 32 i)) n) :
    ∃ j, i ≤ j ∧ noteEmpty K v key t j ∧ (∀ e, i ≤ e → e < j → ¬ noteEmpty K v key t e) ∧
      n = BitVec.ofNat 32 j := by
  induction fuel generalizing i with
  | zero => exact (hstuck n h).elim
  | succ fuel ih =>
      obtain ⟨packed, hpacked, h⟩ := h.bind
      have hp : packed = Snapshot.packed K v key t i := gives_notePackedValue hr hpacked
      subst hp
      split at h
      · rename_i hzero
        exact ⟨i, le_rfl, hzero, fun e he hlt => by omega, h.pure⟩
      · rename_i hne
        have hnext : BitVec.ofNat 32 i + 1 = BitVec.ofNat 32 (i + 1) := (BitVec.ofNat_add i 1).symm
        rw [hnext] at h
        obtain ⟨j, hij, hend, hfull, rfl⟩ := ih h
        refine ⟨j, by omega, hend, fun e he hlt => ?_, rfl⟩
        rcases he.eq_or_lt with rfl | he
        · exact hne
        · exact hfull e he hlt

theorem countNotes_numNotes (hr : Answers O r v) (hstuck : ∀ n : U32, ¬ O.Gives r.stuck n)
    {key t : Felt} {fuel : ℕ} {n : U32} (h : O.Gives (countNotes K r key t fuel 0) n) :
    n = BitVec.ofNat 32 (numNotes K v key t) := by
  obtain ⟨j, -, hend, hfull, rfl⟩ := countNotes_gives (i := 0) hr hstuck h
  have hj : numNotes K v key t = j := firstEmpty_eq hend fun i => hfull i (Nat.zero_le i)
  rw [hj]

/-- A scan of the sender's channel from subchannel `k` on. -/
theorem scanOutgoing_gives (hr : Answers O r v) (hstuck : ∀ n : U32, ¬ O.Gives r.stuck n)
    {fuel : ℕ} {key : Felt} {left k : ℕ} {found res : ExtTreeMap Felt Subchannel}
    (h : O.Gives (scanOutgoing K r fuel key left k found) res) :
    ∃ n, k ≤ n ∧ n < k + left ∧ subchannelEmpty K v key n ∧
      (∀ j, k ≤ j → j < n → ¬ subchannelEmpty K v key j ∧
        ∃ i, noteEmpty K v key (token K v key j) i) ∧
      res = record K v key found (List.range' k (n - k)) := by
  induction left generalizing k found with
  | zero => exact h.throw.elim
  | succ left ih =>
      obtain ⟨sub, hsub, h⟩ := h.bind
      have hs := gives_subchannelInfo hr hsub
      subst hs
      split at h
      · rename_i hzero
        refine ⟨k, le_rfl, by omega, hzero, fun j hj hlt => by omega, ?_⟩
        rw [h.pure, Nat.sub_self]
        rfl
      · rename_i hne
        obtain ⟨n, hn, h⟩ := h.bind
        obtain ⟨i, -, hi, -⟩ := countNotes_gives (i := 0) hr hstuck hn
        rw [countNotes_numNotes hr hstuck hn] at h
        obtain ⟨n, hkn, hlt, hend, hfull, rfl⟩ := ih h
        refine ⟨n, by omega, by omega, hend, fun j hj hlt => ?_, ?_⟩
        · rcases hj.eq_or_lt with rfl | hj
          · exact ⟨hne, i, hi⟩
          · exact hfull j hj hlt
        · have hlen : n - k = (n - (k + 1)) + 1 := by omega
          rw [hlen, List.range'_succ]
          rfl

/-- The subchannels the sender finds in an open channel. -/
theorem scanOutgoing_numSubchannels (hr : Answers O r v) (hstuck : ∀ n : U32, ¬ O.Gives r.stuck n)
    {fuel : ℕ} {key : Felt} {res : ExtTreeMap Felt Subchannel}
    (h : O.Gives (scanOutgoing K r fuel key indices 0 ∅) res) :
    numSubchannels K v key < 2 ^ 32 ∧ subchannelEmpty K v key (numSubchannels K v key) ∧
      (∀ k < numSubchannels K v key, ∃ i, noteEmpty K v key (token K v key k) i) ∧
      res = record K v key ∅ (List.range (numSubchannels K v key)) := by
  obtain ⟨n, -, hlt, hend, hfull, rfl⟩ := scanOutgoing_gives hr hstuck h
  have hn : numSubchannels K v key = n :=
    firstEmpty_eq hend fun i hi => (hfull i (Nat.zero_le i) hi).1
  rw [hn]
  refine ⟨by simpa [indices] using hlt, hend, fun k hk => (hfull k (Nat.zero_le k) hk).2, ?_⟩
  rw [Nat.sub_zero, List.range_eq_range']

/-- What the sender discovers of its channel to a recipient. -/
theorem discoverChannel_gives (hr : Answers O r v) (hstuck : ∀ n : U32, ¬ O.Gives r.stuck n)
    {fuel : ℕ} {user userSk recipient : Felt} {ch : OutgoingChannel}
    (h : O.Gives (discoverChannel K r fuel user userSk recipient) ch) :
    registered K v recipient ≠ 0 ∧ ch.recipient = recipient ∧
      ch.recipientPublicKey = registered K v recipient ∧
      ch.key = channelKey K.curve user userSk recipient (registered K v recipient) ∧
      (ch.isOpen = true ↔ channelOpen K v user userSk recipient) ∧
      (ch.isOpen = true → numSubchannels K v ch.key < 2 ^ 32 ∧
        subchannelEmpty K v ch.key (numSubchannels K v ch.key) ∧
        (∀ k < numSubchannels K v ch.key, ∃ i, noteEmpty K v ch.key (token K v ch.key k) i) ∧
        ch.subchannels = record K v ch.key ∅ (List.range (numSubchannels K v ch.key))) ∧
      (ch.isOpen = false → ch.subchannels = ∅) := by
  obtain ⟨pk?, hpk, h⟩ := h.bind
  rw [gives_registeredKey hr hpk] at h
  split_ifs at h with hzero
  · exact h.throw.elim
  obtain ⟨isOpen, hopen, h⟩ := h.bind
  have hflag := gives_flag hr hopen
  have hkey : registered K v recipient ≠ 0 := hzero
  dsimp only at h
  split at h
  · rename_i htrue
    obtain ⟨subs, hsubs, h⟩ := h.bind
    rw [h.pure]
    exact ⟨hkey, rfl, rfl, rfl, hflag, fun _ => scanOutgoing_numSubchannels hr hstuck hsubs,
      fun hf => absurd (htrue.symm.trans hf) (by decide)⟩
  · rename_i hfalse
    obtain ⟨subs, hsubs, h⟩ := h.bind
    rw [h.pure]
    exact ⟨hkey, rfl, rfl, rfl, hflag, fun ht => absurd ht hfalse, fun _ => hsubs.pure⟩

/-! ## Recorded subchannels -/

theorem record_sound {key T : Felt} {found : ExtTreeMap Felt Subchannel} {ks : List ℕ}
    {sub : Subchannel} (h : (record K v key found ks)[T]? = some sub) :
    (∃ k ∈ ks, token K v key k = T ∧ sub = sentSubchannel K v key k) ∨ found[T]? = some sub := by
  induction ks generalizing found with
  | nil => exact .inr h
  | cons k ks ih =>
      rcases ih h with ⟨k', hk', htoken, rfl⟩ | h
      · exact .inl ⟨k', List.mem_cons_of_mem _ hk', htoken, rfl⟩
      · rw [TreeMap.getElem?_insert] at h
        split_ifs at h with htoken
        · exact .inl ⟨k, List.mem_cons_self, htoken, (Option.some.inj h).symm⟩
        · exact .inr h

theorem record_isSome {key T : Felt} {found : ExtTreeMap Felt Subchannel} {ks : List ℕ}
    (h : (∃ k ∈ ks, token K v key k = T) ∨ (found[T]?).isSome) :
    ((record K v key found ks)[T]?).isSome := by
  induction ks generalizing found with
  | nil =>
      obtain ⟨_, hk, -⟩ | h := h
      · exact absurd hk List.not_mem_nil
      · exact h
  | cons k ks ih =>
      refine ih ?_
      rw [TreeMap.getElem?_insert]
      by_cases htoken : token K v key k = T
      · exact .inr (by rw [if_pos htoken]; rfl)
      · obtain ⟨k', hk', hT⟩ | h := h
        · rcases List.mem_cons.1 hk' with rfl | hk'
          · exact absurd hT htoken
          · exact .inl ⟨k', hk', hT⟩
        · exact .inr (by rwa [if_neg htoken])

/-- A token is recorded exactly when a subchannel carries it. -/
theorem record_range_isSome_iff {key T : Felt} {n : ℕ} :
    ((record K v key ∅ (List.range n))[T]?).isSome ↔ ∃ k < n, token K v key k = T := by
  constructor
  · intro h
    obtain ⟨sub, hsub⟩ := Option.isSome_iff_exists.1 h
    rcases record_sound hsub with ⟨k, hk, htoken, -⟩ | h
    · exact ⟨k, List.mem_range.1 hk, htoken⟩
    · rw [TreeMap.getElem?_empty] at h
      cases h
  · rintro ⟨k, hk, htoken⟩
    exact record_isSome (.inl ⟨k, List.mem_range.2 hk, htoken⟩)

end

/-! ## A consistent snapshot -/

/-- The views discovery calls, with the number of felts each answers. -/
def views : List (String × ℕ) := [("get_public_key", 1), ("channel_exists", 1), ("get_note", 1),
  ("nullifier_exists", 1), ("get_num_of_channels", 1), ("get_subchannel_info", 2),
  ("get_channel_info", 3)]

/-- Every view answers in full, and every list is shorter than `2 ^ 32`. -/
structure Consistent (K : Crates) (v : Snapshot) : Prop where
  full : ∀ name n, (name, n) ∈ views → ∀ calldata,
    n ≤ (v (getSelectorFromName K name) calldata).length
  subchannels : ∀ key, ∃ k < 2 ^ 32, subchannelEmpty K v key k
  notes : ∀ key t, ∃ i < 2 ^ 32, noteEmpty K v key t i

/-- The reader of a snapshot. -/
def Snapshot.reader (v : Snapshot) : PoolReader Id where
  call selector calldata := pure (v selector calldata)
  stuck := throw (.read "no empty slot")

theorem answers_reader (v : Snapshot) : Answers Outcomes.value v.reader v := fun _ _ _ h => h.pure

section

variable {K : Crates} {v : Snapshot}

theorem Consistent.numSubchannels_lt (hv : Consistent K v) (key : Felt) :
    numSubchannels K v key < 2 ^ 32 := by
  obtain ⟨k, hk, hempty⟩ := hv.subchannels key
  exact lt_of_le_of_lt (firstEmpty_le hempty) hk

theorem Consistent.numNotes_lt (hv : Consistent K v) (key t : Felt) :
    numNotes K v key t < 2 ^ 32 := by
  obtain ⟨i, hi, hempty⟩ := hv.notes key t
  exact lt_of_le_of_lt (firstEmpty_le hempty) hi

theorem Consistent.noteEmpty_numNotes (hv : Consistent K v) (key t : Felt) :
    noteEmpty K v key t (numNotes K v key t) := by
  obtain ⟨i, -, hempty⟩ := hv.notes key t
  exact empty_firstEmpty hempty

/-- A view of a consistent snapshot does not fail. -/
theorem Consistent.view_reader (hv : Consistent K v) {name : String} {n : ℕ}
    (h : (name, n) ∈ views) (calldata : List Felt) :
    view K v.reader name calldata n = pure (v (getSelectorFromName K name) calldata) := by
  have hfull := hv.full name n h calldata
  have hlt : ¬ (v (getSelectorFromName K name) calldata).length < n := by omega
  simp only [view, Snapshot.reader, pure_bind, if_neg hlt]

theorem Consistent.notePackedValue_reader (hv : Consistent K v) (key t : Felt) (i : ℕ) :
    notePackedValue K v.reader (noteId K.curve key t (BitVec.ofNat 32 i)) =
      pure (packed K v key t i) := by
  rw [notePackedValue, hv.view_reader (by decide)]
  rfl

theorem Consistent.subchannelInfo_reader (hv : Consistent K v) (key : Felt) (k : ℕ) :
    subchannelInfo K v.reader (subchannelId K.curve key (BitVec.ofNat 32 k)) =
      pure (subchannel K v key k) := by
  rw [subchannelInfo, hv.view_reader (by decide)]
  rfl

theorem Consistent.flag_reader (hv : Consistent K v) {name : String} (h : (name, 1) ∈ views)
    (arg : Felt) : flag K v.reader name arg = pure (decide (read K v name [arg] 0 ≠ 0)) := by
  rw [flag, hv.view_reader h]
  rfl

/-- A count of notes ends before the counter could wrap. -/
theorem Consistent.countNotes_reader (hv : Consistent K v) (key t : Felt) {fuel i : ℕ}
    (hi : i ≤ numNotes K v key t) (hfuel : numNotes K v key t < fuel + i) :
    ∃ n, countNotes K v.reader key t fuel (BitVec.ofNat 32 i) = pure n := by
  induction fuel generalizing i with
  | zero => omega
  | succ fuel ih =>
      have hnext : BitVec.ofNat 32 i + 1 = BitVec.ofNat 32 (i + 1) := (BitVec.ofNat_add i 1).symm
      simp only [countNotes, hv.notePackedValue_reader, pure_bind, hnext]
      split_ifs with hzero
      · exact ⟨_, rfl⟩
      · have hne : i ≠ numNotes K v key t := fun h => hzero (h ▸ hv.noteEmpty_numNotes key t)
        exact ih (by omega) (by omega)

theorem Consistent.scanOutgoing_reader (hv : Consistent K v) (key : Felt) {fuel left k : ℕ}
    (hfuel : 2 ^ 32 ≤ fuel) (hk : k ≤ numSubchannels K v key)
    (hleft : numSubchannels K v key < left + k) (found : ExtTreeMap Felt Subchannel) :
    ∃ res, scanOutgoing K v.reader fuel key left k found = pure res := by
  induction left generalizing k found with
  | zero => omega
  | succ left ih =>
      have hcount : ∀ t, ∃ n, countNotes K v.reader key t fuel 0 = pure n := fun t =>
        hv.countNotes_reader key t (Nat.zero_le _) (by have := hv.numNotes_lt key t; omega)
      simp only [scanOutgoing, hv.subchannelInfo_reader, pure_bind]
      split_ifs with hzero
      · exact ⟨_, rfl⟩
      · have hne : k ≠ numSubchannels K v key := by
          rintro rfl
          obtain ⟨j, -, hj⟩ := hv.subchannels key
          have hempty : subchannelEmpty K v key (firstEmpty (subchannelEmpty K v key)) :=
            empty_firstEmpty hj
          exact hzero hempty
        obtain ⟨n, hn⟩ := hcount (token K v key k)
        have hn' : countNotes K v.reader key (decryptSubchannelToken K.curve (subchannel K v key k)
            key (BitVec.ofNat 32 k)) fuel 0 = pure n := hn
        simp only [hn', pure_bind]
        exact ih (by omega) (by omega) _

/-- In a consistent snapshot the sender's discovery of a registered recipient returns. -/
theorem Consistent.discoverChannel_reader (hv : Consistent K v) {fuel : ℕ} (hfuel : 2 ^ 32 ≤ fuel)
    (user userSk : Felt) {recipient : Felt} (hreg : registered K v recipient ≠ 0) :
    ∃ ch, discoverChannel K v.reader fuel user userSk recipient = pure ch := by
  have hpk : registeredKey K v.reader recipient = pure (some (registered K v recipient)) := by
    have hne : ¬ out (v (getSelectorFromName K "get_public_key") [recipient]) 0 = 0 := hreg
    rw [registeredKey, hv.view_reader (by decide), pure_bind]
    dsimp only
    rw [if_neg hne]
    rfl
  have hscan : ∀ key, ∃ res, scanOutgoing K v.reader fuel key indices 0 ∅ = pure res := fun key =>
    hv.scanOutgoing_reader key hfuel (Nat.zero_le _)
      (by have := hv.numSubchannels_lt key; unfold indices; omega) ∅
  obtain ⟨res, hres⟩ := hscan (channelKey K.curve user userSk recipient (registered K v recipient))
  have hviews : ("channel_exists", 1) ∈ views := by decide
  simp only [discoverChannel, hpk, pure_bind, hv.flag_reader hviews, hres]
  split_ifs
  · exact ⟨_, rfl⟩
  · exact ⟨_, rfl⟩

end

/-! ## The receiver's notes -/

section

variable {m : Type → Type} [Monad m] {O : Outcomes m} {K : Crates} {r : PoolReader m} {v : Snapshot}

theorem noteAt_eq_some {info : ChannelInfo} {t : Felt} {i : ℕ} {note : Note}
    (h : noteAt K v info t i = some note) :
    note.channelKey = info.key ∧ note.token = t ∧ note.index = BitVec.ofNat 32 i := by
  obtain ⟨value, -, rfl⟩ := Option.map_eq_some_iff.1 h
  exact ⟨rfl, rfl, rfl⟩

theorem exists_noteAt {info : ChannelInfo} {t : Felt} {i : ℕ} (h : ¬ noteEmpty K v info.key t i) :
    ∃ note, noteAt K v info t i = some note := by
  cases hvalue : decryptNoteValue K.curve (packed K v info.key t i) info.key t (BitVec.ofNat 32 i) with
  | none => exact absurd (decryptNoteValue_eq_none.1 hvalue) h
  | some value => exact ⟨_, by simp only [noteAt, hvalue, Option.map_some]; rfl⟩

/-- The notes of one token that discovery returns. -/
theorem mem_discoverNotes (hr : Answers O r v) {user userSk T : Felt} {notes : List Note}
    (h : O.Gives (discoverNotes K r user userSk [T]) notes) (note : Note) :
    note ∈ notes ↔ ∃ c info k i, c < numChannels K v user ∧
      channel K v user userSk c = .ok info ∧ k < numSubchannels K v info.key ∧
      token K v info.key k = T ∧ i < numNotes K v info.key T ∧
      ¬ spent K v info.key T userSk i ∧ noteAt K v info T i = some note := by
  rw [(discoverNotes_lists hr h).2.mem_iff]
  constructor
  · rintro ⟨⟨c, k, i⟩, ⟨hc, info, hinfo, hk, hasked, hi, hs⟩, hnote⟩
    have htoken : token K v info.key k = T := by
      rcases hasked with hnil | hmem
      · cases hnil
      · exact List.mem_singleton.1 hmem
    simp only [slotNote, hinfo, noteIn, htoken] at hnote hi hs
    exact ⟨c, info, k, i, hc, hinfo, hk, htoken, hi, hs, hnote⟩
  · rintro ⟨c, info, k, i, hc, hinfo, hk, htoken, hi, hs, hnote⟩
    refine ⟨(c, k, i), ⟨hc, info, hinfo, hk, .inr ?_, ?_, ?_⟩, ?_⟩
    · exact List.mem_singleton.2 htoken
    · simp only [htoken, hi]
    · simp only [htoken, hs, not_false_eq_true]
    · simp only [slotNote, hinfo, noteIn, htoken, hnote]

/-- The notes a receiver finds on a channel of its own. -/
theorem receiver_notes (hv : Consistent K v) (hr : Answers O r v) {user userSk T key : Felt}
    {notes : List Note} (h : O.Gives (discoverNotes K r user userSk [T]) notes)
    (hin : ∃ c < numChannels K v user, ∃ info, channel K v user userSk c = .ok info ∧
      info.key = key) (i : ℕ) :
    (∃ note ∈ notes, note.channelKey = key ∧ note.index.toNat = i) ↔
      (∃ k < numSubchannels K v key, token K v key k = T) ∧ i < numNotes K v key T ∧
        ¬ spent K v key T userSk i := by
  constructor
  · rintro ⟨note, hmem, rfl, rfl⟩
    obtain ⟨c, info, k, i, hc, hinfo, hk, htoken, hi, hs, hnote⟩ :=
      (mem_discoverNotes hr h note).1 hmem
    obtain ⟨hkey, -, hindex⟩ := noteAt_eq_some hnote
    have hlt : i < 2 ^ 32 := hi.trans (hv.numNotes_lt _ _)
    rw [hkey, hindex, BitVec.toNat_ofNat, Nat.mod_eq_of_lt hlt]
    exact ⟨⟨k, hk, htoken⟩, hi, hs⟩
  · rintro ⟨⟨k, hk, htoken⟩, hi, hs⟩
    obtain ⟨c, hc, info, hinfo, rfl⟩ := hin
    obtain ⟨note, hnote⟩ := exists_noteAt (not_empty_of_lt_firstEmpty hi)
    obtain ⟨hkey, -, hindex⟩ := noteAt_eq_some hnote
    have hlt : i < 2 ^ 32 := hi.trans (hv.numNotes_lt _ _)
    refine ⟨note, (mem_discoverNotes hr h note).2
      ⟨c, info, k, i, hc, hinfo, hk, htoken, hi, hs, hnote⟩, hkey, ?_⟩
    rw [hindex, BitVec.toNat_ofNat, Nat.mod_eq_of_lt hlt]

end

/-! ## One more note -/

/-- `v'` is `v` with one more note, the last of its list, in slot `n` of `(key, t)`. -/
structure NoteCreated (K : Crates) (v v' : Snapshot) (key t : Felt) (n : ℕ) : Prop where
  written : ¬ noteEmpty K v' key t n
  last : noteEmpty K v' key t (n + 1)
  packed : ∀ key' t', ∀ i < 2 ^ 32, (key', t', i) ≠ (key, t, n) →
    Snapshot.packed K v' key' t' i = Snapshot.packed K v key' t' i
  spent : ∀ key' t' sk i, Snapshot.spent K v' key' t' sk i ↔ Snapshot.spent K v key' t' sk i
  subchannel : ∀ key' k, Snapshot.subchannel K v' key' k = Snapshot.subchannel K v key' k
  numChannels : ∀ user, Snapshot.numChannels K v' user = Snapshot.numChannels K v user
  channel : ∀ user sk c, Snapshot.channel K v' user sk c = Snapshot.channel K v user sk c

namespace NoteCreated

variable {K : Crates} {v v' : Snapshot} {key t : Felt}

theorem token_eq {n : ℕ} (h : NoteCreated K v v' key t n) (key' : Felt) (k : ℕ) :
    token K v' key' k = token K v key' k := by
  unfold token
  rw [h.subchannel]

theorem numSubchannels_eq {n : ℕ} (h : NoteCreated K v v' key t n) (key' : Felt) :
    numSubchannels K v' key' = numSubchannels K v key' := by
  unfold numSubchannels subchannelEmpty
  simp only [h.subchannel]

/-- The new note is the one slot its list grows by. -/
theorem numNotes_created (hv : Consistent K v)
    (h : NoteCreated K v v' key t (numNotes K v key t)) :
    numNotes K v' key t = numNotes K v key t + 1 := by
  refine firstEmpty_eq h.last fun i hi hempty => ?_
  rcases Nat.lt_succ_iff_lt_or_eq.1 hi with hi | rfl
  · have hlt : i < 2 ^ 32 := hi.trans (hv.numNotes_lt key t)
    have hne : (key, t, i) ≠ (key, t, numNotes K v key t) := fun heq => by
      simp only [Prod.mk.injEq, true_and] at heq
      omega
    exact not_empty_of_lt_firstEmpty hi ((h.packed key t i hlt hne).symm.trans hempty)
  · exact h.written hempty

theorem numNotes_other (hv : Consistent K v) {n : ℕ} (h : NoteCreated K v v' key t n)
    {key' t' : Felt} (hne : (key', t') ≠ (key, t)) : numNotes K v' key' t' = numNotes K v key' t' := by
  have hsame : ∀ i < 2 ^ 32, Snapshot.packed K v' key' t' i = Snapshot.packed K v key' t' i :=
    fun i hi => h.packed key' t' i hi fun heq => hne (by
      simp only [Prod.mk.injEq] at heq ⊢
      exact ⟨heq.1, heq.2.1⟩)
  have hlt := hv.numNotes_lt key' t'
  refine firstEmpty_eq ?_ fun i hi hempty => ?_
  · exact (hsame _ hlt).trans (hv.noteEmpty_numNotes key' t')
  · exact not_empty_of_lt_firstEmpty hi ((hsame i (hi.trans hlt)).symm.trans hempty)

theorem noteAt_eq {n : ℕ} (h : NoteCreated K v v' key t n) {info : ChannelInfo} {t' : Felt} {i : ℕ}
    (hi : i < 2 ^ 32) (hne : (info.key, t', i) ≠ (key, t, n)) :
    noteAt K v' info t' i = noteAt K v info t' i := by
  unfold noteAt
  rw [h.packed _ _ _ hi hne]

/-- What the receiver finds once the note is there: what it found before, and that note. -/
theorem discoverNotes_created (hv : Consistent K v)
    (h : NoteCreated K v v' key t (numNotes K v key t)) {user userSk : Felt}
    {notes notes' : List Note}
    (hnotes : discoverNotes K v.reader user userSk [t] = pure notes)
    (hnotes' : discoverNotes K v'.reader user userSk [t] = pure notes') :
    (∀ note ∈ notes, note ∈ notes') ∧
      ∀ note ∈ notes', note ∈ notes ∨ note.channelKey = key ∧ note.token = t ∧
        note.index = BitVec.ofNat 32 (numNotes K v key t) := by
  have hmem := mem_discoverNotes (O := Outcomes.value) (answers_reader v) hnotes
  have hmem' := mem_discoverNotes (O := Outcomes.value) (answers_reader v') hnotes'
  have hlt := hv.numNotes_lt
  constructor
  · intro note hnote
    obtain ⟨c, info, k, i, hc, hinfo, hk, htoken, hi, hs, hnote⟩ := (hmem note).1 hnote
    have hne : (info.key, t, i) ≠ (key, t, numNotes K v key t) := fun heq => by
      simp only [Prod.mk.injEq, true_and] at heq
      rw [heq.1] at hi
      omega
    have hi' : i < numNotes K v' info.key t := by
      by_cases hkey : info.key = key
      · rw [hkey] at hi ⊢
        rw [numNotes_created hv h]
        omega
      · rwa [numNotes_other hv h fun heq => hkey (Prod.mk.inj heq).1]
    refine (hmem' note).2 ⟨c, info, k, i, ?_, ?_, ?_, ?_, hi', ?_, ?_⟩
    · rwa [h.numChannels]
    · rwa [h.channel]
    · rwa [h.numSubchannels_eq]
    · rwa [h.token_eq]
    · rwa [h.spent]
    · rwa [h.noteAt_eq (hi.trans (hlt _ _)) hne]
  · intro note hnote
    obtain ⟨c, info, k, i, hc, hinfo, hk, htoken, hi, hs, hnote⟩ := (hmem' note).1 hnote
    by_cases heq : (info.key, t, i) = (key, t, numNotes K v key t)
    · obtain ⟨hkey, -, rfl⟩ := by simpa only [Prod.mk.injEq] using heq
      obtain ⟨h₁, h₂, h₃⟩ := noteAt_eq_some hnote
      exact .inr ⟨h₁.trans hkey, h₂, h₃⟩
    · have hi' : i < numNotes K v info.key t := by
        by_cases hkey : info.key = key
        · rw [hkey] at hi heq ⊢
          rw [numNotes_created hv h] at hi
          have : i ≠ numNotes K v key t := fun e => heq (by rw [e])
          omega
        · rwa [numNotes_other hv h fun heq => hkey (Prod.mk.inj heq).1] at hi
      refine .inl ((hmem note).2 ⟨c, info, k, i, ?_, ?_, ?_, ?_, hi', ?_, ?_⟩)
      · rwa [h.numChannels] at hc
      · rwa [h.channel] at hinfo
      · rwa [h.numSubchannels_eq] at hk
      · rwa [h.token_eq] at htoken
      · rwa [h.spent] at hs
      · rwa [h.noteAt_eq (hi'.trans (hlt _ _)) heq] at hnote

end NoteCreated

/-! ## Agreement -/

/-- What sender and receiver see of token `T` on a channel: `ch` is the sender's view of it, and
`notes` what the receiver discovers of `T`. -/
structure Agree (K : Crates) (v : Snapshot) (recipient recipientSk T : Felt) (ch : OutgoingChannel)
    (notes : List Note) : Prop where
  /-- The sender has a subchannel for `T` exactly when the receiver scans one. -/
  scanned : (ch.subchannels[T]?).isSome ↔
    ∃ k < numSubchannels K v ch.key, token K v ch.key k = T
  /-- Its index is that subchannel's position. -/
  position : ∀ sub, ch.subchannels[T]? = some sub → ∀ k,
    k < numSubchannels K v ch.key ∧ token K v ch.key k = T ↔ k = sub.index.toNat
  /-- The receiver's notes of the channel are those below the sender's next index that are not
  spent. -/
  found : ∀ i, (∃ note ∈ notes, note.channelKey = ch.key ∧ note.index.toNat = i) ↔
    ∃ sub, ch.subchannels[T]? = some sub ∧ i < sub.nextNoteIndex.toNat ∧
      ¬ spent K v ch.key T recipientSk i
  /-- The sender's next index is an empty slot. -/
  next : ∀ sub, ch.subchannels[T]? = some sub → noteEmpty K v ch.key T sub.nextNoteIndex.toNat
  /-- A note created there is the one, and the only new one, the receiver will find. -/
  created : ∀ sub, ch.subchannels[T]? = some sub → ∀ v' notes',
    NoteCreated K v v' ch.key T sub.nextNoteIndex.toNat →
    discoverNotes K v'.reader recipient recipientSk [T] = pure notes' →
    (∀ note ∈ notes, note ∈ notes') ∧
    (∀ note ∈ notes', note ∈ notes ∨ note.channelKey = ch.key ∧ note.token = T ∧
      note.index = sub.nextNoteIndex) ∧
    (¬ spent K v ch.key T recipientSk sub.nextNoteIndex.toNat →
      ∃ note ∈ notes', note.channelKey = ch.key ∧ note.index = sub.nextNoteIndex)

/-- Hashes that number the slots of every list. -/
def numberingCurve : Curve where
  poseidon l :=
    if l.head? = some (shortString "NOTE_ID_TAG:V1") then 1000 + l.getD 3 0
    else if l.head? = some (shortString "SUBCHANNEL_ID_TAG:V1") then 2000 + l.getD 2 0
    else if l.head? = some (shortString "NULLIFIER_TAG:V1") then 3000 + l.getD 3 0
    else 7
  generatorMul x := x
  pointMul sk x := some (sk * x)

def numberingCrates : Crates := { plainCrates with curve := numberingCurve }

/-- User 1 with one incoming channel, from user 9: its key is 7, and it holds one open note of
token 3. -/
def sharedChannel : Snapshot := fun _ calldata =>
  if calldata = [1] then [1, 0, 0]
  else if calldata = [1, 0] then [4, 14, 16]
  else if calldata = [7] then [1, 0, 0]
  else if calldata = [2000] then [6, 10, 0]
  else if calldata = [1000] then [Felt.ofNat (2 ^ 128 + 10), 0, 0]
  else [0, 0, 0]

theorem sharedChannel_consistent : Consistent numberingCrates sharedChannel where
  full name n h calldata := by
    have hlen : (sharedChannel (getSelectorFromName numberingCrates name) calldata).length = 3 := by
      unfold sharedChannel
      split_ifs <;> rfl
    have hn : ∀ entry ∈ views, entry.2 ≤ 3 := by decide
    rw [hlen]
    exact hn _ h
  subchannels key := ⟨1, by norm_num, rfl⟩
  notes key t := ⟨1, by norm_num, rfl⟩

end Strkd.Strk20
