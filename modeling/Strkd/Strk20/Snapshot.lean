import Strkd.Lib.Outcomes
import Strkd.Lib.Scan
import Strkd.Strk20.Discovery

/-!
# A snapshot of the pool

What the pool's views answer at one block, and what the lists they serve hold: incoming channels,
their subchannels, the notes of a subchannel.  A reader `Answers` a snapshot when each of its calls
fails or returns what the snapshot holds.
-/

namespace Strkd.Strk20

open Wallet (Crates getSelectorFromName)

/-- What each selector answers on each calldata. -/
abbrev Snapshot := Felt → List Felt → List Felt

/-- Every call of the reader that succeeds returns the snapshot's answer. -/
def Answers {m : Type → Type} [Monad m] (O : Outcomes m) (r : PoolReader m) (v : Snapshot) : Prop :=
  ∀ selector calldata felts, O.Gives (r.call selector calldata) felts → felts = v selector calldata

namespace Snapshot

variable (K : Crates) (v : Snapshot)

/-- The `i`-th felt a view answers. -/
def read (name : String) (calldata : List Felt) (i : ℕ) : Felt :=
  out (v (getSelectorFromName K name) calldata) i

/-! ## Incoming channels -/

def numChannels (user : Felt) : ℕ := (read K v "get_num_of_channels" [user] 0).val

/-- Incoming channel `c` of a user, decrypted. -/
def channel (user userSk : Felt) (c : ℕ) : Except Error ChannelInfo :=
  decryptChannelInfo K.curve ⟨read K v "get_channel_info" [user, .ofNat c] 0,
    read K v "get_channel_info" [user, .ofNat c] 1,
    read K v "get_channel_info" [user, .ofNat c] 2⟩ userSk

/-! ## Subchannels -/

def subchannel (key : Felt) (k : ℕ) : EncSubchannelInfo :=
  ⟨read K v "get_subchannel_info" [subchannelId K.curve key (BitVec.ofNat 32 k)] 0,
    read K v "get_subchannel_info" [subchannelId K.curve key (BitVec.ofNat 32 k)] 1⟩

/-- The token of subchannel `k` of a channel. -/
def token (key : Felt) (k : ℕ) : Felt :=
  decryptSubchannelToken K.curve (subchannel K v key k) key (BitVec.ofNat 32 k)

def subchannelEmpty (key : Felt) (k : ℕ) : Prop := (subchannel K v key k).salt = 0

/-- The position of a channel's first subchannel with salt 0. -/
noncomputable def numSubchannels (key : Felt) : ℕ := firstEmpty (subchannelEmpty K v key)

/-! ## Notes -/

/-- The packed value of note slot `i` of a subchannel. -/
def packed (key token : Felt) (i : ℕ) : Felt :=
  read K v "get_note" [noteId K.curve key token (BitVec.ofNat 32 i)] 0

def noteEmpty (key token : Felt) (i : ℕ) : Prop := packed K v key token i = 0

/-- The first empty note slot of a subchannel. -/
noncomputable def numNotes (key token : Felt) : ℕ := firstEmpty (noteEmpty K v key token)

/-- The note's nullifier under the owner's viewing key exists. -/
def spent (key token userSk : Felt) (i : ℕ) : Prop :=
  read K v "nullifier_exists" [nullifier K.curve key token (BitVec.ofNat 32 i) userSk] 0 ≠ 0

/-- The note that decrypting a slot gives. -/
def noteAt (info : ChannelInfo) (token : Felt) (i : ℕ) : Option Note :=
  let index := BitVec.ofNat 32 i
  (decryptNoteValue K.curve (packed K v info.key token i) info.key token index).map fun value =>
    ⟨noteId K.curve info.key token index, token, value.amount, info.key, index, info.sender,
      value.isOpen⟩

end Snapshot

/-! ## What a reader of a snapshot reads -/

section

variable {m : Type → Type} [Monad m] {O : Outcomes m} {K : Crates} {r : PoolReader m} {v : Snapshot}

theorem gives_view {name : String} {calldata : List Felt} {n : ℕ} {felts : List Felt}
    (hr : Answers O r v) (h : O.Gives (view K r name calldata n) felts) :
    felts = v (getSelectorFromName K name) calldata := by
  obtain ⟨o, ho, h⟩ := h.bind
  obtain ⟨-, h⟩ := h.refuse
  rw [h.pure]
  exact hr _ _ _ ho

theorem gives_notePackedValue {id packed : Felt} (hr : Answers O r v)
    (h : O.Gives (notePackedValue K r id) packed) : packed = Snapshot.read K v "get_note" [id] 0 := by
  obtain ⟨o, ho, h⟩ := h.bind
  rw [h.pure, gives_view hr ho]
  rfl

theorem gives_flag {name : String} {arg : Felt} {b : Bool} (hr : Answers O r v)
    (h : O.Gives (flag K r name arg) b) : b = true ↔ Snapshot.read K v name [arg] 0 ≠ 0 := by
  obtain ⟨o, ho, h⟩ := h.bind
  rw [h.pure, gives_view hr ho]
  exact decide_eq_true_iff

theorem gives_subchannelInfo {key : Felt} {k : ℕ} {sub : EncSubchannelInfo} (hr : Answers O r v)
    (h : O.Gives (subchannelInfo K r (subchannelId K.curve key (BitVec.ofNat 32 k))) sub) :
    sub = Snapshot.subchannel K v key k := by
  obtain ⟨o, ho, h⟩ := h.bind
  rw [h.pure, gives_view hr ho]
  rfl

theorem gives_registeredKey {user : Felt} {pk : Option Felt} (hr : Answers O r v)
    (h : O.Gives (registeredKey K r user) pk) :
    pk = if Snapshot.read K v "get_public_key" [user] 0 = 0 then none
      else some (Snapshot.read K v "get_public_key" [user] 0) := by
  obtain ⟨o, ho, h⟩ := h.bind
  rw [h.pure, gives_view hr ho]
  rfl

end

end Strkd.Strk20
