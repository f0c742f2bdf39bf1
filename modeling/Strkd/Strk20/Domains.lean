import Strkd.Strk20.Hashes

/-!
# The domains of the pool's hashes

The fifteen hash functions of the pool as one enumeration, with the arguments of each and the felts
it hands to Poseidon.  No two applications hand over the same felts (`hashes_separated`).
-/

namespace Strkd.Strk20

/-- The hash functions of the pool. -/
inductive HashFunction where
  | identityKey
  | encPrivateKeyHash
  | encUserAddrHash
  | encTokenHash
  | encChannelKeyHash
  | encSenderAddrHash
  | encRecipientAddrHash
  | channelKey
  | outgoingChannelId
  | channelMarker
  | subchannelId
  | subchannelMarker
  | noteId
  | encAmountHash
  | nullifier
  deriving DecidableEq, Repr

namespace HashFunction

def all : List HashFunction := [
  identityKey, encPrivateKeyHash, encUserAddrHash, encTokenHash, encChannelKeyHash,
  encSenderAddrHash, encRecipientAddrHash, channelKey, outgoingChannelId, channelMarker,
  subchannelId, subchannelMarker, noteId, encAmountHash, nullifier]

/-- The arguments of a function. -/
abbrev Args : HashFunction → Type
  | encPrivateKeyHash | encUserAddrHash | encChannelKeyHash | encSenderAddrHash => Felt
  | identityKey => Felt × Felt × Felt
  | channelKey | channelMarker | subchannelMarker => Felt × Felt × Felt × Felt
  | subchannelId => Felt × U32
  | encTokenHash => Felt × U32 × Felt
  | outgoingChannelId | noteId => Felt × Felt × U32
  | encRecipientAddrHash | encAmountHash | nullifier => Felt × Felt × U32 × Felt

/-- Apply a function. -/
def apply (C : Curve) : (f : HashFunction) → f.Args → Felt
  | identityKey, (user, sk, contract) => Strk20.identityKey C user sk contract
  | encPrivateKeyHash, sharedX => Strk20.encPrivateKeyHash C sharedX
  | encUserAddrHash, sharedX => Strk20.encUserAddrHash C sharedX
  | encTokenHash, (key, index, salt) => Strk20.encTokenHash C key index salt
  | encChannelKeyHash, sharedX => Strk20.encChannelKeyHash C sharedX
  | encSenderAddrHash, sharedX => Strk20.encSenderAddrHash C sharedX
  | encRecipientAddrHash, (sender, sk, index, salt) =>
      Strk20.encRecipientAddrHash C sender sk index salt
  | channelKey, (sender, sk, recipient, pk) => Strk20.channelKey C sender sk recipient pk
  | outgoingChannelId, (sender, sk, index) => Strk20.outgoingChannelId C sender sk index
  | channelMarker, (key, sender, recipient, pk) => Strk20.channelMarker C key sender recipient pk
  | subchannelId, (key, index) => Strk20.subchannelId C key index
  | subchannelMarker, (key, recipient, pk, token) =>
      Strk20.subchannelMarker C key recipient pk token
  | noteId, (key, token, index) => Strk20.noteId C key token index
  | encAmountHash, (key, token, index, salt) => Strk20.encAmountHash C key token index salt
  | nullifier, (key, token, index, sk) => Strk20.nullifier C key token index sk

def tag : HashFunction → String
  | identityKey => "IDENTITY_KEY_TAG:V1"
  | encPrivateKeyHash => "ENC_PRIVATE_KEY_TAG:V1"
  | encUserAddrHash => "ENC_USER_ADDR_TAG:V1"
  | encTokenHash => "ENC_TOKEN_TAG:V1"
  | encChannelKeyHash => "ENC_CHANNEL_KEY_TAG:V1"
  | encSenderAddrHash => "ENC_SENDER_ADDR_TAG:V1"
  | encRecipientAddrHash => "ENC_RECIPIENT_ADDR_TAG:V1"
  | channelKey => "CHANNEL_KEY_TAG:V1"
  | outgoingChannelId => "OUTGOING_CHANNEL_ID_TAG:V1"
  | channelMarker => "CHANNEL_MARKER_TAG:V1"
  | subchannelId => "SUBCHANNEL_ID_TAG:V1"
  | subchannelMarker => "SUBCHANNEL_MARKER_TAG:V1"
  | noteId => "NOTE_ID_TAG:V1"
  | encAmountHash => "ENC_AMOUNT_TAG:V1"
  | nullifier => "NULLIFIER_TAG:V1"

/-- The felts after the tag. -/
def inputs : (f : HashFunction) → f.Args → List Felt
  | encPrivateKeyHash, x | encUserAddrHash, x | encChannelKeyHash, x | encSenderAddrHash, x => [x]
  | identityKey, (a, b, c) => [a, b, c]
  | channelKey, (a, b, c, d) | channelMarker, (a, b, c, d) | subchannelMarker, (a, b, c, d) =>
      [a, b, c, d]
  | subchannelId, (a, i) => [a, idx i, 0]
  | encTokenHash, (a, i, c) => [a, idx i, 0, c]
  | outgoingChannelId, (a, b, i) | noteId, (a, b, i) => [a, b, idx i, 0]
  | encRecipientAddrHash, (a, b, i, c) | encAmountHash, (a, b, i, c) | nullifier, (a, b, i, c) =>
      [a, b, idx i, 0, c]

/-- The felts handed to Poseidon. -/
def felts (f : HashFunction) (args : f.Args) : List Felt := shortString f.tag :: f.inputs args

theorem mem_all (f : HashFunction) : f ∈ all := by
  cases f <;> decide

theorem apply_eq (C : Curve) (f : HashFunction) (args : f.Args) :
    f.apply C args = C.poseidon (f.felts args) := by
  cases f <;> rfl

/-! ## Tags -/

theorem tags_separated : ∀ f ∈ all, ∀ g ∈ all,
    shortString f.tag = shortString g.tag → f = g := by
  decide +kernel

theorem tag_injective {f g : HashFunction} (h : shortString f.tag = shortString g.tag) : f = g :=
  tags_separated f (mem_all f) g (mem_all g) h

/-- A tag fits the 31 bytes of a felt. -/
theorem tag_short (f : HashFunction) : f.tag.utf8ByteSize ≤ 31 := by
  cases f <;> decide +kernel

/-! ## Layouts -/

theorem idx_injective {i j : U32} (h : idx i = idx j) : i = j := by
  have hlt : ∀ k : U32, k.toNat < feltPrime := fun k => k.isLt.trans (by decide)
  have hval := congrArg Fin.val h
  rw [idx, idx, Felt.val_ofNat_of_lt (hlt i), Felt.val_ofNat_of_lt (hlt j)] at hval
  exact BitVec.eq_of_toNat_eq hval

/-- A layout keeps all of its arguments apart. -/
theorem inputs_injective (f : HashFunction) : Function.Injective f.inputs := by
  have hidx : ∀ {i j : U32}, idx i = idx j ↔ i = j := ⟨idx_injective, congrArg idx⟩
  intro a b h
  cases f <;> simpa [inputs, Prod.ext_iff, hidx] using h

/-- Equal felts come from one function and its arguments. -/
theorem felts_injective {f g : HashFunction} {a : f.Args} {b : g.Args} (h : f.felts a = g.felts b) :
    (⟨f, a⟩ : (f : HashFunction) × f.Args) = ⟨g, b⟩ := by
  obtain ⟨htag, hinputs⟩ := List.cons.inj h
  obtain rfl := tag_injective htag
  rw [inputs_injective f hinputs]

end HashFunction

/-- Each hash is Poseidon over its felts, a tag of at most 31 bytes first, and two applications hand
over the same felts only if they are of one function to the same arguments. -/
theorem hashes_separated :
    (∀ (C : Curve) (f : HashFunction) (args : f.Args), f.apply C args = C.poseidon (f.felts args)) ∧
    (∀ f : HashFunction, f.tag.utf8ByteSize ≤ 31) ∧
    (∀ f g : HashFunction, shortString f.tag = shortString g.tag → f = g) ∧
    ∀ (f g : HashFunction) (a : f.Args) (b : g.Args), f.felts a = g.felts b →
      (⟨f, a⟩ : (f : HashFunction) × f.Args) = ⟨g, b⟩ :=
  ⟨HashFunction.apply_eq, HashFunction.tag_short, fun _ _ => HashFunction.tag_injective,
    fun _ _ _ _ => HashFunction.felts_injective⟩

end Strkd.Strk20
