import Strkd.Core.Felt

/-!
# The pool's domain-separated hashes

Every hash is Poseidon over `[tag, ...inputs]`, and every index is followed by a `0` felt.  The
curve and Poseidon itself come from `starknet-types-core` and are parameters of the model.
-/

namespace Strkd.Strk20

/-- What the client takes from `starknet-types-core`: Poseidon over a list of felts, the
x-coordinate of `sk · G`, and the x-coordinate of `sk · P` for a point `P` with the given
x-coordinate (`none` when there is no such point). -/
structure Curve where
  poseidon : List Felt → Felt
  generatorMul : Felt → Felt
  pointMul : Felt → Felt → Option Felt

/-- Operations that are easy to compute with. -/
def plainCurve : Curve where
  poseidon l := l.tail.foldl (fun n x => 10 * n + x) 7
  generatorMul x := x
  pointMul sk x := some (sk * x)

variable (C : Curve)

/-- Hash `inputs` in the domain of `tag`. -/
def hash (tag : String) (inputs : List Felt) : Felt := C.poseidon (shortString tag :: inputs)

def idx (index : U32) : Felt := .ofNat index.toNat

def identityKey (userAddr userPrivateKey contractAddress : Felt) : Felt :=
  hash C "IDENTITY_KEY_TAG:V1" [userAddr, userPrivateKey, contractAddress]

def encPrivateKeyHash (sharedX : Felt) : Felt := hash C "ENC_PRIVATE_KEY_TAG:V1" [sharedX]

def encUserAddrHash (sharedX : Felt) : Felt := hash C "ENC_USER_ADDR_TAG:V1" [sharedX]

def encTokenHash (channelKey : Felt) (index : U32) (salt : Felt) : Felt :=
  hash C "ENC_TOKEN_TAG:V1" [channelKey, idx index, 0, salt]

def encChannelKeyHash (sharedX : Felt) : Felt := hash C "ENC_CHANNEL_KEY_TAG:V1" [sharedX]

def encSenderAddrHash (sharedX : Felt) : Felt := hash C "ENC_SENDER_ADDR_TAG:V1" [sharedX]

def encRecipientAddrHash (sender senderSk : Felt) (index : U32) (salt : Felt) : Felt :=
  hash C "ENC_RECIPIENT_ADDR_TAG:V1" [sender, senderSk, idx index, 0, salt]

def channelKey (sender senderSk recipient recipientPk : Felt) : Felt :=
  hash C "CHANNEL_KEY_TAG:V1" [sender, senderSk, recipient, recipientPk]

def outgoingChannelId (sender senderSk : Felt) (index : U32) : Felt :=
  hash C "OUTGOING_CHANNEL_ID_TAG:V1" [sender, senderSk, idx index, 0]

def channelMarker (key sender recipient recipientPk : Felt) : Felt :=
  hash C "CHANNEL_MARKER_TAG:V1" [key, sender, recipient, recipientPk]

def subchannelId (key : Felt) (index : U32) : Felt :=
  hash C "SUBCHANNEL_ID_TAG:V1" [key, idx index, 0]

def subchannelMarker (key recipient recipientPk token : Felt) : Felt :=
  hash C "SUBCHANNEL_MARKER_TAG:V1" [key, recipient, recipientPk, token]

def noteId (key token : Felt) (index : U32) : Felt :=
  hash C "NOTE_ID_TAG:V1" [key, token, idx index, 0]

def encAmountHash (key token : Felt) (index : U32) (salt : Felt) : Felt :=
  hash C "ENC_AMOUNT_TAG:V1" [key, token, idx index, 0, salt]

def nullifier (key token : Felt) (index : U32) (ownerSk : Felt) : Felt :=
  hash C "NULLIFIER_TAG:V1" [key, token, idx index, 0, ownerSk]

/-- The pool's notion of a public key: the x-coordinate of `sk · G`. -/
def publicKey (sk : Felt) : Felt := C.generatorMul sk

end Strkd.Strk20
