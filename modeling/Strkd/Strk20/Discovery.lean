import Strkd.Strk20.Planner
import Strkd.Wallet.Keys

/-!
# Discovery

Reading a user's private state from the pool's storage through its view functions.  Every list
(incoming channels, subchannels, notes, outgoing channels) is scanned to its first empty slot; an
index that no longer fits in 32 bits ends the scan with an error.
-/

namespace Strkd.Strk20

open Std (ExtTreeMap)
open Wallet (Crates getSelectorFromName)

/-! ## Decryption -/

section

variable (C : Curve)

/-- ECDH: the x-coordinate of `sk · P`, where `P` has the given x-coordinate. -/
def sharedX (sk publicX : Felt) : Except Error Felt :=
  match C.pointMul sk publicX with
  | some x => .ok x
  | none => .error (.notOnCurve publicX)

/-- An incoming channel as the pool stores it. -/
structure EncChannelInfo where
  ephemeralPubkey : Felt
  encChannelKey : Felt
  encSenderAddr : Felt

structure ChannelInfo where
  key : Felt
  sender : Felt

def decryptChannelInfo (enc : EncChannelInfo) (recipientPrivateKey : Felt) :
    Except Error ChannelInfo := do
  let shared ← sharedX C recipientPrivateKey enc.ephemeralPubkey
  return ⟨enc.encChannelKey - encChannelKeyHash C shared,
    enc.encSenderAddr - encSenderAddrHash C shared⟩

/-- A subchannel; a zero salt ends a scan. -/
structure EncSubchannelInfo where
  salt : Felt
  encToken : Felt

def decryptSubchannelToken (enc : EncSubchannelInfo) (channelKey : Felt) (index : U32) : Felt :=
  enc.encToken - encTokenHash C channelKey index enc.salt

structure NoteValue where
  amount : U128
  salt : U128
  isOpen : Bool

/-- The high and the low 128 bits of a felt. -/
def splitU128s (value : Felt) : U128 × U128 :=
  (BitVec.ofNat 128 (value.val / 2 ^ 128), BitVec.ofNat 128 value.val)

/-- Decrypt a note's packed value; `none` for an empty slot. -/
def decryptNoteValue (packed channelKey token : Felt) (index : U32) : Option NoteValue :=
  if packed = 0 then none
  else
    let (salt, encAmount) := splitU128s packed
    if salt = openNoteSalt then some ⟨encAmount, salt, true⟩
    else
      let (_, pad) := splitU128s (encAmountHash C channelKey token index (.ofNat salt.toNat))
      some ⟨encAmount - pad, salt, false⟩

def twoPow128 : Felt := .ofNat (2 ^ 127) * 2

/-- Inverse of `decryptNoteValue` for an encrypted note. -/
def encryptNoteValue (amount salt : U128) (channelKey token : Felt) (index : U32) : Felt :=
  let (_, pad) := splitU128s (encAmountHash C channelKey token index (.ofNat salt.toNat))
  let encAmount := pad + amount
  .ofNat salt.toNat * twoPow128 + .ofNat encAmount.toNat

end

/-! ## Reading the pool -/

/-- Read access to one pool at one block, and what a loop that never ends comes to. -/
structure PoolReader (m : Type → Type) where
  call : Felt → List Felt → ExceptT Error m (List Felt)
  stuck : {α : Type} → ExceptT Error m α

section

variable {m : Type → Type} [Monad m] (K : Crates) (r : PoolReader m)

/-- A view call that has to return at least `n` felts. -/
def view (name : String) (calldata : List Felt) (n : ℕ) : ExceptT Error m (List Felt) := do
  let out ← r.call (getSelectorFromName K name) calldata
  if out.length < n then
    throw (.read (name ++ " returned " ++ toString out.length ++ " felts, expected " ++ toString n))
  return out

/-- The `i`-th felt of a view's output. -/
def out (felts : List Felt) (i : ℕ) : Felt := felts.getD i 0

/-- The viewing public key `user` registered. -/
def registeredKey (user : Felt) : ExceptT Error m (Option Felt) := do
  let pk := out (← view K r "get_public_key" [user] 1) 0
  return if pk = 0 then none else some pk

def flag (name : String) (arg : Felt) : ExceptT Error m Bool := do
  return out (← view K r name [arg] 1) 0 ≠ 0

def notePackedValue (noteId : Felt) : ExceptT Error m Felt := do
  return out (← view K r "get_note" [noteId] 1) 0

def subchannelInfo (id : Felt) : ExceptT Error m EncSubchannelInfo := do
  let o ← view K r "get_subchannel_info" [id] 2
  return ⟨out o 0, out o 1⟩

def indexOverflow {α : Type} : ExceptT Error m α := throw (.read "index overflow")

/-- How many indices a 32-bit scan visits. -/
def indices : ℕ := 2 ^ 32

/-! ## Notes -/

/-- The unspent notes of a subchannel from index `i` on, with `left` indices to go. -/
def scanNotes (channel : ChannelInfo) (userSk token : Felt) : ℕ → ℕ → ExceptT Error m (List Note)
  | 0, _ => indexOverflow
  | left + 1, i => do
      let index := BitVec.ofNat 32 i
      let id := noteId K.curve channel.key token index
      let packed ← notePackedValue K r id
      match decryptNoteValue K.curve packed channel.key token index with
      | none => return []
      | some value => do
          let spent ← flag K r "nullifier_exists" (nullifier K.curve channel.key token index userSk)
          let rest ← scanNotes channel userSk token left (i + 1)
          return if spent then rest
            else ⟨id, token, value.amount, channel.key, index, channel.sender, value.isOpen⟩ :: rest

/-- The notes of a channel's subchannels from index `k` on, of the tokens asked for. -/
def scanSubchannels (channel : ChannelInfo) (userSk : Felt) (tokens : List Felt) :
    ℕ → ℕ → ExceptT Error m (List Note)
  | 0, _ => indexOverflow
  | left + 1, k => do
      let index := BitVec.ofNat 32 k
      let sub ← subchannelInfo K r (subchannelId K.curve channel.key index)
      if sub.salt = 0 then return []
      let token := decryptSubchannelToken K.curve sub channel.key index
      let notes ← if tokens ≠ [] ∧ token ∉ tokens then pure []
        else scanNotes K r channel userSk token indices 0
      let rest ← scanSubchannels channel userSk tokens left (k + 1)
      return notes ++ rest

/-- The notes of `left` incoming channels from channel `c` on. -/
def scanChannels (user userSk : Felt) (tokens : List Felt) : ℕ → ℕ → ExceptT Error m (List Note)
  | 0, _ => return []
  | left + 1, c => do
      let o ← view K r "get_channel_info" [user, .ofNat c] 3
      let channel ← (decryptChannelInfo K.curve ⟨out o 0, out o 1, out o 2⟩ userSk : Except _ _)
      let notes ← scanSubchannels K r channel userSk tokens indices 0
      let rest ← scanChannels user userSk tokens left (c + 1)
      return notes ++ rest

/-- Every unspent note addressed to `user`, across all incoming channels. -/
def discoverNotes (user userSk : Felt) (tokens : List Felt) : ExceptT Error m (List Note) := do
  let count := out (← view K r "get_num_of_channels" [user] 1) 0
  if 2 ^ 64 ≤ count.val then throw (.read "channel count overflow")
  scanChannels K r user userSk tokens count.val 0

/-! ## Outgoing channels -/

/-- The index of the first empty note slot, from `next` on. -/
def countNotes (key token : Felt) : ℕ → U32 → ExceptT Error m U32
  | 0, _ => r.stuck
  | fuel + 1, next => do
      let packed ← notePackedValue K r (noteId K.curve key token next)
      if packed = 0 then return next
      countNotes key token fuel (next + 1)

/-- The subchannels of a channel from index `k` on. -/
def scanOutgoing (fuel : ℕ) (key : Felt) :
    ℕ → ℕ → ExtTreeMap Felt Subchannel → ExceptT Error m (ExtTreeMap Felt Subchannel)
  | 0, _, _ => indexOverflow
  | left + 1, k, found => do
      let index := BitVec.ofNat 32 k
      let sub ← subchannelInfo K r (subchannelId K.curve key index)
      if sub.salt = 0 then return found
      let token := decryptSubchannelToken K.curve sub key index
      let next ← countNotes K r key token fuel 0
      scanOutgoing fuel key left (k + 1) (found.insert token ⟨index, next⟩)

/-- The user's channel to `recipient`, opened or not. -/
def discoverChannel (fuel : ℕ) (user userSk recipient : Felt) : ExceptT Error m OutgoingChannel := do
  let some pk ← registeredKey K r recipient | throw (.notRegistered recipient)
  let key := channelKey K.curve user userSk recipient pk
  let isOpen ← flag K r "channel_exists" (channelMarker K.curve key user recipient pk)
  let subchannels ← if isOpen then scanOutgoing K r fuel key indices 0 ∅ else pure ∅
  return { recipient, recipientPublicKey := pk, key, isOpen, subchannels }

/-- The first empty outgoing-channel slot, from `s` on. -/
def scanChannelCount (user userSk : Felt) : ℕ → ℕ → ExceptT Error m U32
  | 0, _ => indexOverflow
  | left + 1, s => do
      let index := BitVec.ofNat 32 s
      let o ← view K r "get_outgoing_channel_info" [outgoingChannelId K.curve user userSk index] 2
      if out o 0 = 0 then return index
      scanChannelCount user userSk left (s + 1)

/-- How many channels the user has opened. -/
def outgoingChannelCount (user userSk : Felt) : ExceptT Error m U32 :=
  scanChannelCount K r user userSk indices 0

end

end Strkd.Strk20
