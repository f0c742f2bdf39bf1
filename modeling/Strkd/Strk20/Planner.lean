import Strkd.Strk20.Actions
import Strkd.Strk20.Hashes

/-!
# Planning a batch

`plan` turns an intent into an ordered list of client actions: it balances every token, covers a
deficit with notes (largest first), returns a surplus as a change note, and gives every channel,
subchannel and note it creates the next free index.

The planner runs in `Draw ρ`: a randomness source with state `ρ`, errors, and `none` for a run
that has not ended within its fuel (only the salt loop of `noteSalt` can run on).
-/

namespace Strkd.Strk20

open Std (ExtTreeMap)

/-! ## Discovered state -/

/-- A note the user can spend. -/
structure Note where
  id : Felt
  token : Felt
  amount : U128
  channelKey : Felt
  index : U32
  sender : Felt
  isOpen : Bool
  deriving DecidableEq, Repr

/-- A token subchannel inside one of the user's outgoing channels. -/
structure Subchannel where
  index : U32
  nextNoteIndex : U32
  deriving DecidableEq, Repr

/-- The user's view of a channel it sends on. -/
structure OutgoingChannel where
  recipient : Felt
  recipientPublicKey : Felt
  key : Felt
  isOpen : Bool
  subchannels : ExtTreeMap Felt Subchannel
  deriving DecidableEq

abbrev Channels := ExtTreeMap Felt OutgoingChannel

/-- Discovered state the plan builds on. -/
structure State where
  user : Felt
  userSk : Felt
  registered : Bool
  outgoingChannels : U32
  channels : Channels
  notes : List Note

/-- What the user wants this batch to do. -/
structure Intent where
  register : Bool := false
  deposits : List (Felt × U128) := []
  /-- `(recipient, token, amount)` -/
  transfers : List (Felt × Felt × U128) := []
  /-- `(to, token, amount)` -/
  withdrawals : List (Felt × Felt × U128) := []
  deriving DecidableEq, Repr

inductive Warning where
  | userLinkage
  deriving DecidableEq, Repr

structure Plan where
  actions : List ClientAction
  spent : List Felt
  change : ExtTreeMap Felt U128
  warnings : List Warning

/-! ## Randomness -/

/-- A source of random felts and note salts, with its state. -/
structure Randomness (ρ : Type) where
  felt : ρ → Except Error Felt × ρ
  salt120 : ρ → Except Error U128 × ρ

/-- Computations that draw from a randomness source; `none` is a run out of fuel. -/
abbrev Draw (ρ : Type) := StateT ρ (ExceptT Error Option)

section

variable {ρ : Type} (rng : Randomness ρ)

def drawFelt : Draw ρ Felt := fun s => match rng.felt s with
  | (.ok f, s') => ExceptT.mk (some (.ok (f, s')))
  | (.error e, _) => ExceptT.mk (some (.error e))

def drawSalt120 : Draw ρ U128 := fun s => match rng.salt120 s with
  | (.ok v, s') => ExceptT.mk (some (.ok (v, s')))
  | (.error e, _) => ExceptT.mk (some (.error e))

def outOfFuel {α : Type} : Draw ρ α := fun _ => ExceptT.mk none

end

/-! ## Value -/

/-- Salt marking an open note. -/
def openNoteSalt : U128 := 1

def nonzero (amount : U128) : Except Error Unit :=
  if amount = 0 then .error .zeroAmount else .ok ()

/-- `i128::try_from`. -/
def signed (a : U128) : Except Error I128 :=
  if a.msb then .error (.read "amount exceeds i128") else .ok a

/-- `*balance.entry(token).or_default() += x`, in wrapping arithmetic. -/
def addBalance (balance : ExtTreeMap Felt I128) (token : Felt) (x : I128) : ExtTreeMap Felt I128 :=
  balance.alter token fun b => some (b.getD 0 + x)

def addDeposits : ExtTreeMap Felt I128 → List (Felt × U128) → Except Error (ExtTreeMap Felt I128)
  | balance, [] => .ok balance
  | balance, (token, amount) :: rest => do
      let a ← signed amount
      addDeposits (addBalance balance token a) rest

def subtractPayments :
    ExtTreeMap Felt I128 → List (Felt × Felt × U128) → Except Error (ExtTreeMap Felt I128)
  | balance, [] => .ok balance
  | balance, (_, token, amount) :: rest => do
      let a ← signed amount
      subtractPayments (addBalance balance token (-a)) rest

/-- Per-token balance: deposits minus transfers minus withdrawals. -/
def balances (intent : Intent) : Except Error (ExtTreeMap Felt I128) := do
  let balance ← addDeposits ∅ intent.deposits
  subtractPayments balance (intent.transfers ++ intent.withdrawals)

/-- The notes of `token` a deficit may be covered with, largest first (a stable sort). -/
def candidates (notes : List Note) (token : Felt) : List Note :=
  (notes.filter fun n => n.token = token ∧ n.isOpen = false ∧ 0 < n.amount).insertionSort
    fun n m => m.amount ≤ n.amount

/-- Spend notes in order until the balance is no longer negative. -/
def spendUntil : I128 → List Note → Except Error (I128 × List Note)
  | bal, [] => .ok (bal, [])
  | bal, n :: rest =>
      if 0 ≤ bal.toInt then .ok (bal, [])
      else do
        let a ← signed n.amount
        let (bal', spends) ← spendUntil (bal + a) rest
        return (bal', n :: spends)

/-- Cover one token's balance: the final balance and the notes spent. -/
def coverToken (notes : List Note) (token : Felt) (bal : I128) : Except Error (I128 × List Note) :=
  if bal.toInt < 0 then do
    let (bal', spends) ← spendUntil bal (candidates notes token)
    if bal'.toInt < 0 then
      throw (.insufficientBalance token (-bal')
        ((notes.filter fun n => n.token = token).map Note.amount).sum)
    return (bal', spends)
  else return (bal, [])

/-- Cover every token's deficit, in the order of the tokens: the notes spent and the change. -/
def coverDeficits (notes : List Note) :
    List (Felt × I128) → Except Error (List Note × ExtTreeMap Felt U128)
  | [] => .ok ([], ∅)
  | (token, bal) :: rest => do
      let (bal', spends) ← coverToken notes token bal
      let (spends', change) ← coverDeficits notes rest
      return (spends ++ spends',
        if 0 < bal'.toInt then change.insert token bal' else change)

/-- Balance every token of the intent: the notes to spend and the change to return. -/
def selectNotes (intent : Intent) (st : State) :
    Except Error (List Note × ExtTreeMap Felt U128) := do
  coverDeficits st.notes (← balances intent).toList

/-- New notes: transfers first, then change to the user. -/
def newNotes (intent : Intent) (user : Felt) (change : ExtTreeMap Felt U128) :
    List (Felt × Felt × U128) :=
  intent.transfers ++ change.toList.map fun (token, amount) => (user, token, amount)

/-! ## Slots -/

/-- The mutable locals of the allocation loop. -/
structure Alloc where
  channels : Channels
  nextChannelIndex : U32
  openChannels : List ClientAction := []
  openSubchannels : List ClientAction := []
  createNotes : List ClientAction := []

section

variable {ρ : Type} (rng : Randomness ρ)

/-- A note salt: 120 bits, never 0 or 1. -/
def noteSalt : ℕ → Draw ρ U128
  | 0 => outOfFuel
  | fuel + 1 => do
      let salt ← drawSalt120 rng
      if openNoteSalt < salt then return salt
      noteSalt fuel

def ensureChannel (recipient : Felt) (a : Alloc) : Draw ρ Alloc := do
  match a.channels[recipient]? with
  | none => throw (.notRegistered recipient)
  | some channel =>
      if channel.isOpen then return a
      let random ← drawFelt rng
      let salt ← drawFelt rng
      return { a with
        openChannels := a.openChannels ++ [.openChannel recipient a.nextChannelIndex random salt]
        nextChannelIndex := a.nextChannelIndex + 1
        channels := a.channels.insert recipient { channel with isOpen := true } }

/-- The subchannel of `token` on `channel`, opened at the channel's subchannel count if missing. -/
def ensureSubchannel (recipient token : Felt) (channel : OutgoingChannel) (a : Alloc) :
    Draw ρ (Subchannel × Alloc) := do
  match channel.subchannels[token]? with
  | some sub => return (sub, a)
  | none =>
      let index := BitVec.ofNat 32 channel.subchannels.size
      let salt ← drawFelt rng
      let action := .openSubchannel recipient channel.recipientPublicKey channel.key index token salt
      return (⟨index, 0⟩, { a with openSubchannels := a.openSubchannels ++ [action] })

/-- Allocate one new note: its channel, its subchannel and its index. -/
def allocNote (fuel : ℕ) (a : Alloc) : Felt × Felt × U128 → Draw ρ Alloc
  | (recipient, token, amount) => do
      let a ← ensureChannel rng recipient a
      match a.channels[recipient]? with
      | none => throw (.notRegistered recipient)
      | some channel =>
          let (sub, a) ← ensureSubchannel rng recipient token channel a
          let salt ← noteSalt rng fuel
          let action := .createEncNote recipient channel.recipientPublicKey token amount
            sub.nextNoteIndex salt
          let next := { sub with nextNoteIndex := sub.nextNoteIndex + 1 }
          return { a with
            createNotes := a.createNotes ++ [action]
            channels := a.channels.insert recipient
              { channel with subchannels := channel.subchannels.insert token next } }

def allocNotes (fuel : ℕ) : Alloc → List (Felt × Felt × U128) → Draw ρ Alloc
  | a, [] => return a
  | a, n :: rest => do
      let a' ← allocNote rng fuel a n
      allocNotes fuel a' rest

/-- The self-channel a registering user opens: it cannot exist before. -/
def selfChannel (C : Curve) (user userSk : Felt) : OutgoingChannel where
  recipient := user
  recipientPublicKey := publicKey C userSk
  key := channelKey C user userSk user (publicKey C userSk)
  isOpen := false
  subchannels := ∅

/-- Registration: the viewing-key action, and the self-channel opened before any other. -/
def registerUser (C : Curve) (intent : Intent) (st : State) :
    Draw ρ (List ClientAction × Alloc) := do
  let a : Alloc := { channels := st.channels, nextChannelIndex := st.outgoingChannels }
  if intent.register && !st.registered then
    let random ← drawFelt rng
    let channels := a.channels.insert st.user (selfChannel C st.user st.userSk)
    let a ← ensureChannel rng st.user { a with channels }
    return ([.setViewingKey random], a)
  else return ([], a)

def withdrawActions : List (Felt × Felt × U128) → Draw ρ (List ClientAction)
  | [] => return []
  | (toAddr, token, amount) :: rest => do
      let random ← drawFelt rng
      let actions ← withdrawActions rest
      return .withdraw toAddr token amount random :: actions

def isOpenChannel : ClientAction → Bool
  | .openChannel .. => true
  | _ => false

/-- Plan a batch. -/
def plan (C : Curve) (fuel : ℕ) (intent : Intent) (st : State) : Draw ρ Plan := do
  if !intent.register && !st.registered then throw (.notRegistered st.user)
  intent.deposits.forM fun d => (nonzero d.2 : Except Error Unit)
  (intent.transfers ++ intent.withdrawals).forM fun t => (nonzero t.2.2 : Except Error Unit)
  let (spends, change) ← (selectNotes intent st : Except Error _)
  let (account, a) ← registerUser rng C intent st
  let a ← allocNotes rng fuel a (newNotes intent st.user change)
  let withdraws ← withdrawActions rng intent.withdrawals
  let actions := account ++ a.openChannels ++ a.openSubchannels
    ++ intent.deposits.map (fun (token, amount) => .deposit token amount)
    ++ spends.map (fun n => .useNote n.channelKey n.token n.index)
    ++ a.createNotes ++ withdraws
  return {
    actions
    spent := spends.map Note.id
    change
    warnings := if 1 < (actions.filter isOpenChannel).length then [.userLinkage] else [] }

end

end Strkd.Strk20
