import Strkd.Core.Felt

/-!
# Client actions of the privacy pool

The wallet's input to the pool's `compile_actions`: each `ClientAction` runs in one of the pool's
phases (`ClientAction.phase`), in order, and serializes to `[variant, ...fields]`.
-/

namespace Strkd.Strk20

/-- Failures of the STRK20 client (`strk20::Error`). -/
inductive Error where
  | notOnCurve (x : Felt)
  | emptyProofOutput
  | notRegistered (address : Felt)
  | insufficientBalance (token : Felt) (shortfall available : U128)
  | zeroAmount
  | read (message : String)
  | random (message : String)
  deriving DecidableEq, Repr

inductive ClientAction where
  /-- Register the account's viewing key. -/
  | setViewingKey (random : Felt)
  /-- Open a channel from the user; `index` is the user's outgoing-channel count. -/
  | openChannel (recipientAddr : Felt) (index : U32) (random salt : Felt)
  /-- Open a token subchannel; `index` is the channel's subchannel count. -/
  | openSubchannel (recipientAddr recipientPublicKey channelKey : Felt) (index : U32)
      (token salt : Felt)
  /-- Create an encrypted note; `index` is the subchannel's next note index. -/
  | createEncNote (recipientAddr recipientPublicKey token : Felt) (amount : U128) (index : U32)
      (salt : U128)
  /-- Pull public funds into the pool. -/
  | deposit (token : Felt) (amount : U128)
  /-- Spend a note. -/
  | useNote (channelKey token : Felt) (index : U32)
  /-- Send funds out of the pool. -/
  | withdraw (toAddr token : Felt) (amount : U128) (random : Felt)
  deriving DecidableEq, Repr

/-- The pool's execution phases. -/
inductive Phase where
  | account
  | channel
  | subchannel
  | deposit
  | useNotes
  | createNotes
  | withdraw
  deriving DecidableEq, Repr

/-- The discriminant the derived order of `Phase` compares. -/
def Phase.rank : Phase → ℕ
  | .account => 0
  | .channel => 1
  | .subchannel => 2
  | .deposit => 3
  | .useNotes => 4
  | .createNotes => 5
  | .withdraw => 6

theorem Phase.rank_injective : Function.Injective Phase.rank := by
  intro p q h
  cases p <;> cases q <;> first | rfl | exact absurd h (by decide)

instance : LinearOrder Phase := LinearOrder.lift' Phase.rank Phase.rank_injective

namespace ClientAction

/-- Index of the variant in the pool's ABI. -/
def variant : ClientAction → ℕ
  | setViewingKey .. => 0
  | openChannel .. => 1
  | openSubchannel .. => 2
  | createEncNote .. => 3
  | deposit .. => 5
  | useNote .. => 6
  | withdraw .. => 7

def phase : ClientAction → Phase
  | setViewingKey .. => .account
  | openChannel .. => .channel
  | openSubchannel .. => .subchannel
  | deposit .. => .deposit
  | useNote .. => .useNotes
  | createEncNote .. => .createNotes
  | withdraw .. => .withdraw

/-- Cairo serde: `[variant, ...fields]`. -/
def serialize (a : ClientAction) : List Felt :=
  Felt.ofNat a.variant :: match a with
    | setViewingKey random => [random]
    | openChannel recipient index random salt => [recipient, .ofNat index.toNat, random, salt]
    | openSubchannel recipient pk key index token salt =>
        [recipient, pk, key, .ofNat index.toNat, token, salt]
    | createEncNote recipient pk token amount index salt =>
        [recipient, pk, token, .ofNat amount.toNat, .ofNat index.toNat, .ofNat salt.toNat]
    | deposit token amount => [token, .ofNat amount.toNat]
    | useNote key token index => [key, token, .ofNat index.toNat]
    | withdraw toAddr token amount random => [toAddr, token, .ofNat amount.toNat, random]

end ClientAction

/-- Serialize a `Span<ClientAction>`: length prefix, then each action. -/
def serializeActions (actions : List ClientAction) : List Felt :=
  Felt.ofNat actions.length :: actions.flatMap ClientAction.serialize

end Strkd.Strk20
