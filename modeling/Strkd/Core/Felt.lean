import Mathlib

/-!
# Field elements and machine words

The scalar types every crate of the wallet shares: the Stark field element `Felt` of
`starknet-types-core`, the fixed-width integers of Rust, and the chain identifier.  Fixed-width
integers are bit vectors, so that `+` and `-` wrap exactly as the release profile's do; `I128` is
a `U128` read in two's complement (`BitVec.toInt`).
-/

namespace Strkd

/-- The Stark prime `2 ^ 251 + 17 * 2 ^ 192 + 1`. -/
def feltPrime : ℕ := 2 ^ 251 + 17 * 2 ^ 192 + 1

instance : NeZero feltPrime := ⟨by decide⟩

/-- An element of the Stark field, ordered (`Ord`) by its canonical representative. -/
abbrev Felt := Fin feltPrime

abbrev U8 := BitVec 8
abbrev U32 := BitVec 32
abbrev U64 := BitVec 64
abbrev U128 := BitVec 128
abbrev I128 := BitVec 128

namespace Felt

/-- `Felt::from` of an unsigned integer. -/
def ofNat (n : ℕ) : Felt := Fin.ofNat feltPrime n

theorem val_ofNat_of_lt {n : ℕ} (h : n < feltPrime) : (ofNat n).val = n :=
  Nat.mod_eq_of_lt h

theorem ofNat_val (f : Felt) : ofNat f.val = f :=
  Fin.ext (Nat.mod_eq_of_lt f.isLt)

end Felt

/-- The networks the wallet knows (`krusty_kms_common::ChainId`). -/
inductive ChainId where
  | mainnet
  | sepolia
  deriving DecidableEq, Repr

/-- The short string of a chain: `SN_MAIN` or `SN_SEPOLIA`. -/
def chainName : ChainId → String
  | .mainnet => "SN_MAIN"
  | .sepolia => "SN_SEPOLIA"

/-- A Cairo short string read as a big-endian number. -/
def shortString (s : String) : Felt :=
  Felt.ofNat (s.toList.foldl (fun n c => 256 * n + c.toNat) 0)

/-- `ChainId::as_felt`: the chain's short string as a felt. -/
def ChainId.asFelt (c : ChainId) : Felt := shortString (chainName c)

end Strkd
