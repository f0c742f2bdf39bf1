import Strkd.Rpc.Strk20
import Strkd.Strk20.Draw
import Strkd.Strk20.Scans

/-!
# Packed note values

A note's slot holds its salt in the high half of a felt and its amount, plus a pad, in the low half.
Salts have 120 bits, so the two halves fit below the Stark prime and the packing is exact.
-/

namespace Strkd.Strk20

/-! ## Halves of a felt -/

theorem splitU128s_fst (v : Felt) : (splitU128s v).1.toNat = v.val / 2 ^ 128 := by
  have hv : v.val < 2 ^ 256 := lt_trans v.isLt (by decide)
  simp only [splitU128s, BitVec.toNat_ofNat]
  omega

theorem splitU128s_snd (v : Felt) : (splitU128s v).2.toNat = v.val % 2 ^ 128 := by
  simp only [splitU128s, BitVec.toNat_ofNat]

theorem twoPow128_val : twoPow128.val = 2 ^ 128 := by decide +kernel

/-- Two halves side by side, as long as the high one has 120 bits. -/
theorem joined_val {hi : U128} (lo : U128) (h : hi.toNat < 2 ^ 120) :
    (Felt.ofNat hi.toNat * twoPow128 + Felt.ofNat lo.toNat).val =
      hi.toNat * 2 ^ 128 + lo.toNat := by
  have hlo : lo.toNat < 2 ^ 128 := lo.isLt
  have hsum : hi.toNat * 2 ^ 128 + lo.toNat < 2 ^ 251 := by omega
  have hfits : ∀ n < 2 ^ 251, n < feltPrime := fun n hn => lt_trans hn (by decide)
  have hhi : hi.toNat * 2 ^ 128 < feltPrime := hfits _ (lt_of_le_of_lt (Nat.le_add_right _ _) hsum)
  have hhi' : (Felt.ofNat hi.toNat).val = hi.toNat :=
    Felt.val_ofNat_of_lt (hfits _ (lt_trans h (by decide)))
  have hlo' : (Felt.ofNat lo.toNat).val = lo.toNat :=
    Felt.val_ofNat_of_lt (hfits _ (lt_trans hlo (by decide)))
  rw [Fin.val_add, Fin.val_mul, twoPow128_val, hhi', hlo', Nat.mod_eq_of_lt hhi,
    Nat.mod_eq_of_lt (hfits _ hsum)]

theorem splitU128s_joined {hi : U128} (lo : U128) (h : hi.toNat < 2 ^ 120) :
    splitU128s (Felt.ofNat hi.toNat * twoPow128 + Felt.ofNat lo.toNat) = (hi, lo) := by
  have hlo := lo.isLt
  refine Prod.ext (BitVec.eq_of_toNat_eq ?_) (BitVec.eq_of_toNat_eq ?_)
  · rw [splitU128s_fst, joined_val lo h]
    show _ = hi.toNat
    omega
  · rw [splitU128s_snd, joined_val lo h]
    show _ = lo.toNat
    omega

/-- A felt whose high half has 120 bits is its halves side by side. -/
theorem joined_splitU128s {v : Felt} (h : (splitU128s v).1.toNat < 2 ^ 120) :
    Felt.ofNat (splitU128s v).1.toNat * twoPow128 + Felt.ofNat (splitU128s v).2.toNat = v := by
  apply Fin.ext
  rw [joined_val _ h, splitU128s_fst, splitU128s_snd]
  omega

/-! ## Packing and unpacking -/

section

variable {C : Curve} {key token : Felt} {index : U32} {amount salt : U128} {v : Felt}

/-- The low half of the hash that hides an amount. -/
def amountPad (C : Curve) (key token : Felt) (index : U32) (salt : U128) : U128 :=
  (splitU128s (encAmountHash C key token index (.ofNat salt.toNat))).2

theorem encryptNoteValue_eq : encryptNoteValue C amount salt key token index =
    .ofNat salt.toNat * twoPow128 + .ofNat (amountPad C key token index salt + amount).toNat := rfl

theorem encryptNoteValue_ne_zero (hlow : 2 ≤ salt.toNat) (hhigh : salt.toNat < 2 ^ 120) :
    encryptNoteValue C amount salt key token index ≠ 0 := by
  intro hzero
  have hval := congrArg Fin.val hzero
  rw [encryptNoteValue_eq, joined_val _ hhigh] at hval
  have : (0 : Felt).val = 0 := rfl
  omega

theorem ne_openNoteSalt (hlow : 2 ≤ salt.toNat) : salt ≠ openNoteSalt := by
  rintro rfl
  exact absurd hlow (by decide)

theorem decryptNoteValue_of_ne (hv : v ≠ 0) (hsalt : (splitU128s v).1 ≠ openNoteSalt) :
    decryptNoteValue C v key token index = some ⟨(splitU128s v).2 -
      amountPad C key token index (splitU128s v).1, (splitU128s v).1, false⟩ := by
  unfold decryptNoteValue
  rw [if_neg hv]
  dsimp only
  rw [if_neg hsalt]
  rfl

theorem decryptNoteValue_encryptNoteValue (hlow : 2 ≤ salt.toNat) (hhigh : salt.toNat < 2 ^ 120) :
    decryptNoteValue C (encryptNoteValue C amount salt key token index) key token index =
      some ⟨amount, salt, false⟩ := by
  have hsplit : splitU128s (encryptNoteValue C amount salt key token index) =
      (salt, amountPad C key token index salt + amount) := splitU128s_joined _ hhigh
  rw [decryptNoteValue_of_ne (encryptNoteValue_ne_zero hlow hhigh)
    (by rw [hsplit]; exact ne_openNoteSalt hlow), hsplit]
  simp only [BitVec.add_comm (amountPad C key token index salt), BitVec.add_sub_cancel]

theorem ne_zero_of_salt (h : (splitU128s v).1.toNat ≠ 0) : v ≠ 0 := by
  rintro rfl
  exact h (by decide +kernel)

/-- A felt with a salt of 120 bits in its high half is the packing of what is read from it. -/
theorem encryptNoteValue_decryptNoteValue (hlow : 2 ≤ (splitU128s v).1.toNat)
    (hhigh : (splitU128s v).1.toNat < 2 ^ 120) :
    ∃ x, decryptNoteValue C v key token index = some x ∧ x.isOpen = false ∧
      encryptNoteValue C x.amount x.salt key token index = v := by
  refine ⟨_, decryptNoteValue_of_ne (ne_zero_of_salt (by omega)) (ne_openNoteSalt hlow), rfl, ?_⟩
  rw [encryptNoteValue_eq, BitVec.add_comm, BitVec.sub_add_cancel]
  exact joined_splitU128s hhigh

theorem decryptNoteValue_openNote (h : (splitU128s v).1 = openNoteSalt) :
    decryptNoteValue C v key token index = some ⟨(splitU128s v).2, openNoteSalt, true⟩ := by
  have hv : v ≠ 0 := ne_zero_of_salt (by rw [h]; decide)
  unfold decryptNoteValue
  rw [if_neg hv]
  dsimp only
  rw [if_pos h, h]

end

/-! ## Salts -/

/-- The salts that the OS's randomness gives have 120 bits, and `noteSalt` skips 0 and 1. -/
theorem noteSalt_osRandomness {draw : ℕ → Except String ℕ} {fuel s s' : ℕ} {salt : U128}
    (h : Returns (noteSalt (Rpc.Strk20.osRandomness draw) fuel) s salt s') :
    2 ≤ salt.toNat ∧ salt.toNat < 2 ^ 120 := by
  obtain ⟨hlow, t, t', ht⟩ := returns_noteSalt h
  constructor
  · have hlow : (1 : U128).toNat < salt.toNat := hlow
    exact hlow
  · simp only [Rpc.Strk20.osRandomness, Prod.mk.injEq] at ht
    obtain ⟨hdraw, -⟩ := ht
    split at hdraw
    · cases hdraw
      rw [BitVec.toNat_ofNat]
      omega
    · cases hdraw

/-- Packing a note's amount and unpacking it are inverse on every salt that a note can have. -/
theorem notes_round_trip (C : Curve) (key token : Felt) (index : U32) :
    (∀ amount salt : U128, 2 ≤ salt.toNat → salt.toNat < 2 ^ 120 →
      (encryptNoteValue C amount salt key token index).val =
          salt.toNat * 2 ^ 128 + (amountPad C key token index salt + amount).toNat ∧
        decryptNoteValue C (encryptNoteValue C amount salt key token index) key token index =
          some ⟨amount, salt, false⟩) ∧
      (∀ v : Felt, 2 ≤ (splitU128s v).1.toNat → (splitU128s v).1.toNat < 2 ^ 120 →
        ∃ x, decryptNoteValue C v key token index = some x ∧ x.isOpen = false ∧
          encryptNoteValue C x.amount x.salt key token index = v) ∧
      (∀ v : Felt, decryptNoteValue C v key token index = none ↔ v = 0) ∧
      (∀ v : Felt, (splitU128s v).1 = openNoteSalt →
        decryptNoteValue C v key token index = some ⟨(splitU128s v).2, openNoteSalt, true⟩) ∧
      ∀ (draw : ℕ → Except String ℕ) (fuel s s' : ℕ) (salt : U128),
        Returns (noteSalt (Rpc.Strk20.osRandomness draw) fuel) s salt s' →
          2 ≤ salt.toNat ∧ salt.toNat < 2 ^ 120 := by
  refine ⟨fun amount salt hlow hhigh => ⟨?_, ?_⟩, fun v => encryptNoteValue_decryptNoteValue,
    fun v => decryptNoteValue_eq_none, fun v => decryptNoteValue_openNote,
    fun draw fuel s s' salt => noteSalt_osRandomness⟩
  · rw [encryptNoteValue_eq]
    exact joined_val _ hhigh
  · exact decryptNoteValue_encryptNoteValue hlow hhigh

end Strkd.Strk20
