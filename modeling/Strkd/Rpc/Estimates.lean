import Strkd.Rpc.Node

/-!
# Bounds from a fee estimate

The bounds of a transaction are the figures of its estimate with half on top.  They cover the
estimate as long as the amount with its margin fits in 64 bits and the price with its margin does not
run into the largest `u128` (`bounds_cover_iff`).
-/

namespace Strkd.Rpc

open Wallet

/-- What an estimate says of one resource. -/
structure Figure where
  amount : ℕ
  price : ℕ
  deriving DecidableEq

structure Figures where
  l1Gas : Figure
  l2Gas : Figure
  l1DataGas : Figure
  deriving DecidableEq

def figureOf (est : Json) (amountKey priceKey : String) : Except NodeError Figure := do
  let amount ← parseU128 (field est amountKey) amountKey
  let price ← parseU128 (field est priceKey) priceKey
  return ⟨amount, price⟩

/-- The six figures of an estimate. -/
def figuresOf (est : Json) : Except NodeError Figures := do
  let l1Gas ← figureOf est "l1_gas_consumed" "l1_gas_price"
  let l2Gas ← figureOf est "l2_gas_consumed" "l2_gas_price"
  let l1DataGas ← figureOf est "l1_data_gas_consumed" "l1_data_gas_price"
  return ⟨l1Gas, l2Gas, l1DataGas⟩

/-- A number is at least a figure, and at most one and a half times it. -/
def Covers (figure n : ℕ) : Prop := figure ≤ n ∧ n ≤ figure * 3 / 2

/-- A resource bound covers what an estimate says of the resource. -/
def Figure.CoveredBy (f : Figure) (b : ResourceBounds) : Prop :=
  Covers f.amount b.maxAmount.toNat ∧ Covers f.price b.maxPricePerUnit.toNat

def Figures.CoveredBy (f : Figures) (b : FeeBounds) : Prop :=
  f.l1Gas.CoveredBy b.l1Gas ∧ f.l2Gas.CoveredBy b.l2Gas ∧ f.l1DataGas.CoveredBy b.l1DataGas

/-- An amount below two thirds of 2^64, and a price up to a hundredth of the largest `u128`. -/
def Figure.Fits (f : Figure) : Prop := 3 * f.amount < 2 ^ 65 ∧ 100 * f.price < 2 ^ 128

def Figures.Fits (f : Figures) : Prop := f.l1Gas.Fits ∧ f.l2Gas.Fits ∧ f.l1DataGas.Fits

/-! ## The margin -/

theorem withMargin_le (v : ℕ) : withMargin v ≤ v * 3 / 2 := by
  have hmin : min (v * 150) (2 ^ 128 - 1) ≤ v * 150 := Nat.min_le_left _ _
  unfold withMargin
  omega

theorem withMargin_lt (v : ℕ) : withMargin v < 2 ^ 128 := by
  have hmin : min (v * 150) (2 ^ 128 - 1) ≤ 2 ^ 128 - 1 := Nat.min_le_right _ _
  unfold withMargin
  omega

/-- The margin is whole as long as it does not saturate. -/
theorem withMargin_eq {v : ℕ} (h : v * 150 < 2 ^ 128) : withMargin v = v * 3 / 2 := by
  have hmin : min (v * 150) (2 ^ 128 - 1) = v * 150 := Nat.min_eq_left (by omega)
  rw [withMargin, hmin]
  omega

/-- The margin may be cut, but it takes nothing from a figure up to the saturated value. -/
theorem le_withMargin_iff {v : ℕ} : v ≤ withMargin v ↔ 100 * v < 2 ^ 128 := by
  by_cases hv : v * 150 < 2 ^ 128
  · rw [withMargin_eq hv]
    constructor <;> intro <;> omega
  · have hmin : min (v * 150) (2 ^ 128 - 1) = 2 ^ 128 - 1 := Nat.min_eq_right (by omega)
    rw [withMargin, hmin]
    constructor <;> intro <;> omega

/-- The amount is cut to 64 bits. -/
theorem covers_amount_iff {v : ℕ} :
    Covers v (BitVec.ofNat 64 (withMargin v)).toNat ↔ 3 * v < 2 ^ 65 := by
  rw [BitVec.toNat_ofNat]
  have hle := withMargin_le v
  constructor
  · rintro ⟨hge, -⟩
    have hmod : withMargin v % 2 ^ 64 < 2 ^ 64 := Nat.mod_lt _ (by decide)
    have hv : v * 150 < 2 ^ 128 := by omega
    rw [withMargin_eq hv] at hge
    by_contra hbig
    -- the cut takes 2^64 off a number below 2^65
    have hcut : v * 3 / 2 % 2 ^ 64 = v * 3 / 2 - 2 ^ 64 := by omega
    omega
  · intro hv
    have heq : withMargin v = v * 3 / 2 := withMargin_eq (by omega)
    have hmod : withMargin v % 2 ^ 64 = withMargin v := Nat.mod_eq_of_lt (by omega)
    rw [hmod, heq]
    constructor
    · omega
    · exact Nat.le_refl _

theorem covers_price_iff {v : ℕ} :
    Covers v (BitVec.ofNat 128 (withMargin v)).toNat ↔ 100 * v < 2 ^ 128 := by
  rw [BitVec.toNat_ofNat, Nat.mod_eq_of_lt (withMargin_lt v), Covers, le_withMargin_iff]
  exact and_iff_left (withMargin_le v)

/-! ## The bounds -/

/-- The bound the code makes of a figure. -/
def Figure.bound (f : Figure) : ResourceBounds :=
  ⟨BitVec.ofNat 64 (withMargin f.amount), BitVec.ofNat 128 (withMargin f.price)⟩

theorem Figure.coveredBy_bound {f : Figure} : f.CoveredBy f.bound ↔ f.Fits := by
  unfold Figure.CoveredBy Figure.Fits
  exact and_congr covers_amount_iff covers_price_iff

theorem boundFromEstimate_eq {est : Json} {amountKey priceKey : String} {f : Figure}
    (h : figureOf est amountKey priceKey = .ok f) :
    boundFromEstimate est amountKey priceKey = .ok f.bound := by
  unfold figureOf at h
  simp only [except_bind_eq_ok, except_pure_eq_ok] at h
  obtain ⟨amount, hamount, price, hprice, rfl⟩ := h
  simp only [boundFromEstimate, hamount, hprice]
  rfl

/-- Every estimate whose figures parse gives bounds. -/
theorem boundsFromEstimate_eq {est : Json} {f : Figures} (h : figuresOf est = .ok f) :
    boundsFromEstimate est = .ok ⟨f.l1Gas.bound, f.l2Gas.bound, f.l1DataGas.bound⟩ := by
  unfold figuresOf at h
  simp only [except_bind_eq_ok, except_pure_eq_ok] at h
  obtain ⟨l1Gas, h₁, l2Gas, h₂, l1DataGas, h₃, rfl⟩ := h
  simp only [boundsFromEstimate, boundFromEstimate_eq h₁, boundFromEstimate_eq h₂,
    boundFromEstimate_eq h₃]
  rfl

/-- The bounds cover the estimate exactly when its figures leave room for the margin. -/
theorem bounds_cover_iff {est : Json} {f : Figures} (h : figuresOf est = .ok f) :
    (∀ b, boundsFromEstimate est = .ok b → f.CoveredBy b) ↔ f.Fits := by
  have heq := boundsFromEstimate_eq h
  have hiff : f.CoveredBy ⟨f.l1Gas.bound, f.l2Gas.bound, f.l1DataGas.bound⟩ ↔ f.Fits :=
    and_congr Figure.coveredBy_bound (and_congr Figure.coveredBy_bound Figure.coveredBy_bound)
  rw [← hiff]
  constructor
  · exact fun hall => hall _ heq
  · intro hcov b hb
    rwa [← Except.ok.inj (heq.symm.trans hb)]

/-- An estimate with the given consumption of L2 gas and price of L1 data gas. -/
def sampleEstimate (l2Consumed l1DataPrice : String) : Json := .obj [
  ("l1_gas_consumed", .str "0x0"), ("l1_gas_price", .str "0x2540be400"),
  ("l2_gas_consumed", .str l2Consumed), ("l2_gas_price", .str "0x3b9aca00"),
  ("l1_data_gas_consumed", .str "0x80"), ("l1_data_gas_price", .str l1DataPrice)]

theorem bounds_cover_sample : ∃ b, boundsFromEstimate (sampleEstimate "0xf4240" "0x1") = .ok b ∧
    (⟨⟨0, 10000000000⟩, ⟨1000000, 1000000000⟩, ⟨128, 1⟩⟩ : Figures).CoveredBy b := by
  have hfigures : figuresOf (sampleEstimate "0xf4240" "0x1") =
      .ok ⟨⟨0, 10000000000⟩, ⟨1000000, 1000000000⟩, ⟨128, 1⟩⟩ := by decide +kernel
  have heq := boundsFromEstimate_eq hfigures
  exact ⟨_, heq, (bounds_cover_iff hfigures).2 (by unfold Figures.Fits Figure.Fits; decide) _ heq⟩

/-- The bounds for 2^64 - 1 gas are cut to half of it, those for a price of 2^127 saturate. -/
theorem bounds_below_estimate : ¬ ∀ (est : Json) (f : Figures), figuresOf est = .ok f →
    ∀ b, boundsFromEstimate est = .ok b → f.CoveredBy b := by
  intro hall
  have hfigures : figuresOf
      (sampleEstimate "0xffffffffffffffff" "0x80000000000000000000000000000000") =
      .ok ⟨⟨0, 10000000000⟩, ⟨2 ^ 64 - 1, 1000000000⟩, ⟨128, 2 ^ 127⟩⟩ := by decide +kernel
  obtain ⟨-, ⟨⟨hamount, -⟩, -⟩, -⟩ := hall _ _ hfigures _ (boundsFromEstimate_eq hfigures)
  revert hamount
  decide +kernel

end Strkd.Rpc
