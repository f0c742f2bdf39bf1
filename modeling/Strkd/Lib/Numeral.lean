import Mathlib

/-!
# Printed numbers

Numbers as text in a base up to 16, their parser, and the few string functions the code reads and
prints them with.  What is printed reads back: `parseRadix_hexText`, `parseRadix_hexPadded`.
-/

namespace Strkd

/-! ## Printing -/

/-- Lowercase hexadecimal (`{:x}`). -/
def hexText (n : ℕ) : String := String.ofList (Nat.toDigits 16 n)

/-- Lowercase hexadecimal, padded with zeros to a width (`{:064x}`). -/
def hexPadded (width n : ℕ) : String :=
  String.ofList (List.replicate (width - (Nat.toDigits 16 n).length) '0' ++ Nat.toDigits 16 n)

/-! ## Parsing -/

/-- `char::to_digit`, in a base up to 16. -/
def digitOf (base : ℕ) (c : Char) : Option ℕ :=
  let d :=
    if '0' ≤ c ∧ c ≤ '9' then some (c.toNat - 48)
    else if 'a' ≤ c ∧ c ≤ 'z' then some (c.toNat - 87)
    else if 'A' ≤ c ∧ c ≤ 'Z' then some (c.toNat - 55)
    else none
  d.filter (· < base)

def digitsValue (base : ℕ) : ℕ → List Char → Option ℕ
  | acc, [] => some acc
  | acc, c :: cs => (digitOf base c).bind fun d => digitsValue base (base * acc + d) cs

/-- `from_str_radix` of an unsigned type with values below `limit`: an optional `+`, then at least
one digit. -/
def parseRadix (base limit : ℕ) (s : String) : Option ℕ :=
  let digits := match s.toList with
    | '+' :: rest => rest
    | cs => cs
  if digits = [] then none else (digitsValue base 0 digits).filter (· < limit)

/-- `str::strip_prefix`. -/
def stripPrefix (start s : String) : Option String :=
  if start.toList.isPrefixOf s.toList then some (String.ofList (s.toList.drop start.toList.length))
  else none

/-- `str::strip_suffix`. -/
def stripSuffix (ending s : String) : Option String :=
  if ending.toList.isSuffixOf s.toList then
    some (String.ofList (s.toList.take (s.toList.length - ending.toList.length)))
  else none

/-- The characters with the Unicode property `White_Space`. -/
def isSpace (c : Char) : Bool :=
  let n := c.toNat
  (9 ≤ n ∧ n ≤ 13) ∨ n = 0x20 ∨ n = 0x85 ∨ n = 0xA0 ∨ n = 0x1680 ∨ (0x2000 ≤ n ∧ n ≤ 0x200A) ∨
    n = 0x2028 ∨ n = 0x2029 ∨ n = 0x202F ∨ n = 0x205F ∨ n = 0x3000

/-- `str::trim`. -/
def trim (s : String) : String :=
  String.ofList ((s.toList.dropWhile isSpace).reverse.dropWhile isSpace).reverse

/-! ## Round trips -/

theorem digitOf_digitChar {b d : ℕ} (hb : b ≤ 16) (hd : d < b) :
    digitOf b (Nat.digitChar d) = some d := by
  have hsmall : ∀ k < 16, digitOf 16 (Nat.digitChar k) = some k := by decide
  have hsome := hsmall d (by omega)
  unfold digitOf at hsome ⊢
  obtain ⟨hvalue, -⟩ := Option.filter_eq_some_iff.1 hsome
  exact Option.filter_eq_some_iff.2 ⟨hvalue, decide_eq_true hd⟩

theorem digitsValue_append (base acc : ℕ) (l m : List Char) :
    digitsValue base acc (l ++ m) =
      (digitsValue base acc l).bind fun acc' => digitsValue base acc' m := by
  induction l generalizing acc with
  | nil => rfl
  | cons c cs ih =>
      simp only [List.cons_append, digitsValue]
      cases digitOf base c with
      | none => rfl
      | some d => exact ih _

theorem digitsValue_toDigits {b : ℕ} (hb : 1 < b) (hb' : b ≤ 16) (n : ℕ) :
    digitsValue b 0 (Nat.toDigits b n) = some n := by
  induction n using Nat.strong_induction_on with
  | _ n ih =>
      by_cases hn : n < b
      · rw [Nat.toDigits_of_lt_base hn]
        simp [digitsValue, digitOf_digitChar hb' hn]
      · have hlt : n % b < b := Nat.mod_lt _ (by omega)
        rw [Nat.toDigits_of_base_le hb (by omega), digitsValue_append,
          ih (n / b) (Nat.div_lt_self (by omega) hb)]
        simp only [Option.bind_some, digitsValue, digitOf_digitChar hb' hlt, Option.some.injEq]
        exact Nat.div_add_mod n b

theorem digitsValue_replicate_zero (k : ℕ) : digitsValue 16 0 (List.replicate k '0') = some 0 := by
  induction k with
  | zero => rfl
  | succ k ih =>
      rw [List.replicate_succ, digitsValue]
      exact ih

theorem digitOf_plus (b : ℕ) : digitOf b '+' = none := rfl

/-- A run of digits is not taken for a signed number. -/
theorem parseRadix_ofList {b : ℕ} {digits : List Char} {n limit : ℕ} (hne : digits ≠ [])
    (hv : digitsValue b 0 digits = some n) (hn : n < limit) :
    parseRadix b limit (String.ofList digits) = some n := by
  cases digits with
  | nil => exact absurd rfl hne
  | cons c cs =>
      have hc : c ≠ '+' := by
        rintro rfl
        simp [digitsValue, digitOf_plus] at hv
      simp only [parseRadix, String.toList_ofList]
      split
      · rename_i heq
        exact absurd (List.cons.inj heq).1 hc
      · simp [hv, hn]

theorem parseRadix_hexText {n limit : ℕ} (hn : n < limit) :
    parseRadix 16 limit (hexText n) = some n :=
  parseRadix_ofList Nat.toDigits_ne_nil (digitsValue_toDigits (by decide) (by decide) n) hn

theorem parseRadix_hexPadded {n limit : ℕ} (width : ℕ) (hn : n < limit) :
    parseRadix 16 limit (hexPadded width n) = some n := by
  refine parseRadix_ofList (by simp [Nat.toDigits_ne_nil]) ?_ hn
  rw [digitsValue_append, digitsValue_replicate_zero]
  exact digitsValue_toDigits (by decide) (by decide) n

theorem parseRadix_toString {n limit : ℕ} (hn : n < limit) :
    parseRadix 10 limit (toString n) = some n := by
  have htext : toString n = String.ofList (Nat.toDigits 10 n) := by
    rw [← String.toList_inj, String.toList_ofList, Nat.toString_eq_repr, Nat.toList_repr]
  rw [htext]
  exact parseRadix_ofList Nat.toDigits_ne_nil (digitsValue_toDigits (by decide) (by decide) n) hn

theorem stripPrefix_append (start s : String) : stripPrefix start (start ++ s) = some s := by
  simp [stripPrefix]

theorem stripSuffix_append (ending s : String) : stripSuffix ending (s ++ ending) = some s := by
  simp [stripSuffix]

end Strkd
