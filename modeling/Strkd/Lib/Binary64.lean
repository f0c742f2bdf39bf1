import Mathlib

/-!
# Binary64 quotients in decimals

A quotient of natural numbers rounded to binary64 (to nearest, ties to even), and such a number with
four decimals.  Only normal numbers occur: the quotients here lie between `10 ^ -18` and `2 ^ 128`.
-/

namespace Strkd

/-- `n / d` to the nearest integer, ties to even. -/
def roundHalfEven (n d : ℕ) : ℕ :=
  let q := n / d
  let r := n % d
  if 2 * r < d then q else if d < 2 * r then q + 1 else q + q % 2

/-- `n / d` rounded to binary64, as a fraction. -/
def binary64 (n d : ℕ) : ℕ × ℕ :=
  if n = 0 then (0, 1)
  else
    -- the exponent that leaves 53 bits before the point, or 54
    let up := 53 + d.log2 - n.log2
    let down := n.log2 - d.log2 - 53
    let (n', d') := (n * 2 ^ up, d * 2 ^ down)
    if n' / d' < 2 ^ 53 then (roundHalfEven n' d' * 2 ^ down, 2 ^ up)
    else (roundHalfEven n' (2 * d') * 2 ^ (down + 1), 2 ^ up)

/-- A fraction with four decimals (`{:.4}`). -/
def fixed4 (n d : ℕ) : String :=
  let t := roundHalfEven (10000 * n) d
  let decimals := toString (t % 10000)
  toString (t / 10000) ++ "." ++ String.ofList (List.replicate (4 - decimals.length) '0') ++ decimals

end Strkd
