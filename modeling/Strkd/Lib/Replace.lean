import Mathlib

/-!
# Searching and replacing in text

`str::find`, `str::rfind` and `str::replace`, on the characters of a string.
-/

namespace Strkd

/-- What stands before and after the first occurrence of a pattern. -/
def splitFirst (pat : List Char) : List Char → Option (List Char × List Char)
  | [] => if pat = [] then some ([], []) else none
  | c :: cs =>
      if pat.isPrefixOf (c :: cs) then some ([], (c :: cs).drop pat.length)
      else (splitFirst pat cs).map fun (before, after) => (c :: before, after)

/-- `text.contains(pat)` -/
def contains (text pat : String) : Bool := (splitFirst pat.toList text.toList).isSome

/-- What stands from the last occurrence of a pattern on. -/
def fromLast (pat : List Char) : List Char → Option (List Char)
  | [] => if pat = [] then some [] else none
  | c :: cs =>
      match fromLast pat cs with
      | some rest => some rest
      | none => if pat.isPrefixOf (c :: cs) then some (c :: cs) else none

/-- Replace the occurrences of a nonempty pattern from left to right, without overlap. The first
argument counts the characters of the last occurrence that are still to be skipped. -/
def replaceFrom (pat new : List Char) : ℕ → List Char → List Char
  | _, [] => []
  | skip + 1, _ :: cs => replaceFrom pat new skip cs
  | 0, c :: cs =>
      if pat.isPrefixOf (c :: cs) then new ++ replaceFrom pat new (pat.length - 1) cs
      else c :: replaceFrom pat new 0 cs

/-- `text.replace(pat, new)` for a nonempty pattern. -/
def replaceAll (text pat new : String) : String :=
  String.ofList (replaceFrom pat.toList new.toList 0 text.toList)

/-! ## The last occurrence -/

section

variable {pat cs rest : List Char}

theorem fromLast_cons_of_some {c : Char} (h : fromLast pat cs = some rest) :
    fromLast pat (c :: cs) = some rest := by
  rw [fromLast, h]

/-- What stands before the last occurrence does not matter. -/
theorem fromLast_append (before : List Char) (h : fromLast pat cs = some rest) :
    fromLast pat (before ++ cs) = some rest := by
  induction before with
  | nil => exact h
  | cons c before ih => exact fromLast_cons_of_some ih

/-- A text that starts with the pattern has a last occurrence of it. -/
theorem exists_fromLast (h : pat <+: cs) : ∃ rest, fromLast pat cs = some rest := by
  cases cs with
  | nil =>
      rw [List.prefix_nil] at h
      exact ⟨[], by rw [fromLast, if_pos h]⟩
  | cons c cs =>
      cases hcs : fromLast pat cs with
      | some rest => exact ⟨rest, fromLast_cons_of_some hcs⟩
      | none =>
          refine ⟨c :: cs, ?_⟩
          rw [fromLast, hcs]
          exact if_pos (List.isPrefixOf_iff_prefix.2 h)

end

end Strkd
