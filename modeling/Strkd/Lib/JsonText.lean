import Strkd.Lib.Json
import Strkd.Lib.Numeral

/-!
# Reading JSON text

A reader of the JSON grammar (RFC 8259), with the values of `serde_json`: an integer that fits in 64
bits is an integer, any other number keeps its text, and of two fields with one key the later wins.
What follows a value does not matter to reading it (`readString_quote`, `readNumber_toString`).
-/

namespace Strkd.Json

/-! ## Blanks, strings and numbers -/

def isBlank (c : Char) : Bool := c = ' ' ∨ c = '\t' ∨ c = '\n' ∨ c = '\r'

def skipBlanks (cs : List Char) : List Char := cs.dropWhile isBlank

/-- What a one-letter escape stands for. -/
def shortEscape : Char → Option Char
  | '"' => some '"'
  | '\\' => some '\\'
  | '/' => some '/'
  | 'b' => some (Char.ofNat 8)
  | 'f' => some (Char.ofNat 12)
  | 'n' => some '\n'
  | 'r' => some '\r'
  | 't' => some '\t'
  | _ => none

/-- The characters and UTF-16 units of a string up to its closing quote, and the rest. -/
def readPieces : List Char → Option (List (Char ⊕ ℕ) × List Char)
  | [] => none
  | '"' :: cs => some ([], cs)
  | '\\' :: 'u' :: a :: b :: c :: d :: cs => do
      let unit ← digitsValue 16 0 [a, b, c, d]
      let (pieces, rest) ← readPieces cs
      return (.inr unit :: pieces, rest)
  | '\\' :: e :: cs => do
      let c ← shortEscape e
      let (pieces, rest) ← readPieces cs
      return (.inl c :: pieces, rest)
  | c :: cs =>
      if c.toNat < 32 ∨ c = '\\' then none
      else do
        let (pieces, rest) ← readPieces cs
        return (.inl c :: pieces, rest)

/-- Put surrogate pairs together. -/
def joinPieces : List (Char ⊕ ℕ) → Option (List Char)
  | [] => some []
  | .inl c :: ps => (joinPieces ps).map (c :: ·)
  | .inr hi :: .inr lo :: ps =>
      if 0xD800 ≤ hi ∧ hi < 0xDC00 ∧ 0xDC00 ≤ lo ∧ lo < 0xE000 then
        (joinPieces ps).map (Char.ofNat (0x10000 + (hi - 0xD800) * 0x400 + (lo - 0xDC00)) :: ·)
      else if 0xD800 ≤ hi ∧ hi < 0xE000 then none
      else (joinPieces (.inr lo :: ps)).map (Char.ofNat hi :: ·)
  | .inr u :: ps =>
      if 0xD800 ≤ u ∧ u < 0xE000 then none else (joinPieces ps).map (Char.ofNat u :: ·)

/-- A string after its opening quote. -/
def readString (cs : List Char) : Option (String × List Char) := do
  let (pieces, rest) ← readPieces cs
  let chars ← joinPieces pieces
  return (String.ofList chars, rest)

def readSign : List Char → List Char × List Char
  | '-' :: cs => (['-'], cs)
  | cs => ([], cs)

def readDigits (cs : List Char) : List Char × List Char :=
  (cs.takeWhile Char.isDigit, cs.dropWhile Char.isDigit)

def readFraction : List Char → Option (List Char × List Char)
  | '.' :: cs =>
      if (readDigits cs).1 = [] then none else some ('.' :: (readDigits cs).1, (readDigits cs).2)
  | cs => some ([], cs)

def readExponent : List Char → Option (List Char × List Char)
  | [] => some ([], [])
  | e :: cs =>
      if e = 'e' ∨ e = 'E' then
        let (sign, after) := match cs with
          | '+' :: cs => (['+'], cs)
          | '-' :: cs => (['-'], cs)
          | cs => ([], cs)
        if (readDigits after).1 = [] then none
        else some (e :: sign ++ (readDigits after).1, (readDigits after).2)
      else some ([], e :: cs)

/-- An integer, if it is written as one and fits in 64 bits. -/
def numberOf (sign digits tail : List Char) : Json :=
  let n := Nat.ofDigitChars 10 digits 0
  if tail = [] ∧ sign = [] ∧ n < 2 ^ 64 then .int n
  else if tail = [] ∧ sign ≠ [] ∧ 0 < n ∧ n ≤ 2 ^ 63 then .int (-n)
  else .float (String.ofList (sign ++ digits ++ tail))

def readNumber (cs : List Char) : Option (Json × List Char) := do
  let (sign, afterSign) := readSign cs
  let (digits, afterDigits) := readDigits afterSign
  if digits = [] ∨ (digits.head? = some '0' ∧ 1 < digits.length) then none
  else do
    let (fraction, afterFraction) ← readFraction afterDigits
    let (exponent, rest) ← readExponent afterFraction
    return (numberOf sign digits (fraction ++ exponent), rest)

/-! ## Values -/

/-- Insert a field, or replace the value of its key where it stands. -/
def insertField (fields : List (String × Json)) (key : String) (v : Json) : List (String × Json) :=
  if fields.any (·.1 = key) then fields.map fun f => if f.1 = key then (key, v) else f
  else fields ++ [(key, v)]

def objectOf (fields : List (String × Json)) : Json :=
  .obj (fields.foldl (fun acc f => insertField acc f.1 f.2) [])

mutual

/-- A value, nested less deep than the first argument. -/
def readValue : ℕ → List Char → Option (Json × List Char)
  | 0, _ => none
  | n + 1, cs =>
      match skipBlanks cs with
      | 'n' :: 'u' :: 'l' :: 'l' :: rest => some (.null, rest)
      | 't' :: 'r' :: 'u' :: 'e' :: rest => some (.bool true, rest)
      | 'f' :: 'a' :: 'l' :: 's' :: 'e' :: rest => some (.bool false, rest)
      | '"' :: rest => (readString rest).map fun (s, rest) => (.str s, rest)
      | '[' :: rest =>
          match skipBlanks rest with
          | ']' :: rest => some (.arr [], rest)
          | rest => (readItems n rest).map fun (items, rest) => (.arr items, rest)
      | '\x7b' :: rest =>
          match skipBlanks rest with
          | '\x7d' :: rest => some (.obj [], rest)
          | rest => (readFields n rest).map fun (fields, rest) => (objectOf fields, rest)
      | rest => readNumber rest

/-- The items of an array up to its closing bracket. -/
def readItems : ℕ → List Char → Option (List Json × List Char)
  | 0, _ => none
  | n + 1, cs =>
      match readValue n cs with
      | none => none
      | some (v, rest) =>
          match skipBlanks rest with
          | ',' :: rest => (readItems n rest).map fun (items, rest) => (v :: items, rest)
          | ']' :: rest => some ([v], rest)
          | _ => none

/-- The fields of an object up to its closing brace. -/
def readFields : ℕ → List Char → Option (List (String × Json) × List Char)
  | 0, _ => none
  | n + 1, cs =>
      match skipBlanks cs with
      | '"' :: rest =>
          match readString rest with
          | none => none
          | some (key, rest) =>
              match skipBlanks rest with
              | ':' :: rest =>
                  match readValue n rest with
                  | none => none
                  | some (v, rest) =>
                      match skipBlanks rest with
                      | ',' :: rest =>
                          (readFields n rest).map fun (fields, rest) => ((key, v) :: fields, rest)
                      | '\x7d' :: rest => some ([(key, v)], rest)
                      | _ => none
              | _ => none
      | _ => none

end

/-- The value a text denotes. -/
def parse (text : String) : Option Json :=
  match readValue (text.toList.length + 1) text.toList with
  | some (v, rest) => if skipBlanks rest = [] then some v else none
  | none => none

/-! ## What was printed reads back -/

theorem joinPieces_inl (c : Char) (ps : List (Char ⊕ ℕ)) :
    joinPieces (.inl c :: ps) = (joinPieces ps).map (c :: ·) := by
  rw [joinPieces]

/-- A unit below the surrogates stands for itself. -/
theorem joinPieces_inr {u : ℕ} (hu : u < 0xD800) (ps : List (Char ⊕ ℕ)) :
    joinPieces (.inr u :: ps) = (joinPieces ps).map (Char.ofNat u :: ·) := by
  have hlow : ¬ (0xD800 ≤ u ∧ u < 0xE000) := by omega
  match ps with
  | [] =>
      show (if 0xD800 ≤ u ∧ u < 0xE000 then none else _) = _
      rw [if_neg hlow]
  | .inl c :: ps =>
      show (if 0xD800 ≤ u ∧ u < 0xE000 then none else _) = _
      rw [if_neg hlow]
  | .inr lo :: ps =>
      have hpair : ¬ (0xD800 ≤ u ∧ u < 0xDC00 ∧ 0xDC00 ≤ lo ∧ lo < 0xE000) := by omega
      rw [joinPieces, if_neg hpair, if_neg hlow]

theorem hexUnit_control : ∀ n < 32,
    digitsValue 16 0 ['0', '0', Nat.digitChar (n / 16), Nat.digitChar (n % 16)] = some n := by
  decide

/-- An escaped character reads back. -/
theorem exists_piece (c : Char) : ∃ p : Char ⊕ ℕ,
    (∀ rest, readPieces (escapeChar c ++ rest) =
      (readPieces rest).map fun (ps, after) => (p :: ps, after)) ∧
    ∀ ps, joinPieces (p :: ps) = (joinPieces ps).map (c :: ·) := by
  have hshort : ∀ e, shortEscape e = some c → e ≠ 'u' → ∀ rest,
      readPieces ('\\' :: e :: rest) = (readPieces rest).map fun (ps, after) =>
        (.inl c :: ps, after) := by
    intro e he hu rest
    rw [readPieces]
    · rw [he]
      cases readPieces rest <;> rfl
    · intro a b c d cs h _
      exact hu h
  unfold escapeChar
  split_ifs with h₁ h₂ h₃ h₄ h₅ h₆ h₇ h₈
  · exact ⟨.inl c, hshort '"' (by rw [h₁]; rfl) (by decide), joinPieces_inl c⟩
  · exact ⟨.inl c, hshort '\\' (by rw [h₂]; rfl) (by decide), joinPieces_inl c⟩
  · exact ⟨.inl c, hshort 'n' (by rw [h₃]; rfl) (by decide), joinPieces_inl c⟩
  · exact ⟨.inl c, hshort 'r' (by rw [h₄]; rfl) (by decide), joinPieces_inl c⟩
  · exact ⟨.inl c, hshort 't' (by rw [h₅]; rfl) (by decide), joinPieces_inl c⟩
  · exact ⟨.inl c, hshort 'b' (by rw [← Char.ofNat_toNat c, h₆]; rfl) (by decide), joinPieces_inl c⟩
  · exact ⟨.inl c, hshort 'f' (by rw [← Char.ofNat_toNat c, h₇]; rfl) (by decide), joinPieces_inl c⟩
  · refine ⟨.inr c.toNat, fun rest => ?_, fun ps => ?_⟩
    · rw [List.cons_append, List.cons_append, List.cons_append, List.cons_append, List.cons_append,
        List.cons_append, List.nil_append, readPieces, hexUnit_control _ h₈]
      cases readPieces rest <;> rfl
    · rw [joinPieces_inr (by omega), Char.ofNat_toNat]
  · refine ⟨.inl c, fun rest => ?_, joinPieces_inl c⟩
    have hnot : ¬ (c.toNat < 32 ∨ c = '\\') := by
      rintro (h | h)
      · exact h₈ h
      · exact h₂ h
    rw [List.singleton_append, readPieces, if_neg hnot]
    · cases readPieces rest <;> rfl
    · exact h₁
    · intro a b c d cs h _
      exact h₂ h
    · intro e cs h _
      exact h₂ h

/-- A quoted string reads back. -/
theorem readString_quote (s : String) (rest : List Char) :
    readString (s.toList.flatMap escapeChar ++ '"' :: rest) = some (s, rest) := by
  have hpieces : ∀ cs : List Char, ∃ ps,
      readPieces (cs.flatMap escapeChar ++ '"' :: rest) = some (ps, rest) ∧
        joinPieces ps = some cs := by
    intro cs
    induction cs with
    | nil => exact ⟨[], rfl, rfl⟩
    | cons c cs ih =>
        obtain ⟨ps, hps, hjoin⟩ := ih
        obtain ⟨p, hread, hp⟩ := exists_piece c
        refine ⟨p :: ps, ?_, ?_⟩
        · rw [List.flatMap_cons, List.append_assoc, hread, hps]
          rfl
        · rw [hp, hjoin]
          rfl
  obtain ⟨ps, hps, hjoin⟩ := hpieces s.toList
  simp only [readString, hps, bind, Option.bind_some, hjoin, String.ofList_toList]
  rfl

/-- What may follow a number. -/
def EndsNumber (rest : List Char) : Prop :=
  ∀ c ∈ rest.head?, c.isDigit = false ∧ c ≠ '.' ∧ c ≠ 'e' ∧ c ≠ 'E'

theorem readDigits_append {ds rest : List Char} (hds : ∀ c ∈ ds, c.isDigit = true)
    (hrest : ∀ c ∈ rest.head?, c.isDigit = false) : readDigits (ds ++ rest) = (ds, rest) := by
  have hnil : rest.takeWhile Char.isDigit = [] ∧ rest.dropWhile Char.isDigit = rest := by
    cases rest with
    | nil => exact ⟨rfl, rfl⟩
    | cons c rest =>
        have hc : ¬ c.isDigit = true := by
          rw [hrest c rfl]
          decide
        exact ⟨List.takeWhile_cons_of_neg hc, List.dropWhile_cons_of_neg hc⟩
  unfold readDigits
  rw [List.takeWhile_append_of_pos hds, List.dropWhile_append_of_pos hds, hnil.1, hnil.2,
    List.append_nil]

/-- Only zero is printed with a leading zero. -/
theorem head?_toDigits {n : ℕ} (h : (Nat.toDigits 10 n).head? = some '0') : n = 0 := by
  induction n using Nat.strong_induction_on with
  | _ n ih =>
      by_cases hn : n < 10
      · have hsmall : ∀ n < 10, [Nat.digitChar n].head? = some '0' → n = 0 := by decide
        rw [Nat.toDigits_of_lt_base hn] at h
        exact hsmall n hn h
      · rw [Nat.toDigits_of_base_le (by decide) (by omega),
          List.head?_append_of_ne_nil _ Nat.toDigits_ne_nil] at h
        have := ih (n / 10) (by omega) h
        omega

/-- The digits of a number, with a sign ahead of them or not. -/
theorem readNumber_toDigits {sign cs rest : List Char} {n : ℕ} (hrest : EndsNumber rest)
    (hsign : readSign cs = (sign, Nat.toDigits 10 n ++ rest)) :
    readNumber cs = some (numberOf sign (Nat.toDigits 10 n) [], rest) := by
  have hdigits : readDigits (Nat.toDigits 10 n ++ rest) = (Nat.toDigits 10 n, rest) :=
    readDigits_append (fun c hc => Nat.isDigit_of_mem_toDigits (by decide) (by decide) hc)
      fun c hc => (hrest c hc).1
  have hplain : ¬ (Nat.toDigits 10 n = [] ∨
      ((Nat.toDigits 10 n).head? = some '0' ∧ 1 < (Nat.toDigits 10 n).length)) := by
    rintro (h | ⟨h, hlen⟩)
    · exact Nat.toDigits_ne_nil h
    · rw [head?_toDigits h, Nat.toDigits_zero] at hlen
      exact absurd hlen (by decide)
  have hfraction : readFraction rest = some ([], rest) := by
    cases rest with
    | nil => rfl
    | cons c rest =>
        rw [readFraction]
        intro cs h
        exact (hrest c rfl).2.1 (List.cons.inj h).1
  have hexponent : readExponent rest = some ([], rest) := by
    cases rest with
    | nil => rfl
    | cons c rest =>
        obtain ⟨-, -, he, hE⟩ := hrest c rfl
        exact if_neg (not_or.2 ⟨he, hE⟩)
  unfold readNumber
  rw [hsign]
  simp only [hdigits, if_neg hplain, hfraction, hexponent, bind, Option.bind_some]
  rfl

/-- A printed integer reads back. -/
theorem readNumber_toString {n : ℤ} (hlow : -2 ^ 63 ≤ n) (hhigh : n < 2 ^ 64) {rest : List Char}
    (hrest : EndsNumber rest) : readNumber ((toString n).toList ++ rest) = some (.int n, rest) := by
  cases n with
  | ofNat m =>
      have hm : m < 2 ^ 64 := by
        rw [Int.ofNat_eq_natCast] at hhigh
        exact_mod_cast hhigh
      have htext : (toString (Int.ofNat m)).toList = Nat.toDigits 10 m := Nat.toList_repr
      have hsign : readSign (Nat.toDigits 10 m ++ rest) = ([], Nat.toDigits 10 m ++ rest) := by
        cases hd : Nat.toDigits 10 m with
        | nil => exact absurd hd Nat.toDigits_ne_nil
        | cons c cs =>
            have hc : c.isDigit = true :=
              Nat.isDigit_of_mem_toDigits (by decide) (by decide) (hd ▸ List.mem_cons_self)
            rw [List.cons_append, readSign]
            intro cs' h
            rw [(List.cons.inj h).1] at hc
            exact absurd hc (by decide)
      have hvalue := Nat.ofDigitChars_toDigits (n := m) (show 1 < 10 by decide) (by decide)
      rw [htext, readNumber_toDigits hrest hsign, numberOf, hvalue, if_pos ⟨rfl, rfl, hm⟩]
      rfl
  | negSucc m =>
      have hm : m + 1 ≤ 2 ^ 63 := by
        rw [Int.negSucc_eq] at hlow
        omega
      have htext : (toString (Int.negSucc m)).toList = '-' :: Nat.toDigits 10 (m + 1) := by
        show ("-" ++ Nat.repr (m + 1)).toList = _
        rw [String.toList_append, Nat.toList_repr]
        rfl
      have hsign : readSign ('-' :: Nat.toDigits 10 (m + 1) ++ rest) =
          (['-'], Nat.toDigits 10 (m + 1) ++ rest) := rfl
      have hvalue := Nat.ofDigitChars_toDigits (n := m + 1) (show 1 < 10 by decide) (by decide)
      have hplus : ¬ (([] : List Char) = [] ∧ ['-'] = [] ∧ m + 1 < 2 ^ 64) := by simp
      rw [htext, readNumber_toDigits hrest hsign, numberOf, hvalue, if_neg hplus,
        if_pos ⟨rfl, by simp, by omega, hm⟩]
      rfl

/-- A printed integer starts with a sign or a digit. -/
theorem head_toString (n : ℤ) : ∃ c cs, (toString n).toList = c :: cs ∧
    (c = '-' ∨ c.isDigit = true) := by
  cases n with
  | ofNat m =>
      have htext : (toString (Int.ofNat m)).toList = Nat.toDigits 10 m := Nat.toList_repr
      cases hd : Nat.toDigits 10 m with
      | nil => exact absurd hd Nat.toDigits_ne_nil
      | cons c cs =>
          have hc : c.isDigit = true :=
            Nat.isDigit_of_mem_toDigits (by decide) (by decide) (hd ▸ List.mem_cons_self)
          exact ⟨c, cs, htext.trans hd, Or.inr hc⟩
  | negSucc m =>
      have htext : (toString (Int.negSucc m)).toList = '-' :: (Nat.repr (m + 1)).toList := by
        show ("-" ++ Nat.repr (m + 1)).toList = _
        rw [String.toList_append]
        rfl
      exact ⟨'-', _, htext, Or.inl rfl⟩

theorem skipBlanks_of_head {c : Char} {cs : List Char} (hc : isBlank c = false) :
    skipBlanks (c :: cs) = c :: cs := by
  have hneg : ¬ isBlank c = true := by
    rw [hc]
    decide
  exact List.dropWhile_cons_of_neg hneg

theorem isBlank_digit {c : Char} (hc : c.isDigit = true) : isBlank c = false := by
  by_contra h
  rw [Bool.not_eq_false] at h
  have hblank : c = ' ' ∨ c = '\t' ∨ c = '\n' ∨ c = '\r' := of_decide_eq_true h
  rcases hblank with rfl | rfl | rfl | rfl <;> exact absurd hc (by decide)

/-- What starts like a number is read as one. -/
theorem readValue_number {c : Char} (hc : c = '-' ∨ c.isDigit = true) (n : ℕ) (cs : List Char) :
    readValue (n + 1) (c :: cs) = readNumber (c :: cs) := by
  have hblank : isBlank c = false := by
    rcases hc with rfl | hc
    · rfl
    · exact isBlank_digit hc
  have hnot : c ∉ ['n', 't', 'f', '"', '[', '\x7b'] := by
    rintro hm
    simp only [List.mem_cons, List.not_mem_nil, or_false] at hm
    rcases hc with rfl | hc
    · revert hm
      decide
    · rcases hm with rfl | rfl | rfl | rfl | rfl | rfl <;> exact absurd hc (by decide)
  rw [readValue, skipBlanks_of_head hblank]
  split <;> simp_all

/-- An array that is not empty. -/
theorem readValue_array {c : Char} (hblank : isBlank c = false) (hc : c ≠ ']') (n : ℕ)
    (cs : List Char) : readValue (n + 1) ('[' :: c :: cs) =
      (readItems n (c :: cs)).map fun (items, rest) => (.arr items, rest) := by
  rw [readValue, skipBlanks_of_head rfl]
  simp only [skipBlanks_of_head hblank]
  split
  · rename_i h
    exact absurd (List.cons.inj h).1 hc
  · rfl

/-- The last field of an object. -/
theorem readFields_last {n : ℕ} {v : Json} {cs rest : List Char} (key : String)
    (hv : readValue n cs = some (v, '\x7d' :: rest)) :
    readFields (n + 1) ('"' :: (key.toList.flatMap escapeChar ++ '"' :: ':' :: cs)) =
      some ([(key, v)], rest) := by
  rw [readFields, skipBlanks_of_head rfl]
  simp only [readString_quote]
  rw [skipBlanks_of_head rfl]
  simp only [hv]
  rw [skipBlanks_of_head rfl]
  rfl

/-- A field that another one follows. -/
theorem readFields_next {n : ℕ} {v : Json} {cs rest : List Char} (key : String)
    (hv : readValue n cs = some (v, ',' :: rest)) :
    readFields (n + 1) ('"' :: (key.toList.flatMap escapeChar ++ '"' :: ':' :: cs)) =
      (readFields n rest).map fun (fields, rest) => ((key, v) :: fields, rest) := by
  rw [readFields, skipBlanks_of_head rfl]
  simp only [readString_quote]
  rw [skipBlanks_of_head rfl]
  simp only [hv]
  rw [skipBlanks_of_head rfl]
  rfl

theorem lookup_insertField (fields : List (String × Json)) (key k : String) (v : Json) :
    (insertField fields key v).lookup k = if k = key then some v else fields.lookup k := by
  unfold insertField
  split_ifs with hany hk
  · subst hk
    induction fields with
    | nil => exact absurd hany (by simp)
    | cons f fields ih =>
        obtain ⟨key, w⟩ := f
        by_cases hf : key = k
        · subst hf
          rw [List.map_cons, if_pos rfl, List.lookup_cons_self]
        · have hrest : fields.any (·.1 = k) = true := by simpa [hf] using hany
          have hne : (k == key) = false := by simpa using Ne.symm hf
          rw [List.map_cons, if_neg hf, List.lookup_cons, hne]
          exact ih hrest
  · clear hany
    induction fields with
    | nil => rfl
    | cons f fields ih =>
        obtain ⟨name, w⟩ := f
        by_cases hf : name = key
        · subst hf
          have hne : (k == name) = false := by simpa using hk
          rw [List.map_cons, if_pos rfl, List.lookup_cons, List.lookup_cons, hne, ih]
        · rw [List.map_cons, if_neg hf, List.lookup_cons, List.lookup_cons, ih]
  · rename_i hk
    subst hk
    have hnone : fields.lookup k = none := by
      rw [List.lookup_eq_none_iff]
      intro f hf
      simp only [List.any_eq_true, not_exists, not_and, decide_eq_true_eq] at hany
      simpa using Ne.symm (hany f hf)
    rw [List.lookup_append, hnone]
    simp
  · rename_i hk
    rw [List.lookup_append]
    have hne : (k == key) = false := by simpa using hk
    simp [List.lookup_cons, hne]

/-- No two fields have one key, so none replaces another. -/
theorem objectOf_eq {fields : List (String × Json)} (h : (fields.map Prod.fst).Nodup) :
    objectOf fields = .obj fields := by
  have hfold : ∀ rest before : List (String × Json), ((before ++ rest).map Prod.fst).Nodup →
      rest.foldl (fun acc f => insertField acc f.1 f.2) before = before ++ rest := by
    intro rest
    induction rest with
    | nil => exact fun before _ => (List.append_nil before).symm
    | cons f rest ih =>
        intro before hnodup
        have hnew : ¬ before.any (fun g => decide (g.1 = f.1)) = true := by
          intro hany
          obtain ⟨g, hg, hkey⟩ := List.any_eq_true.1 hany
          rw [List.map_append, List.nodup_append] at hnodup
          exact hnodup.2.2 g.1 (List.mem_map_of_mem hg) f.1 (by simp) (of_decide_eq_true hkey)
        have hinsert : insertField before f.1 f.2 = before ++ [f] := if_neg hnew
        rw [List.foldl_cons, hinsert, ih (before ++ [f]) (by simpa using hnodup)]
        simp
  exact congrArg Json.obj (hfold fields [] h)

end Strkd.Json
