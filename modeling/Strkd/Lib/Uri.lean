import Strkd.Lib.Numeral

/-!
# URIs

A text taken apart by the generic syntax of RFC 3986, the removal of dot segments, and the
parameters of a query with their percent-encoding undone.
-/

namespace Strkd

/-- The five components of a URI reference. -/
structure Uri where
  scheme : Option (List Char)
  authority : Option (List Char)
  path : List Char
  query : Option (List Char)
  fragment : Option (List Char)
  deriving DecidableEq

namespace Uri

/-! ## Taking a text apart -/

/-- The text up to the first of some characters, and the rest. -/
def upTo (stops : List Char) (cs : List Char) : List Char × List Char :=
  (cs.takeWhile (· ∉ stops), cs.dropWhile (· ∉ stops))

def takeScheme (cs : List Char) : Option (List Char) × List Char :=
  match upTo [':', '/', '?', '#'] cs with
  | (c :: scheme, ':' :: rest) => (some (c :: scheme), rest)
  | _ => (none, cs)

def takeAuthority : List Char → Option (List Char) × List Char
  | '/' :: '/' :: cs => (some (upTo ['/', '?', '#'] cs).1, (upTo ['/', '?', '#'] cs).2)
  | cs => (none, cs)

def takeQuery : List Char → Option (List Char) × List Char
  | '?' :: cs => (some (upTo ['#'] cs).1, (upTo ['#'] cs).2)
  | cs => (none, cs)

def takeFragment : List Char → Option (List Char)
  | '#' :: cs => some cs
  | _ => none

def parse (cs : List Char) : Uri :=
  let (scheme, afterScheme) := takeScheme cs
  let (authority, afterAuthority) := takeAuthority afterScheme
  let (path, afterPath) := upTo ['?', '#'] afterAuthority
  let (query, afterQuery) := takeQuery afterPath
  ⟨scheme, authority, path, query, takeFragment afterQuery⟩

/-! ## Paths -/

/-- The removal of dot segments from the segments of an absolute path; `out` holds those that stay,
the last one first. -/
def removeDots (out : List (List Char)) : List (List Char) → List (List Char)
  | [] => out.reverse
  | [s] =>
      if s = ['.'] then ([] :: out).reverse
      else if s = ['.', '.'] then ([] :: out.tail).reverse
      else (s :: out).reverse
  | s :: t :: rest =>
      if s = ['.'] then removeDots out (t :: rest)
      else if s = ['.', '.'] then removeDots out.tail (t :: rest)
      else removeDots (s :: out) (t :: rest)

/-- The segments of an absolute path, without dot segments. -/
def pathSegments (u : Uri) : Option (List (List Char)) :=
  match u.path.splitOn '/' with
  | [] :: s :: rest => some (removeDots [] (s :: rest))
  | _ => none

/-! ## Queries -/

/-- Undo percent-encoding. -/
def percentDecode : List Char → Option (List UInt8)
  | [] => some []
  | '%' :: h :: l :: cs => do
      let hi ← digitOf 16 h
      let lo ← digitOf 16 l
      let rest ← percentDecode cs
      return UInt8.ofNat (16 * hi + lo) :: rest
  | c :: cs =>
      if c = '%' ∨ 128 ≤ c.toNat then none
      else (percentDecode cs).map (UInt8.ofNat c.toNat :: ·)

/-- A parameter: its name up to the first `=`, and its value. -/
def parameter (cs : List Char) : List Char × List Char :=
  ((upTo ['='] cs).1, (upTo ['='] cs).2.drop 1)

/-- The parameters of the query in their order, with percent-encoding undone. -/
def parameters (u : Uri) : Option (List (List UInt8 × List UInt8)) := do
  let query ← u.query
  (query.splitOn '&').mapM fun p => do
    let (name, value) := parameter p
    return (← percentDecode name, ← percentDecode value)

/-! ## What parses back -/

theorem notMem_of_mem_splitOn {d : Char} {l cs : List Char} (h : l ∈ cs.splitOn d) : d ∉ l := by
  induction cs generalizing l with
  | nil =>
      rw [List.splitOn_nil, List.mem_singleton] at h
      rw [h]
      exact List.not_mem_nil
  | cons c cs ih =>
      rw [List.splitOn_cons_eq_if_modifyHead] at h
      split_ifs at h with hc
      · rcases List.mem_cons.1 h with rfl | h
        · exact List.not_mem_nil
        · exact ih h
      · cases hsplit : cs.splitOn d with
        | nil => exact absurd hsplit (List.splitOn_ne_nil d cs)
        | cons first rest =>
            rw [hsplit, List.modifyHead_cons] at h
            have hcd : d ≠ c := fun heq => hc (beq_iff_eq.2 heq.symm)
            rcases List.mem_cons.1 h with rfl | h
            · exact List.not_mem_cons_of_ne_of_not_mem hcd (ih (hsplit ▸ List.mem_cons_self))
            · exact ih (hsplit ▸ List.mem_cons_of_mem _ h)

theorem upTo_append {stops a rest : List Char} (ha : ∀ c ∈ a, c ∉ stops)
    (hrest : ∀ c ∈ rest.head?, c ∈ stops) : upTo stops (a ++ rest) = (a, rest) := by
  have hpos : ∀ c ∈ a, decide (c ∉ stops) = true := fun c hc => decide_eq_true (ha c hc)
  have hnil : rest.takeWhile (fun c => decide (c ∉ stops)) = [] ∧
      rest.dropWhile (fun c => decide (c ∉ stops)) = rest := by
    cases rest with
    | nil => exact ⟨rfl, rfl⟩
    | cons d rest =>
        have hd : ¬ decide (d ∉ stops) = true := by
          simpa using hrest d rfl
        exact ⟨List.takeWhile_cons_of_neg hd, List.dropWhile_cons_of_neg hd⟩
  unfold upTo
  rw [List.takeWhile_append_of_pos hpos, List.dropWhile_append_of_pos hpos, hnil.1, hnil.2,
    List.append_nil]

theorem notMem_of_ne {c d : Char} {l : List Char} (hd : d ∉ l) (hc : c ∈ l) : c ∉ [d] := by
  rintro hm
  rw [List.mem_singleton] at hm
  exact hd (hm ▸ hc)

theorem upTo_self {stops a : List Char} (ha : ∀ c ∈ a, c ∉ stops) : upTo stops a = (a, []) := by
  have h : upTo stops (a ++ []) = (a, []) := upTo_append ha fun c hc => nomatch hc
  rwa [List.append_nil] at h

/-- A text put together from its components. -/
theorem parse_eq {scheme authority path query : List Char} (hscheme : scheme ≠ [])
    (hs : ∀ c ∈ scheme, c ∉ [':', '/', '?', '#']) (ha : ∀ c ∈ authority, c ∉ ['/', '?', '#'])
    (hp : ∀ c ∈ path, c ∉ ['?', '#']) (hq : '#' ∉ query) :
    parse (scheme ++ ':' :: '/' :: '/' :: (authority ++ '/' :: (path ++ '?' :: query))) =
      ⟨some scheme, some authority, '/' :: path, some query, none⟩ := by
  have hafter : takeScheme (scheme ++ ':' :: '/' :: '/' :: (authority ++ '/' :: (path ++
      '?' :: query))) = (some scheme, '/' :: '/' :: (authority ++ '/' :: (path ++ '?' :: query))) := by
    unfold takeScheme
    rw [upTo_append hs fun c hc => by simp at hc; simp [← hc]]
    cases scheme with
    | nil => exact absurd rfl hscheme
    | cons c scheme => rfl
  have hauthority : takeAuthority ('/' :: '/' :: (authority ++ '/' :: (path ++ '?' :: query))) =
      (some authority, '/' :: (path ++ '?' :: query)) := by
    rw [takeAuthority, upTo_append ha fun c hc => by simp at hc; simp [← hc]]
  have hpath : upTo ['?', '#'] ('/' :: (path ++ '?' :: query)) = ('/' :: path, '?' :: query) := by
    rw [← List.cons_append]
    refine upTo_append (fun c hc => ?_) fun c hc => by simp at hc; simp [← hc]
    rcases List.mem_cons.1 hc with rfl | hc
    · decide
    · exact hp c hc
  have hquery : takeQuery ('?' :: query) = (some query, []) := by
    rw [takeQuery, upTo_self fun c hc => notMem_of_ne hq hc]
  unfold parse
  rw [hafter]
  simp only [hauthority, hpath, hquery]
  rfl

theorem digitOf_toUpper {d : ℕ} (hd : d < 16) : digitOf 16 (Nat.digitChar d).toUpper = some d := by
  revert d
  decide

/-- An encoded byte reads back. -/
theorem percentDecode_byte (b : UInt8) (cs : List Char) :
    percentDecode ('%' :: (Nat.digitChar (b.toNat / 16)).toUpper ::
      (Nat.digitChar (b.toNat % 16)).toUpper :: cs) = (percentDecode cs).map (b :: ·) := by
  have hb := b.toNat_lt
  have hhi : b.toNat / 16 < 16 := by omega
  have hlo : b.toNat % 16 < 16 := by omega
  have hwhole : 16 * (b.toNat / 16) + b.toNat % 16 = b.toNat := by omega
  rw [percentDecode, digitOf_toUpper hhi, digitOf_toUpper hlo]
  simp only [bind, Option.bind_some, hwhole, UInt8.ofNat_toNat]
  cases percentDecode cs <;> rfl

/-- A character that stands for itself. -/
theorem percentDecode_plain {c : Char} (hc : c ≠ '%') (hlt : c.toNat < 128) (cs : List Char) :
    percentDecode (c :: cs) = (percentDecode cs).map (UInt8.ofNat c.toNat :: ·) := by
  rw [percentDecode]
  · have hnot : ¬ (c = '%' ∨ 128 ≤ c.toNat) := by
      rintro (h | h)
      · exact hc h
      · omega
    rw [if_neg hnot]
  · intro h l rest hcons _
    exact hc hcons

theorem parameter_eq (name value : List Char) (h : '=' ∉ name) :
    parameter (name ++ '=' :: value) = (name, value) := by
  unfold parameter
  rw [upTo_append (fun c hc => notMem_of_ne h hc) fun c hc => by simp at hc; simp [← hc]]
  rfl

end Uri

end Strkd
