import Strkd.Lib.Numeral

/-!
# Taking a text apart

A text put together from pieces and separators determines its pieces when no piece contains the
character its separator starts with (`split_at`).  Printed numbers consist of letters and digits.
-/

namespace Strkd

/-! ## Separators -/

theorem append_sep_inj {c : Char} {x y s t : List Char} (hx : c ∉ x) (hy : c ∉ y)
    (h : x ++ c :: s = y ++ c :: t) : x = y ∧ s = t := by
  induction x generalizing y with
  | nil =>
      cases y with
      | nil => exact ⟨rfl, (List.cons.inj h).2⟩
      | cons d y =>
          have hd : c = d := (List.cons.inj h).1
          exact absurd (hd ▸ List.mem_cons_self) hy
  | cons d x ih =>
      cases y with
      | nil =>
          have hd : d = c := (List.cons.inj h).1
          exact absurd (hd ▸ List.mem_cons_self) hx
      | cons e y =>
          obtain ⟨rfl, hrest⟩ := List.cons.inj h
          obtain ⟨rfl, rfl⟩ := ih (fun hm => hx (List.mem_cons_of_mem _ hm))
            (fun hm => hy (List.mem_cons_of_mem _ hm)) hrest
          exact ⟨rfl, rfl⟩

/-- The piece before a separator and the rest after it. -/
theorem split_at (c : Char) {sep x y s t : String} (hsep : sep.toList.head? = some c)
    (hx : c ∉ x.toList) (hy : c ∉ y.toList) (h : x ++ (sep ++ s) = y ++ (sep ++ t)) :
    x = y ∧ s = t := by
  obtain ⟨rest, hrest⟩ : ∃ rest, sep.toList = c :: rest := by
    cases hl : sep.toList with
    | nil => simp [hl] at hsep
    | cons d rest =>
        rw [hl] at hsep
        cases hsep
        exact ⟨rest, rfl⟩
  have hlist := congrArg String.toList h
  simp only [String.toList_append, hrest, List.cons_append] at hlist
  obtain ⟨hxy, hst⟩ := append_sep_inj hx hy hlist
  exact ⟨String.toList_inj.1 hxy, String.toList_inj.1 (List.append_cancel_left hst)⟩

/-- The piece before the last separator and the rest after it. -/
theorem split_at_last (c : Char) {sep x y s t : String} {rest : List Char}
    (hsep : sep.toList = c :: rest) (hrest : c ∉ rest) (hs : c ∉ s.toList) (ht : c ∉ t.toList)
    (h : x ++ (sep ++ s) = y ++ (sep ++ t)) : x = y ∧ s = t := by
  have hlist := congrArg (fun s => s.toList.reverse) h
  simp only [String.toList_append, hsep, List.cons_append, List.reverse_append, List.reverse_cons,
    List.append_assoc] at hlist
  rw [← List.append_assoc, ← List.append_assoc t.toList.reverse] at hlist
  have hnot : ∀ s : String, c ∉ s.toList → c ∉ s.toList.reverse ++ rest.reverse := by
    intro s hs hm
    rcases List.mem_append.1 hm with hm | hm
    · exact hs (List.mem_reverse.1 hm)
    · exact hrest (List.mem_reverse.1 hm)
  obtain ⟨hst, hxy⟩ := append_sep_inj (hnot s hs) (hnot t ht) hlist
  exact ⟨String.toList_inj.1 (List.reverse_injective hxy),
    String.toList_inj.1 (List.reverse_injective (List.append_cancel_right hst))⟩

/-- The pieces of a list of texts joined by a separator that none of them contains. -/
theorem intercalate_inj (c : Char) {α : Type} {f : α → String} {sep : String}
    (hsep : sep.toList.head? = some c) (hf : ∀ a, c ∉ (f a).toList) (hne : ∀ a, f a ≠ "")
    {l l' : List α} (h : sep.intercalate (l.map f) = sep.intercalate (l'.map f)) :
    l.map f = l'.map f := by
  have hempty : ∀ (a : α) (l : List α), sep.intercalate ((a :: l).map f) ≠ "" := by
    intro a l heq
    cases l with
    | nil => exact hne a (by simpa using heq)
    | cons b l =>
        rw [List.map_cons, List.map_cons, String.intercalate_cons_cons, String.append_assoc] at heq
        exact hne a (String.append_eq_empty_iff.1 heq).1
  have hmem : ∀ (a : α) (t : String), c ∈ (f a ++ (sep ++ t)).toList := by
    intro a t
    have : c ∈ sep.toList := List.mem_of_head? hsep
    simp [this]
  induction l generalizing l' with
  | nil =>
      cases l' with
      | nil => rfl
      | cons a l' => exact absurd (by simpa using h.symm) (hempty a l')
  | cons a l ih =>
      cases l' with
      | nil => exact absurd (by simpa using h) (hempty a l)
      | cons b l' =>
          cases l with
          | nil =>
              cases l' with
              | nil => simpa using h
              | cons d l' =>
                  simp only [List.map_cons, List.map_nil, String.intercalate_singleton,
                    String.intercalate_cons_cons, String.append_assoc] at h
                  exact absurd (h ▸ hmem b _) (hf a)
          | cons e l =>
              cases l' with
              | nil =>
                  simp only [List.map_cons, List.map_nil, String.intercalate_singleton,
                    String.intercalate_cons_cons, String.append_assoc] at h
                  exact absurd (h ▸ hmem a _) (hf b)
              | cons d l' =>
                  simp only [List.map_cons, String.intercalate_cons_cons, String.append_assoc] at h
                  obtain ⟨hab, hrest⟩ := split_at c hsep (hf a) (hf b) h
                  have hrest' : sep.intercalate ((e :: l).map f) =
                      sep.intercalate ((d :: l').map f) := by simpa using hrest
                  show f a :: (e :: l).map f = f b :: (d :: l').map f
                  rw [hab, ih hrest']

theorem notMem_append {c : Char} {s t : String} (hs : c ∉ s.toList) (ht : c ∉ t.toList) :
    c ∉ (s ++ t).toList := by
  rw [String.toList_append, List.mem_append, not_or]
  exact ⟨hs, ht⟩

theorem notMem_intercalate {c : Char} {sep : String} (hsep : c ∉ sep.toList) {l : List String}
    (hl : ∀ s ∈ l, c ∉ s.toList) : c ∉ (sep.intercalate l).toList := by
  induction l with
  | nil => simp
  | cons s l ih =>
      have hs := hl s List.mem_cons_self
      have ih := ih fun t ht => hl t (List.mem_cons_of_mem _ ht)
      cases l with
      | nil => simpa using hs
      | cons t l =>
          rw [String.intercalate_cons_cons]
          simp only [String.toList_append, List.mem_append, not_or]
          exact ⟨⟨hs, hsep⟩, ih⟩

/-! ## The first piece -/

theorem eq_of_stripPrefix {start s rest : String} (h : stripPrefix start s = some rest) :
    s = start ++ rest := by
  unfold stripPrefix at h
  split_ifs at h with hp
  obtain ⟨t, ht⟩ := List.isPrefixOf_iff_prefix.1 hp
  rw [← ht, List.drop_left] at h
  rw [← Option.some.inj h, ← String.toList_inj, String.toList_append, String.toList_ofList, ht]

/-- `s.split(c).next()` -/
def firstPart (c : Char) (s : String) : String := String.ofList (s.toList.takeWhile (· ≠ c))

theorem takeWhile_ne_eq_iff {c : Char} {l a : List Char} :
    l.takeWhile (· ≠ c) = a ↔ c ∉ a ∧ (l = a ∨ ∃ t, l = a ++ c :: t) := by
  induction l generalizing a with
  | nil =>
      constructor
      · rintro rfl
        exact ⟨List.not_mem_nil, Or.inl rfl⟩
      · rintro ⟨-, h | ⟨t, h⟩⟩
        · exact h
        · simp at h
  | cons d l ih =>
      by_cases hd : d = c
      · have hnil : (d :: l).takeWhile (· ≠ c) = [] := List.takeWhile_cons_of_neg (by simp [hd])
        rw [hnil, hd]
        constructor
        · rintro rfl
          exact ⟨List.not_mem_nil, Or.inr ⟨l, rfl⟩⟩
        · rintro ⟨hca, h⟩
          cases a with
          | nil => rfl
          | cons e a =>
              have he : c = e := by
                rcases h with h | ⟨t, h⟩ <;> exact (List.cons.inj h).1
              exact absurd (he ▸ List.mem_cons_self) hca
      · have hcons : (d :: l).takeWhile (· ≠ c) = d :: l.takeWhile (· ≠ c) :=
          List.takeWhile_cons_of_pos (by simp [hd])
        rw [hcons]
        constructor
        · rintro rfl
          obtain ⟨hc, h⟩ := ih.1 rfl
          refine ⟨fun hm => (List.mem_cons.1 hm).elim (fun h => hd h.symm) hc, ?_⟩
          rcases h with h | ⟨t, h⟩
          · exact Or.inl (congrArg (d :: ·) h)
          · exact Or.inr ⟨t, congrArg (d :: ·) h⟩
        · rintro ⟨hca, h⟩
          cases a with
          | nil =>
              rcases h with h | ⟨t, h⟩
              · cases h
              · exact absurd (List.cons.inj h).1 hd
          | cons e a =>
              have hde : d = e := by
                rcases h with h | ⟨t, h⟩ <;> exact (List.cons.inj h).1
              rw [hde, ih.2 ⟨fun hm => hca (List.mem_cons_of_mem _ hm), ?_⟩]
              rcases h with h | ⟨t, h⟩
              · exact Or.inl (List.cons.inj h).2
              · exact Or.inr ⟨t, (List.cons.inj h).2⟩

/-- The first piece is the whole text, or what stands before a separator. -/
theorem firstPart_eq_iff {c : Char} {s a : String} :
    firstPart c s = a ↔ c ∉ a.toList ∧ (s = a ∨ ∃ t, s = a ++ (String.singleton c ++ t)) := by
  have hlist : firstPart c s = a ↔ s.toList.takeWhile (· ≠ c) = a.toList := by
    rw [firstPart, ← String.toList_inj, String.toList_ofList]
  have hrest : (∃ t, s.toList = a.toList ++ c :: t) ↔
      ∃ t, s = a ++ (String.singleton c ++ t) := by
    constructor
    · rintro ⟨t, h⟩
      exact ⟨String.ofList t, String.toList_inj.1 (by simp [h])⟩
    · rintro ⟨t, rfl⟩
      exact ⟨t.toList, by simp⟩
  rw [hlist, takeWhile_ne_eq_iff, String.toList_inj, hrest]

/-! ## Printed numbers -/

theorem mem_toDigits {b n : ℕ} (hb : 1 < b) {c : Char} (h : c ∈ Nat.toDigits b n) :
    ∃ d < b, c = Nat.digitChar d := by
  induction n using Nat.strong_induction_on with
  | _ n ih =>
      by_cases hn : n < b
      · rw [Nat.toDigits_of_lt_base hn] at h
        exact ⟨n, hn, List.mem_singleton.1 h⟩
      · rw [Nat.toDigits_of_base_le hb (by omega)] at h
        rcases List.mem_append.1 h with h | h
        · exact ih (n / b) (Nat.div_lt_self (by omega) hb) h
        · exact ⟨n % b, Nat.mod_lt _ (by omega), List.mem_singleton.1 h⟩

theorem isAlphanum_digitChar {d : ℕ} (hd : d < 16) : (Nat.digitChar d).isAlphanum = true := by
  revert d
  decide

theorem notMem_toDigits {b n : ℕ} (hb : 1 < b) (hb' : b ≤ 16) {c : Char}
    (hc : c.isAlphanum = false) : c ∉ Nat.toDigits b n := by
  intro h
  obtain ⟨d, hd, rfl⟩ := mem_toDigits hb h
  rw [isAlphanum_digitChar (by omega)] at hc
  cases hc

theorem notMem_toString {n : ℕ} {c : Char} (hc : c.isAlphanum = false) :
    c ∉ (toString n).toList := by
  rw [Nat.toString_eq_repr, Nat.toList_repr]
  exact notMem_toDigits (by decide) (by decide) hc

theorem notMem_hexText {n : ℕ} {c : Char} (hc : c.isAlphanum = false) :
    c ∉ (hexText n).toList := by
  rw [hexText, String.toList_ofList]
  exact notMem_toDigits (by decide) (by decide) hc

theorem notMem_hexPadded {width n : ℕ} {c : Char} (hc : c.isAlphanum = false) :
    c ∉ (hexPadded width n).toList := by
  rw [hexPadded, String.toList_ofList, List.mem_append, not_or]
  refine ⟨fun h => ?_, notMem_toDigits (by decide) (by decide) hc⟩
  rw [List.eq_of_mem_replicate h] at hc
  exact absurd hc (by decide)

theorem toString_injective : Function.Injective fun n : ℕ => toString n := by
  intro m n h
  have hlist := congrArg String.toList h
  simp only [Nat.toString_eq_repr, Nat.toList_repr] at hlist
  have := congrArg (fun l => Nat.ofDigitChars 10 l 0) hlist
  simpa [Nat.ofDigitChars_toDigits] using this

theorem hexText_injective : Function.Injective hexText := by
  intro m n h
  have hm : parseRadix 16 (m + n + 1) (hexText m) = some m := parseRadix_hexText (by omega)
  have hn : parseRadix 16 (m + n + 1) (hexText n) = some n := parseRadix_hexText (by omega)
  exact Option.some.inj (hm.symm.trans (h ▸ hn))

end Strkd
