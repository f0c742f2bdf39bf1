import Strkd.Lib.Replace

/-!
# Redaction

A redacted text is a list of the characters that were kept and of markers where secrets stood.
Replacing a secret by a marker in the rendered text is the same as hiding it in that list
(`exists_scan`), as long as no occurrence of the secret can overlap a marker (`Apart`).  Passes over
several secrets then undo nothing of each other (`exists_redacts`).
-/

namespace Strkd

/-! ## Redacted texts -/

/-- The text a list of kept characters (`some`) and markers (`none`) stands for. -/
def unmark (marker : List Char) : List (Option Char) → List Char
  | [] => []
  | some c :: ts => c :: unmark marker ts
  | none :: ts => marker ++ unmark marker ts

/-- `ts` is the text with some occurrences of the secrets hidden and all else kept. -/
inductive Redacts (secrets : List (List Char)) : List Char → List (Option Char) → Prop
  | nil : Redacts secrets [] []
  | keep (c : Char) {text : List Char} {ts : List (Option Char)} (h : Redacts secrets text ts) :
      Redacts secrets (c :: text) (some c :: ts)
  | hide {s : List Char} (hs : s ∈ secrets) {text : List Char} {ts : List (Option Char)}
      (h : Redacts secrets text ts) : Redacts secrets (s ++ text) (none :: ts)

/-- `out` is `ts` with the occurrences of `pat` hidden, from left to right. -/
inductive Hides (pat : List Char) : List (Option Char) → List (Option Char) → Prop
  | nil : Hides pat [] []
  | hit {ts out : List (Option Char)} (h : Hides pat ts out) :
      Hides pat (pat.map some ++ ts) (none :: out)
  | miss {t : Option Char} {ts out : List (Option Char)} (hno : ¬ pat.map some <+: t :: ts)
      (h : Hides pat ts out) : Hides pat (t :: ts) (t :: out)

/-- No occurrence of `pat` overlaps a marker: none starts in one, and none runs into one. -/
structure Apart (pat marker : List Char) : Prop where
  starts : ∃ a as, pat = a :: as ∧ a ∉ marker
  ends : ∃ m ms, marker = m :: ms ∧ m ∉ pat

section

variable {secrets : List (List Char)} {text pat q marker : List Char}
variable {ts out : List (Option Char)}

theorem redacts_some (text : List Char) : Redacts secrets text (text.map some) := by
  induction text with
  | nil => exact .nil
  | cons c text ih => exact .keep c ih

theorem unmark_some (text : List Char) : unmark marker (text.map some) = text := by
  induction text with
  | nil => rfl
  | cons c text ih => exact congrArg (c :: ·) ih

theorem unmark_append (as ts : List (Option Char)) :
    unmark marker (as ++ ts) = unmark marker as ++ unmark marker ts := by
  induction as with
  | nil => rfl
  | cons t as ih =>
      cases t with
      | some c => exact congrArg (c :: ·) ih
      | none =>
          show marker ++ unmark marker (as ++ ts) = marker ++ unmark marker as ++ unmark marker ts
          rw [ih, List.append_assoc]

/-! ## What hiding does -/

/-- Kept characters at the start of a redacted text stand at the start of the text. -/
theorem Redacts.of_prefix (h : Redacts secrets text (pat.map some ++ ts)) :
    ∃ rest, text = pat ++ rest ∧ Redacts secrets rest ts := by
  induction pat generalizing text with
  | nil => exact ⟨text, rfl, h⟩
  | cons c pat ih =>
      cases h with
      | keep _ h =>
          obtain ⟨rest, rfl, hrest⟩ := ih h
          exact ⟨rest, rfl, hrest⟩

theorem Redacts.hides (hpat : pat ∈ secrets) (hh : Hides pat ts out) (h : Redacts secrets text ts) :
    Redacts secrets text out := by
  induction hh generalizing text with
  | nil => exact h
  | hit _ ih =>
      obtain ⟨rest, rfl, hrest⟩ := h.of_prefix
      exact .hide hpat (ih hrest)
  | miss _ _ ih =>
      cases h with
      | keep c h => exact .keep c (ih h)
      | hide hs h => exact .hide hs (ih h)

/-- Characters kept at the start of the result were at the start before. -/
theorem Hides.prefix_of (h : Hides pat ts out) (hq : q.map some <+: out) : q.map some <+: ts := by
  induction q generalizing ts out with
  | nil => exact List.nil_prefix
  | cons c q ih =>
      cases h with
      | nil => exact absurd (List.prefix_nil.1 hq) (by simp)
      | hit h => exact absurd (List.cons_prefix_cons.1 hq).1 (by simp)
      | miss _ h =>
          obtain ⟨rfl, hrest⟩ := List.cons_prefix_cons.1 hq
          exact List.cons_prefix_cons.2 ⟨rfl, ih h hrest⟩

theorem not_prefix_none {a : Char} {as : List Char} :
    ¬ (a :: as).map some <+: (none : Option Char) :: ts := by
  intro h
  exact absurd (List.cons_prefix_cons.1 h).1 (by simp)

/-- Hiding makes no new occurrence of anything. -/
theorem Hides.infix_of (hne : q ≠ []) (h : Hides pat ts out) (hq : q.map some <:+: out) :
    q.map some <:+: ts := by
  obtain ⟨a, as, rfl⟩ := List.exists_cons_of_ne_nil hne
  induction h with
  | nil => exact hq
  | hit _ ih =>
      rcases List.infix_cons_iff.1 hq with hq | hq
      · exact absurd hq not_prefix_none
      · exact (ih hq).trans (List.suffix_append _ _).isInfix
  | miss hno h ih =>
      rcases List.infix_cons_iff.1 hq with hq | hq
      · exact ((Hides.miss hno h).prefix_of hq).isInfix
      · exact (ih hq).trans (List.suffix_cons _ _).isInfix

/-- Hiding a pattern leaves no occurrence of it. -/
theorem Hides.not_infix (hne : pat ≠ []) (h : Hides pat ts out) : ¬ pat.map some <:+: out := by
  obtain ⟨a, as, rfl⟩ := List.exists_cons_of_ne_nil hne
  intro hq
  induction h with
  | nil => exact absurd (List.infix_nil.1 hq) (by simp)
  | hit _ ih =>
      rcases List.infix_cons_iff.1 hq with hq | hq
      · exact not_prefix_none hq
      · exact ih hq
  | miss hno h ih =>
      rcases List.infix_cons_iff.1 hq with hq | hq
      · exact hno ((Hides.miss hno h).prefix_of hq)
      · exact ih hq

/-! ## Hiding is replacing -/

theorem replaceFrom_skip (pat new cs : List Char) (n : ℕ) :
    replaceFrom pat new n cs = replaceFrom pat new 0 (cs.drop n) := by
  induction n generalizing cs with
  | zero => rfl
  | succ n ih =>
      cases cs with
      | nil => rfl
      | cons c cs => exact ih cs

/-- An occurrence at the start is replaced. -/
theorem replaceFrom_hit (hne : pat ≠ []) (new cs : List Char) :
    replaceFrom pat new 0 (pat ++ cs) = new ++ replaceFrom pat new 0 cs := by
  obtain ⟨a, as, rfl⟩ := List.exists_cons_of_ne_nil hne
  have hstrip : (a :: as).isPrefixOf (a :: (as ++ cs)) = true :=
    List.isPrefixOf_iff_prefix.2 (List.prefix_append (a :: as) cs)
  rw [List.cons_append, replaceFrom, if_pos hstrip, replaceFrom_skip]
  simp

theorem replaceFrom_miss {c : Char} {cs : List Char} (hno : ¬ pat <+: c :: cs) (new : List Char) :
    replaceFrom pat new 0 (c :: cs) = c :: replaceFrom pat new 0 cs := by
  rw [replaceFrom, if_neg]
  rwa [List.isPrefixOf_iff_prefix]

/-- A stretch in which no occurrence can start is copied. -/
theorem replaceFrom_copy {a : Char} {as : List Char} (new cs : List Char) {l : List Char}
    (ha : a ∉ l) : replaceFrom (a :: as) new 0 (l ++ cs) = l ++ replaceFrom (a :: as) new 0 cs := by
  induction l with
  | nil => rfl
  | cons c l ih =>
      rw [List.mem_cons, not_or] at ha
      rw [List.cons_append, replaceFrom_miss, ih ha.2]
      · rfl
      · intro h
        exact ha.1 (List.cons_prefix_cons.1 h).1

/-- An occurrence at the start of the text is one of kept characters. -/
theorem Apart.prefix_of (hm : ∃ m ms, marker = m :: ms ∧ m ∉ q) (hq : q <+: unmark marker ts) :
    q.map some <+: ts := by
  induction q generalizing ts with
  | nil => exact List.nil_prefix
  | cons a q ih =>
      obtain ⟨m, ms, rfl, hnot⟩ := hm
      rw [List.mem_cons, not_or] at hnot
      cases ts with
      | nil => exact absurd (List.prefix_nil.1 hq) (by simp)
      | cons t ts =>
          cases t with
          | some c =>
              obtain ⟨rfl, hrest⟩ := List.cons_prefix_cons.1 hq
              exact List.cons_prefix_cons.2 ⟨rfl, ih ⟨m, ms, rfl, hnot.2⟩ hrest⟩
          | none => exact absurd (List.cons_prefix_cons.1 hq).1 (Ne.symm hnot.1)

theorem infix_of_append {a : Char} {as l cs : List Char} (ha : a ∉ l)
    (h : a :: as <:+: l ++ cs) : a :: as <:+: cs := by
  induction l with
  | nil => exact h
  | cons c l ih =>
      rw [List.mem_cons, not_or] at ha
      rcases List.infix_cons_iff.1 h with h | h
      · exact absurd (List.cons_prefix_cons.1 h).1 ha.1
      · exact ih ha.2 h

/-- Any occurrence in the text is one of kept characters. -/
theorem Apart.infix_of (h : Apart q marker) (hq : q <:+: unmark marker ts) :
    q.map some <:+: ts := by
  obtain ⟨⟨a, as, rfl, ha⟩, hm⟩ := h
  induction ts with
  | nil => exact absurd (List.infix_nil.1 hq) (by simp)
  | cons t ts ih =>
      cases t with
      | some c =>
          rcases List.infix_cons_iff.1 hq with hp | hp
          · have hfront : (a :: as).map some <+: some c :: ts := Apart.prefix_of hm hp
            exact hfront.isInfix
          · exact (ih hp).trans (List.suffix_cons _ _).isInfix
      | none => exact (ih (infix_of_append ha hq)).trans (List.suffix_cons _ _).isInfix

/-- Replacing a pattern by the marker hides it. -/
theorem exists_scan (h : Apart pat marker) (ts : List (Option Char)) :
    ∃ out, Hides pat ts out ∧
      replaceFrom pat marker 0 (unmark marker ts) = unmark marker out := by
  have hne : pat ≠ [] := by
    obtain ⟨a, as, rfl, -⟩ := h.starts
    exact List.cons_ne_nil a as
  induction hlen : ts.length using Nat.strong_induction_on generalizing ts with
  | _ n ih =>
      by_cases hhit : pat.map some <+: ts
      · obtain ⟨rest, rfl⟩ := hhit
        have hpos : 0 < pat.length := List.length_pos_iff.2 hne
        rw [List.length_append, List.length_map] at hlen
        obtain ⟨out, hout, htext⟩ := ih rest.length (by omega) rest rfl
        refine ⟨none :: out, .hit hout, ?_⟩
        rw [unmark_append, unmark_some, replaceFrom_hit hne, htext]
        rfl
      · cases ts with
        | nil => exact ⟨[], .nil, rfl⟩
        | cons t rest =>
            rw [List.length_cons] at hlen
            obtain ⟨out, hout, htext⟩ := ih rest.length (by omega) rest rfl
            refine ⟨t :: out, .miss hhit hout, ?_⟩
            cases t with
            | some c =>
                have hno : ¬ pat <+: c :: unmark marker rest := by
                  intro hp
                  have hfront : pat.map some <+: some c :: rest := Apart.prefix_of h.ends hp
                  exact hhit hfront
                show replaceFrom pat marker 0 (c :: unmark marker rest) = c :: unmark marker out
                rw [replaceFrom_miss hno, htext]
            | none =>
                obtain ⟨a, as, rfl, ha⟩ := h.starts
                show replaceFrom (a :: as) marker 0 (marker ++ unmark marker rest) =
                  marker ++ unmark marker out
                rw [replaceFrom_copy _ _ ha, htext]

/-- Replace one secret after the other. -/
def redact (marker : List Char) (secrets : List (List Char)) (text : List Char) : List Char :=
  secrets.foldl (fun text s => replaceFrom s marker 0 text) text

/-- Replacing several secrets one after the other hides each of them and keeps all else. -/
theorem exists_redacts (h : ∀ s ∈ secrets, Apart s marker) (text : List Char) :
    ∃ ts, Redacts secrets text ts ∧ redact marker secrets text = unmark marker ts ∧
      ∀ s ∈ secrets, ¬ s <:+: redact marker secrets text := by
  -- after the secrets of `before`, those of `after` are still to be replaced
  have hpasses : ∀ after before : List (List Char), (∀ s ∈ before ++ after, s ∈ secrets) →
      ∀ ts, Redacts secrets text ts → (∀ s ∈ before, ¬ s.map some <:+: ts) →
        ∃ out, Redacts secrets text out ∧
          redact marker after (unmark marker ts) = unmark marker out ∧
          ∀ s ∈ before ++ after, ¬ s.map some <:+: out := by
    intro after
    induction after with
    | nil =>
        intro before _ ts hts hgone
        exact ⟨ts, hts, rfl, by simpa using hgone⟩
    | cons s after ih =>
        intro before hmem ts hts hgone
        have hs : s ∈ secrets := hmem s (by simp)
        obtain ⟨out, hout, htext⟩ := exists_scan (h s hs) ts
        have hne : ∀ s ∈ secrets, s ≠ [] := fun s hs => by
          obtain ⟨a, as, rfl, -⟩ := (h s hs).starts
          exact List.cons_ne_nil a as
        have hgone' : ∀ p ∈ before ++ [s], ¬ p.map some <:+: out := by
          intro p hp
          rcases List.mem_append.1 hp with hp | hp
          · exact fun hin => hgone p hp (hout.infix_of (hne p (hmem p (by simp [hp]))) hin)
          · rw [List.mem_singleton.1 hp]
            exact hout.not_infix (hne s hs)
        obtain ⟨res, hres, hrender, hall⟩ := ih (before ++ [s]) (by simpa using hmem) out
          (hts.hides hs hout) hgone'
        refine ⟨res, hres, ?_, by simpa using hall⟩
        rw [← hrender, ← htext]
        rfl
  obtain ⟨out, hout, hrender, hall⟩ := hpasses secrets [] (fun s hs => hs) (text.map some)
    (redacts_some text) fun s hs => absurd hs List.not_mem_nil
  rw [unmark_some] at hrender
  refine ⟨out, hout, hrender, fun s hs hin => ?_⟩
  rw [hrender] at hin
  exact hall s hs ((h s hs).infix_of hin)

end

end Strkd
