import Strkd.Lib.JsonText

/-!
# Printed JSON reads back

The text of a value with a gap, some blanks, after every comma and colon: the compact text of
`render` has none.  What consists of strings, 64-bit integers and objects with distinct keys reads
back from it (`parse_spaced`).
-/

namespace Strkd.Json

/-! ## Text with gaps -/

mutual

/-- The text of a value, with `gap` after every comma and colon. -/
def spaced (gap : String) : Json → String
  | .arr items => "[" ++ spacedItems gap items ++ "]"
  | .obj fields => "\x7b" ++ spacedFields gap fields ++ "\x7d"
  | .null => render .null
  | .bool b => render (.bool b)
  | .int n => render (.int n)
  | .float text => render (.float text)
  | .str s => render (.str s)

def spacedItems (gap : String) : List Json → String
  | [] => ""
  | [v] => spaced gap v
  | v :: w :: rest => spaced gap v ++ "," ++ gap ++ spacedItems gap (w :: rest)

def spacedFields (gap : String) : List (String × Json) → String
  | [] => ""
  | [(k, v)] => quote k ++ ":" ++ gap ++ spaced gap v
  | (k, v) :: f :: rest =>
      quote k ++ ":" ++ gap ++ spaced gap v ++ "," ++ gap ++ spacedFields gap (f :: rest)

end

theorem spaced_null (gap : String) : spaced gap .null = "null" := rfl

theorem spaced_bool (gap : String) (b : Bool) :
    spaced gap (.bool b) = if b then "true" else "false" := rfl

theorem spaced_nil (gap : String) : spaced gap (.arr []) = "[]" := rfl

theorem spaced_obj_nil (gap : String) : spaced gap (.obj []) = "\x7b\x7d" := rfl

/-- The text of the items after the first. -/
def moreItems (gap : String) : List Json → String
  | [] => ""
  | v :: items => "," ++ gap ++ spacedItems gap (v :: items)

/-- The text of the fields after the first. -/
def moreFields (gap : String) : List (String × Json) → String
  | [] => ""
  | f :: fields => "," ++ gap ++ spacedFields gap (f :: fields)

theorem spacedItems_cons (gap : String) (v : Json) (items : List Json) :
    spacedItems gap (v :: items) = spaced gap v ++ moreItems gap items := by
  cases items with
  | nil => simp [spacedItems, moreItems]
  | cons w items => simp [spacedItems, moreItems, String.append_assoc]

theorem spacedFields_cons (gap k : String) (v : Json) (fields : List (String × Json)) :
    spacedFields gap ((k, v) :: fields) =
      quote k ++ ":" ++ gap ++ spaced gap v ++ moreFields gap fields := by
  cases fields with
  | nil => simp [spacedFields, moreFields]
  | cons f fields => simp [spacedFields, moreFields, String.append_assoc]

mutual

/-- The compact text is the one without gaps. -/
theorem spaced_empty : ∀ v : Json, spaced "" v = v.render
  | .null => rfl
  | .bool _ => rfl
  | .int _ => rfl
  | .float _ => rfl
  | .str _ => rfl
  | .arr items => by rw [spaced, render, spacedItems_empty items]
  | .obj fields => by rw [spaced, render, spacedFields_empty fields]

theorem spacedItems_empty : ∀ items : List Json, spacedItems "" items = renderItems items
  | [] => rfl
  | [v] => spaced_empty v
  | v :: w :: rest => by
      rw [spacedItems, renderItems, spaced_empty v, spacedItems_empty (w :: rest),
        String.append_empty]

theorem spacedFields_empty : ∀ fields : List (String × Json),
    spacedFields "" fields = renderFields fields
  | [] => rfl
  | [(k, v)] => by rw [spacedFields, renderFields, spaced_empty v, String.append_empty]
  | (k, v) :: f :: rest => by
      rw [spacedFields, renderFields, spaced_empty v, spacedFields_empty (f :: rest),
        String.append_empty, String.append_empty]

end

/-! ## What can be printed and read -/

mutual

/-- 64-bit integers, and objects with distinct keys. -/
def Printable : Json → Prop
  | .null => True
  | .bool _ => True
  | .int n => -2 ^ 63 ≤ n ∧ n < 2 ^ 64
  | .float _ => False
  | .str _ => True
  | .arr items => PrintableItems items
  | .obj fields => PrintableFields fields ∧ (fields.map Prod.fst).Nodup

def PrintableItems : List Json → Prop
  | [] => True
  | v :: rest => Printable v ∧ PrintableItems rest

def PrintableFields : List (String × Json) → Prop
  | [] => True
  | (_, v) :: rest => Printable v ∧ PrintableFields rest

end

theorem printableItems_iff {items : List Json} :
    PrintableItems items ↔ ∀ v ∈ items, Printable v := by
  induction items with
  | nil => simp [PrintableItems]
  | cons v items ih => simp [PrintableItems, ih]

/-! ## Reading it back -/

/-- What may follow a value: nothing, a comma or a closing bracket. -/
def Closes (rest : List Char) : Prop := ∀ c ∈ rest.head?, c ∈ [',', ']', '\x7d']

theorem Closes.endsNumber {rest : List Char} (h : Closes rest) : EndsNumber rest := by
  have hall : ∀ c ∈ [',', ']', '\x7d'],
      c.isDigit = false ∧ c ≠ '.' ∧ c ≠ 'e' ∧ c ≠ 'E' := by simp
  exact fun c hc => hall c (h c hc)

theorem closes_cons {c : Char} (hc : c ∈ [',', ']', '\x7d']) (rest : List Char) :
    Closes (c :: rest) := by
  intro d hd
  rwa [← Option.some.inj hd]

/-- Blanks ahead of a value, of items and of fields do not matter. -/
theorem skipBlanks_append {bs : List Char} (h : ∀ c ∈ bs, isBlank c = true) (cs : List Char) :
    skipBlanks (bs ++ cs) = skipBlanks cs :=
  List.dropWhile_append_of_pos h

theorem readValue_blanks {bs : List Char} (h : ∀ c ∈ bs, isBlank c = true) (n : ℕ)
    (cs : List Char) : readValue n (bs ++ cs) = readValue n cs := by
  cases n with
  | zero => rfl
  | succ n => rw [readValue, skipBlanks_append h, readValue]

theorem readItems_blanks {bs : List Char} (h : ∀ c ∈ bs, isBlank c = true) (n : ℕ)
    (cs : List Char) : readItems n (bs ++ cs) = readItems n cs := by
  cases n with
  | zero => rfl
  | succ n => rw [readItems, readValue_blanks h, readItems]

theorem readFields_blanks {bs : List Char} (h : ∀ c ∈ bs, isBlank c = true) (n : ℕ)
    (cs : List Char) : readFields n (bs ++ cs) = readFields n cs := by
  cases n with
  | zero => rfl
  | succ n => rw [readFields, skipBlanks_append h, readFields]

section

variable {gap : String}

/-- A value starts with no blank and with no closing bracket. -/
theorem head_spaced : ∀ {v : Json}, Printable v → ∃ c cs, (spaced gap v).toList = c :: cs ∧
    isBlank c = false ∧ c ≠ ']'
  | .null, _ => ⟨'n', _, by rw [spaced_null]; rfl, rfl, by decide⟩
  | .bool true, _ => ⟨'t', _, by rw [spaced_bool]; rfl, rfl, by decide⟩
  | .bool false, _ => ⟨'f', _, by rw [spaced_bool]; rfl, rfl, by decide⟩
  | .int n, _ => by
      obtain ⟨c, cs, htext, hc⟩ := head_toString n
      refine ⟨c, cs, htext, ?_⟩
      rcases hc with rfl | hc
      · exact ⟨rfl, by decide⟩
      · exact ⟨isBlank_digit hc, fun h => absurd (h ▸ hc) (by decide)⟩
  | .str s, _ => ⟨'"', _, by simp [spaced, render, quote]; rfl, rfl, by decide⟩
  | .arr items, _ => ⟨'[', _, by simp [spaced]; rfl, rfl, by decide⟩
  | .obj fields, _ => ⟨'\x7b', _, by simp [spaced]; rfl, rfl, by decide⟩

theorem head_spacedItems {v : Json} (items : List Json) (h : Printable v) :
    ∃ c cs, (spacedItems gap (v :: items)).toList = c :: cs ∧ isBlank c = false ∧ c ≠ ']' := by
  obtain ⟨c, cs, htext, hc⟩ := @head_spaced gap v h
  refine ⟨c, cs ++ (moreItems gap items).toList, ?_, hc⟩
  rw [spacedItems_cons, String.toList_append, htext]
  rfl

theorem toList_spacedFields (k : String) (v : Json) (fields : List (String × Json)) :
    (spacedFields gap ((k, v) :: fields)).toList = '"' :: (k.toList.flatMap escapeChar ++
      '"' :: ':' :: (gap.toList ++ ((spaced gap v).toList ++ (moreFields gap fields).toList))) := by
  rw [spacedFields_cons]
  simp [quote]

/-- With fuel `n`, printed values, items and fields read back. -/
structure Reads (gap : String) (n : ℕ) : Prop where
  value : ∀ {v : Json} {rest : List Char}, Printable v → (spaced gap v).toList.length < n →
    Closes rest → readValue n ((spaced gap v).toList ++ rest) = some (v, rest)
  items : ∀ {v : Json} {items : List Json} {rest : List Char}, PrintableItems (v :: items) →
    (spacedItems gap (v :: items)).toList.length + 1 < n →
      readItems n ((spacedItems gap (v :: items)).toList ++ ']' :: rest) = some (v :: items, rest)
  fields : ∀ {f : String × Json} {fields : List (String × Json)} {rest : List Char},
    PrintableFields (f :: fields) → (spacedFields gap (f :: fields)).toList.length + 1 < n →
      readFields n ((spacedFields gap (f :: fields)).toList ++ '\x7d' :: rest) =
        some (f :: fields, rest)

theorem Reads.succ_value {n : ℕ} (ih : Reads gap n) {v : Json} {rest : List Char}
    (h : Printable v) (hn : (spaced gap v).toList.length < n + 1) (hrest : Closes rest) :
    readValue (n + 1) ((spaced gap v).toList ++ rest) = some (v, rest) := by
  cases v with
  | null =>
      rw [spaced_null]
      rfl
  | bool b =>
      rw [spaced_bool]
      cases b <;> rfl
  | int i =>
      have hread := readNumber_toString h.1 h.2 hrest.endsNumber
      obtain ⟨c, cs, htext, hc⟩ := head_toString i
      show readValue (n + 1) ((toString i).toList ++ rest) = _
      rw [htext, List.cons_append] at hread ⊢
      rw [readValue_number hc, hread]
  | float text => exact absurd h id
  | str s =>
      have htext : (spaced gap (.str s)).toList ++ rest =
          '"' :: (s.toList.flatMap escapeChar ++ '"' :: rest) := by
        simp [spaced, render, quote]
      rw [htext, readValue, skipBlanks_of_head rfl]
      simp only [readString_quote, Option.map_some]
  | arr items =>
      cases items with
      | nil =>
          rw [spaced_nil]
          rfl
      | cons w items =>
          have htext : (spaced gap (.arr (w :: items))).toList =
              '[' :: ((spacedItems gap (w :: items)).toList ++ [']']) := by
            simp [spaced]
          have hread : readItems n ((spacedItems gap (w :: items)).toList ++ ']' :: rest) =
              some (w :: items, rest) := ih.items h (by
            rw [htext] at hn
            simp only [List.length_cons, List.length_append, List.length_nil] at hn
            omega)
          obtain ⟨c, cs, hhead, hblank, hc⟩ := @head_spacedItems gap _ items h.1
          rw [htext, List.cons_append, List.append_assoc, List.singleton_append]
          rw [hhead, List.cons_append] at hread ⊢
          rw [readValue_array hblank hc, hread]
          rfl
  | obj fields =>
      cases fields with
      | nil =>
          rw [spaced_obj_nil]
          rfl
      | cons f fields =>
          have htext : (spaced gap (.obj (f :: fields))).toList =
              '\x7b' :: ((spacedFields gap (f :: fields)).toList ++ ['\x7d']) := by
            simp [spaced]
          have hread : readFields n ((spacedFields gap (f :: fields)).toList ++ '\x7d' :: rest) =
              some (f :: fields, rest) := ih.fields h.1 (by
            rw [htext] at hn
            simp only [List.length_cons, List.length_append, List.length_nil] at hn
            omega)
          rw [htext, List.cons_append, List.append_assoc, List.singleton_append]
          rw [toList_spacedFields, List.cons_append] at hread ⊢
          show (readFields n _).map _ = _
          rw [hread, Option.map_some]
          show some (objectOf (f :: fields), rest) = _
          rw [objectOf_eq h.2]

theorem Reads.succ_items (hgap : ∀ c ∈ gap.toList, isBlank c = true) {n : ℕ} (ih : Reads gap n)
    {v : Json} {items : List Json} {rest : List Char} (h : PrintableItems (v :: items))
    (hn : (spacedItems gap (v :: items)).toList.length + 1 < n + 1) :
    readItems (n + 1) ((spacedItems gap (v :: items)).toList ++ ']' :: rest) =
      some (v :: items, rest) := by
  cases items with
  | nil =>
      have hv : readValue n ((spaced gap v).toList ++ ']' :: rest) = some (v, ']' :: rest) :=
        ih.value h.1 (by rw [spacedItems] at hn; omega) (closes_cons (by decide) rest)
      rw [spacedItems, readItems, hv]
      rfl
  | cons w items =>
      have htext : (spacedItems gap (v :: w :: items)).toList = (spaced gap v).toList ++
          ',' :: (gap.toList ++ (spacedItems gap (w :: items)).toList) := by
        rw [spacedItems_cons]
        simp [moreItems]
      rw [htext, List.length_append, List.length_cons, List.length_append] at hn
      have hitems : readItems n ((spacedItems gap (w :: items)).toList ++ ']' :: rest) =
          some (w :: items, rest) := ih.items h.2 (by omega)
      have hv := fun after => ih.value h.1 (by omega) (closes_cons (c := ',') (by decide) after)
      rw [htext, List.append_assoc, List.cons_append, List.append_assoc, readItems, hv]
      show (readItems n (gap.toList ++ _)).map _ = _
      rw [readItems_blanks hgap, hitems]
      rfl

theorem Reads.succ_fields (hgap : ∀ c ∈ gap.toList, isBlank c = true) {n : ℕ} (ih : Reads gap n)
    {f : String × Json} {fields : List (String × Json)} {rest : List Char}
    (h : PrintableFields (f :: fields))
    (hn : (spacedFields gap (f :: fields)).toList.length + 1 < n + 1) :
    readFields (n + 1) ((spacedFields gap (f :: fields)).toList ++ '\x7d' :: rest) =
      some (f :: fields, rest) := by
  obtain ⟨k, v⟩ := f
  have htext := @toList_spacedFields gap k v fields
  rw [htext] at hn ⊢
  simp only [List.length_cons, List.length_append] at hn
  cases fields with
  | nil =>
      have hv : readValue n ((spaced gap v).toList ++ '\x7d' :: rest) = some (v, '\x7d' :: rest) :=
        ih.value h.1 (by omega) (closes_cons (by decide) rest)
      have hshape := readFields_last k ((readValue_blanks hgap n _).trans hv)
      simpa [moreFields] using hshape
  | cons g fields =>
      have hfields : readFields n ((spacedFields gap (g :: fields)).toList ++ '\x7d' :: rest) =
          some (g :: fields, rest) := ih.fields h.2 (by
        simp only [moreFields, String.toList_append, List.length_append] at hn
        omega)
      have hv : ∀ after, readValue n ((spaced gap v).toList ++ ',' :: after) =
          some (v, ',' :: after) := fun after =>
        ih.value h.1 (by omega) (closes_cons (by decide) after)
      have hshape := readFields_next k ((readValue_blanks hgap n _).trans
        (hv (gap.toList ++ ((spacedFields gap (g :: fields)).toList ++ '\x7d' :: rest))))
      rw [readFields_blanks hgap, hfields] at hshape
      simpa [moreFields] using hshape

theorem reads (hgap : ∀ c ∈ gap.toList, isBlank c = true) (n : ℕ) : Reads gap n := by
  induction n with
  | zero =>
      refine ⟨fun _ hn => ?_, fun _ hn => ?_, fun _ hn => ?_⟩ <;> exact absurd hn (Nat.not_lt_zero _)
  | succ n ih => exact ⟨ih.succ_value, ih.succ_items hgap, ih.succ_fields hgap⟩

/-- A value reads back from its text, whatever blanks stand in the gaps. -/
theorem parse_spaced (hgap : ∀ c ∈ gap.toList, isBlank c = true) {v : Json} (hv : Printable v) :
    parse (spaced gap v) = some v := by
  have hread := (reads hgap ((spaced gap v).toList.length + 1)).value hv (Nat.lt_succ_self _)
    (show Closes [] from fun _ h => nomatch h)
  rw [List.append_nil] at hread
  rw [parse, hread]
  rfl

end

/-- A value reads back from its compact text. -/
theorem parse_render {v : Json} (hv : Printable v) : parse v.render = some v := by
  rw [← spaced_empty]
  exact parse_spaced (by simp) hv

end Strkd.Json
