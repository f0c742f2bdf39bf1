import Strkd.Lib.JsonPrint
import Strkd.Lib.Text
import Strkd.Wallet.ClassHash

/-!
# Python-style JSON

An ABI that is given as JSON is hashed as the text `json.dumps` of Python prints of it.  On values
with plain strings and 64-bit integers the wallet prints the same, on one line, and what it prints
reads back (`pythonJson_exact`).
-/

namespace Strkd.Wallet

open Json

/-! ## The formatter -/

/-- The hooks of a `serde_json` serializer, with what the compact form writes. -/
structure Formatter where
  beginArray : String := "["
  endArray : String := "]"
  beginArrayValue (first : Bool) : String := if first then "" else ","
  endArrayValue : String := ""
  beginObject : String := "\x7b"
  endObject : String := "\x7d"
  beginObjectKey (first : Bool) : String := if first then "" else ","
  endObjectKey : String := ""
  beginObjectValue : String := ":"
  endObjectValue : String := ""

def pythonJsonFormatter : Formatter where
  beginArrayValue first := if first then "" else ", "
  beginObjectKey first := if first then "" else ", "
  beginObjectValue := ": "

section

variable (F : Formatter)

mutual

/-- Serialize a value, calling the hooks as `serde_json` does. -/
def serialize : Json → String
  | .arr items => F.beginArray ++ serializeItems true items ++ F.endArray
  | .obj fields => F.beginObject ++ serializeFields true fields ++ F.endObject
  | .null => render .null
  | .bool b => render (.bool b)
  | .int n => render (.int n)
  | .float text => render (.float text)
  | .str s => render (.str s)

def serializeItems (first : Bool) : List Json → String
  | [] => ""
  | v :: rest =>
      F.beginArrayValue first ++ serialize v ++ F.endArrayValue ++ serializeItems false rest

def serializeFields (first : Bool) : List (String × Json) → String
  | [] => ""
  | (k, v) :: rest =>
      F.beginObjectKey first ++ quote k ++ F.endObjectKey ++ F.beginObjectValue ++ serialize v ++
        F.endObjectValue ++ serializeFields false rest

end

end

/-- The text of the items after the first. -/
def moreItems : List Json → String
  | [] => ""
  | v :: items => ", " ++ pythonItems (v :: items)

/-- The text of the fields after the first. -/
def moreFields : List (String × Json) → String
  | [] => ""
  | f :: fields => ", " ++ pythonFields (f :: fields)

theorem pythonItems_cons (v : Json) (items : List Json) :
    pythonItems (v :: items) = pythonJson v ++ moreItems items := by
  cases items with
  | nil => simp [pythonItems, moreItems]
  | cons w items => simp [pythonItems, moreItems, String.append_assoc]

theorem pythonFields_cons (k : String) (v : Json) (fields : List (String × Json)) :
    pythonFields ((k, v) :: fields) = quote k ++ ": " ++ pythonJson v ++ moreFields fields := by
  cases fields with
  | nil => simp [pythonFields, moreFields]
  | cons f fields => simp [pythonFields, moreFields, String.append_assoc]

mutual

/-- The overridden hooks give the text of `pythonJson`. -/
theorem serialize_pythonJsonFormatter : ∀ v : Json, serialize pythonJsonFormatter v = pythonJson v
  | .null => rfl
  | .bool _ => rfl
  | .int _ => rfl
  | .float _ => rfl
  | .str _ => rfl
  | .arr [] => rfl
  | .arr (v :: items) => by
      rw [serialize, serializeItems, pythonJson, pythonItems_cons, serialize_pythonJsonFormatter v,
        serializeItems_false items]
      simp [pythonJsonFormatter]
  | .obj [] => rfl
  | .obj ((k, v) :: fields) => by
      rw [serialize, serializeFields, pythonJson, pythonFields_cons,
        serialize_pythonJsonFormatter v, serializeFields_false fields]
      simp [pythonJsonFormatter]

theorem serializeItems_false : ∀ items : List Json,
    serializeItems pythonJsonFormatter false items = moreItems items
  | [] => rfl
  | v :: items => by
      rw [serializeItems, moreItems, pythonItems_cons, serialize_pythonJsonFormatter v,
        serializeItems_false items]
      simp [pythonJsonFormatter, String.append_assoc]

theorem serializeFields_false : ∀ fields : List (String × Json),
    serializeFields pythonJsonFormatter false fields = moreFields fields
  | [] => rfl
  | (k, v) :: fields => by
      rw [serializeFields, moreFields, pythonFields_cons, serialize_pythonJsonFormatter v,
        serializeFields_false fields]
      simp [pythonJsonFormatter, String.append_assoc]

end

/-! ## `json.dumps` -/

/-- `\uXXXX` -/
def unicodeEscape (n : ℕ) : List Char :=
  ['\\', 'u', Nat.digitChar (n / 4096 % 16), Nat.digitChar (n / 256 % 16),
    Nat.digitChar (n / 16 % 16), Nat.digitChar (n % 16)]

/-- One character as Python escapes it, with `ensure_ascii`. -/
def dumpsChar (c : Char) : List Char :=
  if c = '\\' then ['\\', '\\']
  else if c = '"' then ['\\', '"']
  else if c.toNat = 8 then ['\\', 'b']
  else if c.toNat = 12 then ['\\', 'f']
  else if c = '\n' then ['\\', 'n']
  else if c = '\r' then ['\\', 'r']
  else if c = '\t' then ['\\', 't']
  else if 32 ≤ c.toNat ∧ c.toNat < 127 then [c]
  else if c.toNat < 0x10000 then unicodeEscape c.toNat
  else unicodeEscape (0xD800 + (c.toNat - 0x10000) / 0x400) ++
    unicodeEscape (0xDC00 + (c.toNat - 0x10000) % 0x400)

def dumpsStr (s : String) : String :=
  "\"" ++ String.ofList (s.toList.flatMap dumpsChar) ++ "\""

mutual

/-- `json.dumps(v)` -/
def dumps : Json → String
  | .null => "null"
  | .bool b => if b then "true" else "false"
  | .int n => toString n
  | .float text => text
  | .str s => dumpsStr s
  | .arr items => "[" ++ ", ".intercalate (dumpsItems items) ++ "]"
  | .obj fields => "\x7b" ++ ", ".intercalate (dumpsFields fields) ++ "\x7d"

def dumpsItems : List Json → List String
  | [] => []
  | v :: rest => dumps v :: dumpsItems rest

def dumpsFields : List (String × Json) → List String
  | [] => []
  | (k, v) :: rest => (dumpsStr k ++ ": " ++ dumps v) :: dumpsFields rest

end

/-! ## Plain values -/

/-- Printable ASCII and control characters. -/
def PlainText (s : String) : Prop := ∀ c ∈ s.toList, c.toNat < 127

mutual

/-- Plain strings, 64-bit integers, and objects with distinct keys. -/
def PlainJson : Json → Prop
  | .null => True
  | .bool _ => True
  | .int n => -2 ^ 63 ≤ n ∧ n < 2 ^ 64
  | .float _ => False
  | .str s => PlainText s
  | .arr items => PlainItems items
  | .obj fields => PlainFields fields ∧ (fields.map Prod.fst).Nodup

def PlainItems : List Json → Prop
  | [] => True
  | v :: rest => PlainJson v ∧ PlainItems rest

def PlainFields : List (String × Json) → Prop
  | [] => True
  | (k, v) :: rest => PlainText k ∧ PlainJson v ∧ PlainFields rest

end

/-! ## The same text as Python -/

theorem escapeChar_eq_dumpsChar {c : Char} (hc : c.toNat < 127) : escapeChar c = dumpsChar c := by
  have hall : ∀ n < 127, escapeChar (Char.ofNat n) = dumpsChar (Char.ofNat n) := by decide +kernel
  have h := hall c.toNat hc
  rwa [Char.ofNat_toNat] at h

theorem quote_eq_dumpsStr {s : String} (hs : PlainText s) : quote s = dumpsStr s := by
  have hmap : s.toList.flatMap escapeChar = s.toList.flatMap dumpsChar :=
    List.flatMap_congr fun c hc => escapeChar_eq_dumpsChar (hs c hc)
  rw [quote, dumpsStr, hmap]

mutual

theorem pythonJson_eq_dumps : ∀ {v : Json}, PlainJson v → pythonJson v = dumps v
  | .null, _ => rfl
  | .bool _, _ => rfl
  | .int _, _ => rfl
  | .str s, h => quote_eq_dumpsStr h
  | .arr items, h => by
      rw [pythonJson, dumps, pythonItems_eq_dumps h]
  | .obj fields, h => by
      rw [pythonJson, dumps, pythonFields_eq_dumps h.1]

theorem pythonItems_eq_dumps : ∀ {items : List Json}, PlainItems items →
    pythonItems items = ", ".intercalate (dumpsItems items)
  | [], _ => rfl
  | [v], h => by
      rw [pythonItems, pythonJson_eq_dumps h.1]
      simp [dumpsItems]
  | v :: w :: rest, h => by
      rw [pythonItems, pythonJson_eq_dumps h.1, pythonItems_eq_dumps h.2]
      simp [dumpsItems, String.append_assoc]

theorem pythonFields_eq_dumps : ∀ {fields : List (String × Json)}, PlainFields fields →
    pythonFields fields = ", ".intercalate (dumpsFields fields)
  | [], _ => rfl
  | [(k, v)], h => by
      rw [pythonFields, quote_eq_dumpsStr h.1, pythonJson_eq_dumps h.2.1]
      simp [dumpsFields]
  | (k, v) :: f :: rest, h => by
      rw [pythonFields, quote_eq_dumpsStr h.1, pythonJson_eq_dumps h.2.1,
        pythonFields_eq_dumps h.2.2]
      simp [dumpsFields, String.append_assoc]

end

/-! ## On one line -/

theorem notMem_escapeChar (c : Char) : '\n' ∉ escapeChar c := by
  have hdigit : ∀ d < 16, Nat.digitChar d ≠ '\n' := by decide
  unfold escapeChar
  split_ifs with h₁ h₂ h₃ h₄ h₅ h₆ h₇ h₈
  · decide
  · decide
  · decide
  · decide
  · decide
  · decide
  · decide
  · have hhi := hdigit (c.toNat / 16) (by omega)
    have hlo := hdigit (c.toNat % 16) (by omega)
    simp [hhi.symm, hlo.symm]
  · simp [Ne.symm h₃]

theorem notMem_quote (s : String) : '\n' ∉ (quote s).toList := by
  have hbody : '\n' ∉ s.toList.flatMap escapeChar := by
    intro h
    obtain ⟨c, -, hc⟩ := List.mem_flatMap.1 h
    exact notMem_escapeChar c hc
  simp [quote, hbody]

mutual

theorem notMem_pythonJson : ∀ {v : Json}, PlainJson v → '\n' ∉ (pythonJson v).toList
  | .null, _ => by simp [pythonJson, render]
  | .bool b, _ => by cases b <;> simp [pythonJson, render]
  | .int n, _ => by
      cases n with
      | ofNat m => exact notMem_toString rfl
      | negSucc m =>
          show '\n' ∉ ("-" ++ toString (m + 1)).toList
          exact notMem_append (by decide) (notMem_toString rfl)
  | .str s, _ => notMem_quote s
  | .arr items, h => by
      have := notMem_pythonItems h
      simp [pythonJson, this]
  | .obj fields, h => by
      have := notMem_pythonFields h.1
      simp [pythonJson, this]

theorem notMem_pythonItems : ∀ {items : List Json}, PlainItems items →
    '\n' ∉ (pythonItems items).toList
  | [], _ => by simp [pythonItems]
  | [v], h => notMem_pythonJson h.1
  | v :: w :: rest, h => by
      have hv := notMem_pythonJson h.1
      have hrest := notMem_pythonItems h.2
      simp [pythonItems, hv, hrest]

theorem notMem_pythonFields : ∀ {fields : List (String × Json)}, PlainFields fields →
    '\n' ∉ (pythonFields fields).toList
  | [], _ => by simp [pythonFields]
  | [(k, v)], h => by
      have hk := notMem_quote k
      have hv := notMem_pythonJson h.2.1
      simp [pythonFields, hk, hv]
  | (k, v) :: f :: rest, h => by
      have hk := notMem_quote k
      have hv := notMem_pythonJson h.2.1
      have hrest := notMem_pythonFields h.2.2
      simp [pythonFields, hk, hv, hrest]

end

/-! ## Reading it back -/

mutual

/-- The text of `pythonJson` has a blank in every gap. -/
theorem spaced_blank : ∀ v : Json, spaced " " v = pythonJson v
  | .null => rfl
  | .bool _ => rfl
  | .int _ => rfl
  | .float _ => rfl
  | .str _ => rfl
  | .arr items => by rw [spaced, pythonJson, spacedItems_blank items]
  | .obj fields => by rw [spaced, pythonJson, spacedFields_blank fields]

theorem spacedItems_blank : ∀ items : List Json, spacedItems " " items = pythonItems items
  | [] => rfl
  | [v] => spaced_blank v
  | v :: w :: rest => by
      rw [spacedItems, pythonItems, spaced_blank v, spacedItems_blank (w :: rest)]
      simp [← String.toList_inj]

theorem spacedFields_blank : ∀ fields : List (String × Json),
    spacedFields " " fields = pythonFields fields
  | [] => rfl
  | [(k, v)] => by
      rw [spacedFields, pythonFields, spaced_blank v]
      simp [← String.toList_inj]
  | (k, v) :: f :: rest => by
      rw [spacedFields, pythonFields, spaced_blank v, spacedFields_blank (f :: rest)]
      simp [← String.toList_inj]

end

mutual

theorem PlainJson.printable : ∀ {v : Json}, PlainJson v → Printable v
  | .null, _ => trivial
  | .bool _, _ => trivial
  | .int _, h => h
  | .str _, _ => trivial
  | .arr _, h => PlainItems.printable h
  | .obj _, h => ⟨PlainFields.printable h.1, h.2⟩

theorem PlainItems.printable : ∀ {items : List Json}, PlainItems items → PrintableItems items
  | [], _ => trivial
  | _ :: _, h => ⟨h.1.printable, PlainItems.printable h.2⟩

theorem PlainFields.printable : ∀ {fields : List (String × Json)}, PlainFields fields →
    PrintableFields fields
  | [], _ => trivial
  | _ :: _, h => ⟨h.2.1.printable, PlainFields.printable h.2.2⟩

end

/-- Printed text is JSON text of the value. -/
theorem parse_pythonJson {v : Json} (hv : PlainJson v) : parse (pythonJson v) = some v := by
  rw [← spaced_blank]
  exact parse_spaced (by simp [isBlank]) hv.printable

/-! ## An ABI and its text -/

/-- Parsing a class looks at the ABI only for its text. -/
theorem SierraClass.fromJson_congr {K : Crates} {o o' : Json} (hobj : o.isObject = o'.isObject)
    (habi : abiOf o = abiOf o') (hrest : ∀ key ≠ "abi", o.get? key = o'.get? key) :
    fromJson K o = fromJson K o' := by
  have hprogram : sierraProgramOf K o = sierraProgramOf K o' := by
    rw [sierraProgramOf, sierraProgramOf, hrest _ (by decide)]
  have hversion : versionOf o = versionOf o' := by
    rw [versionOf, versionOf, hrest _ (by decide)]
  have hentries : entryPointsOf K o = entryPointsOf K o' := by
    rw [entryPointsOf, entryPointsOf, hrest _ (by decide)]
  simp only [fromJson, hobj, habi, hprogram, hversion, hentries]

/-- An array of the ABI may be replaced by its text. -/
theorem fromJson_abi_text (K : Crates) (fields : List (String × Json)) {items : List Json}
    (h : (Json.obj fields).get? "abi" = some (.arr items)) :
    SierraClass.fromJson K (.obj (insertField fields "abi" (.str (pythonJson (.arr items))))) =
      SierraClass.fromJson K (.obj fields) := by
  have hnew : (Json.obj (insertField fields "abi" (.str (pythonJson (.arr items))))).get? "abi" =
      some (.str (pythonJson (.arr items))) := by
    rw [get?, lookup_insertField, if_pos rfl]
  refine SierraClass.fromJson_congr rfl ?_ fun key hkey => ?_
  · rw [abiOf, hnew, abiOf, h]
  · rw [get?, lookup_insertField, if_neg hkey, get?]

/-- Printing an ABI is `json.dumps`: one line, which reads back, and may stand for the ABI. -/
theorem pythonJson_exact {v : Json} (hv : PlainJson v) :
    serialize pythonJsonFormatter v = pythonJson v ∧ pythonJson v = dumps v ∧
      '\n' ∉ (pythonJson v).toList ∧ parse (pythonJson v) = some v ∧
      ∀ (K : Crates) (fields : List (String × Json)) (items : List Json), v = .arr items →
        (Json.obj fields).get? "abi" = some v →
          SierraClass.fromJson K (.obj (insertField fields "abi" (.str (dumps v)))) =
            SierraClass.fromJson K (.obj fields) := by
  refine ⟨serialize_pythonJsonFormatter v, pythonJson_eq_dumps hv, notMem_pythonJson hv,
    parse_pythonJson hv, ?_⟩
  rintro K fields items rfl habi
  rw [← pythonJson_eq_dumps hv]
  exact fromJson_abi_text K fields habi

/-- An entry of an ABI, with an escape, an empty container and a negative number. -/
def sampleAbi : Json := .arr [.obj [
  ("type", .str "impl"), ("inputs", .arr []), ("note", .str "a\t\"b\""), ("index", .int (-1))]]

theorem pythonJson_exact_sample :
    pythonJson sampleAbi =
        "[\x7b\"type\": \"impl\", \"inputs\": [], \"note\": \"a\\t\\\"b\\\"\", \"index\": -1\x7d]" ∧
      pythonJson sampleAbi = dumps sampleAbi ∧
      parse (pythonJson sampleAbi) = some sampleAbi := by
  have hplain : PlainJson sampleAbi := by
    simp [sampleAbi, PlainJson, PlainItems, PlainFields, PlainText]
  have h := pythonJson_exact hplain
  exact ⟨by decide, h.2.1, h.2.2.2.1⟩

end Strkd.Wallet
