import Strkd.Lib.Redaction
import Strkd.Lib.Text
import Strkd.Rpc.Prompts
import Strkd.Rpc.Strk20

/-!
# Scrubbing the viewing key

The three spellings of a viewing key are replaced by a marker one after the other.  No spelling is
left or made anew, and all other text stays (`scrub_exact`).
-/

namespace Strkd.Rpc.Strk20

/-- What stands for a viewing key in text that leaves the handler. -/
def keyMarker : List Char := ['<', 'v', 'i', 'e', 'w', 'i', 'n', 'g', ' ', 'k', 'e', 'y', '>']

/-- The spellings of a viewing key, in the order they are looked for. -/
def spellings (userSk : Felt) : List (List Char) :=
  [(addressHex userSk).toList, (feltHex userSk).toList, (feltDecimal userSk).toList]

theorem toList_replaceAll (text pat new : String) :
    (replaceAll text pat new).toList = replaceFrom pat.toList new.toList 0 text.toList := by
  rw [replaceAll, String.toList_ofList]

theorem toList_scrub (text : String) (userSk : Felt) :
    (scrub text userSk).toList = redact keyMarker (spellings userSk) text.toList := by
  have hmarker : "<viewing key>".toList = keyMarker := by simp [keyMarker]
  simp only [scrub, toList_replaceAll, hmarker]
  rfl

theorem notMem_keyMarker {c : Char} (hc : c.isDigit = true) : c ∉ keyMarker := by
  have hall : ∀ c ∈ keyMarker, c.isDigit = false := by simp [keyMarker]
  intro h
  rw [hall c h] at hc
  exact absurd hc (by decide)

/-- A text that starts with a digit and has letters and digits only. -/
theorem apart_keyMarker {a : Char} {as : List Char} (ha : a.isDigit = true)
    (hlt : '<' ∉ a :: as) : Apart (a :: as) keyMarker where
  starts := ⟨a, as, rfl, notMem_keyMarker ha⟩
  ends := ⟨'<', _, rfl, hlt⟩

theorem apart_spellings (userSk : Felt) : ∀ s ∈ spellings userSk, Apart s keyMarker := by
  have hlt : Char.isAlphanum '<' = false := rfl
  have hpadded : '<' ∉ (addressHex userSk).toList := notMem_addressHex hlt userSk
  have hhex : '<' ∉ (feltHex userSk).toList := notMem_feltHex hlt userSk
  have hdecimal : '<' ∉ (feltDecimal userSk).toList := notMem_toString hlt
  rw [spellings, List.forall_mem_cons, List.forall_mem_cons, List.forall_mem_singleton]
  refine ⟨?_, ?_, ?_⟩
  · rw [addressHex, String.toList_append] at hpadded ⊢
    exact apart_keyMarker rfl hpadded
  · rw [feltHex, String.toList_append] at hhex ⊢
    exact apart_keyMarker rfl hhex
  · have hdigits : (feltDecimal userSk).toList = Nat.toDigits 10 userSk.val := Nat.toList_repr
    rw [hdigits] at hdecimal ⊢
    cases hd : Nat.toDigits 10 userSk.val with
    | nil => exact absurd hd Nat.toDigits_ne_nil
    | cons a as =>
        rw [hd] at hdecimal
        refine apart_keyMarker ?_ hdecimal
        exact Nat.isDigit_of_mem_toDigits (by decide) (by decide) (hd ▸ List.mem_cons_self)

/-- A scrubbed text is the text with occurrences of the key's spellings made markers and all else
kept, and no spelling occurs in it. -/
theorem scrub_exact (text : String) (userSk : Felt) :
    (∃ ts, Redacts (spellings userSk) text.toList ts ∧
      (scrub text userSk).toList = unmark keyMarker ts) ∧
    ¬ (feltHex userSk).toList <:+: (scrub text userSk).toList ∧
    ¬ (addressHex userSk).toList <:+: (scrub text userSk).toList ∧
    ¬ (feltDecimal userSk).toList <:+: (scrub text userSk).toList := by
  obtain ⟨ts, hts, hrender, hgone⟩ := exists_redacts (apart_spellings userSk) text.toList
  rw [toList_scrub]
  refine ⟨⟨ts, hts, hrender⟩, hgone _ ?_, hgone _ ?_, hgone _ ?_⟩
  · exact List.mem_cons_of_mem _ List.mem_cons_self
  · exact List.mem_cons_self
  · exact List.mem_cons_of_mem _ (List.mem_cons_of_mem _ List.mem_cons_self)

end Strkd.Rpc.Strk20
