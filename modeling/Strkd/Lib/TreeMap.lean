import Mathlib

/-!
# Ordered maps over a linear order

`Std.ExtTreeMap` with the comparison of a linear order, as a map from keys to values: lookups after
an update by equality of keys, and the list of entries as a list without repeated keys.
-/

namespace Strkd.TreeMap

open Std (ExtTreeMap)

variable {K V : Type} [LinearOrder K]

theorem getElem?_insert (m : ExtTreeMap K V) (k a : K) (v : V) :
    (m.insert k v)[a]? = if k = a then some v else m[a]? := by
  simp [ExtTreeMap.getElem?_insert]

theorem getElem?_alter (m : ExtTreeMap K V) (k a : K) (f : Option V → Option V) :
    (m.alter k f)[a]? = if k = a then f m[k]? else m[a]? := by
  simp [ExtTreeMap.getElem?_alter]

theorem getElem?_empty (a : K) : (∅ : ExtTreeMap K V)[a]? = none := by simp

theorem mem_toList {m : ExtTreeMap K V} {k : K} {v : V} : (k, v) ∈ m.toList ↔ m[k]? = some v :=
  ExtTreeMap.mem_toList_iff_getElem?_eq_some

/-- The keys of the entries, in order, do not repeat. -/
theorem nodup_keys (m : ExtTreeMap K V) : (m.toList.map Prod.fst).Nodup := by
  rw [List.Nodup, List.pairwise_map]
  exact m.distinct_keys_toList.imp fun h e => h (Std.compare_eq_iff_eq.2 e)

theorem mem_keys_iff {m : ExtTreeMap K V} {k : K} :
    k ∈ m.toList.map Prod.fst ↔ (m[k]?).isSome := by
  rw [Option.isSome_iff_exists, List.mem_map]
  constructor
  · rintro ⟨⟨k', v⟩, h, rfl⟩
    exact ⟨v, mem_toList.1 h⟩
  · rintro ⟨v, h⟩
    exact ⟨(k, v), mem_toList.2 h, rfl⟩

theorem size_insert_of_none {m : ExtTreeMap K V} {k : K} {v : V} (h : m[k]? = none) :
    (m.insert k v).size = m.size + 1 := by
  rw [ExtTreeMap.size_insert, if_neg]
  rw [ExtTreeMap.contains_eq_isSome_getElem?, h]
  simp

theorem size_insert_of_some {m : ExtTreeMap K V} {k : K} {v w : V} (h : m[k]? = some w) :
    (m.insert k v).size = m.size := by
  rw [ExtTreeMap.size_insert, if_pos]
  rw [ExtTreeMap.contains_eq_isSome_getElem?, h]
  rfl

end Strkd.TreeMap
