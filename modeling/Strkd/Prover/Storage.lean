import Strkd.Lib.Text
import Strkd.Rpc.Ops

/-!
# Proof storage

One file per proving job, named by the job's id.  The counter of job ids is seeded from the names of
the files found when the prover starts, so that new jobs get new files.
-/

namespace Strkd.Prover

open Rpc

/-- The storage directory: the files by name.  A file that is no proof record has no contents. -/
abbrev Dir := List (String × Option ProofRecord)

namespace Dir

def names (d : Dir) : List String := d.map Prod.fst

/-- The directory after a file was written, in full or in part. -/
def write (d : Dir) (name : String) (contents : Option ProofRecord) : Dir :=
  (name, contents) :: d.filter fun f => f.1 ≠ name

def remove (d : Dir) (name : String) : Dir := d.filter fun f => f.1 ≠ name

theorem mem_names_write {d : Dir} {name name' : String} {contents : Option ProofRecord} :
    name' ∈ (d.write name contents).names ↔ name' = name ∨ name' ∈ d.names := by
  simp only [names, write, List.map_cons, List.mem_cons, List.mem_map, List.mem_filter,
    decide_eq_true_eq]
  constructor
  · rintro (h | ⟨f, ⟨hf, -⟩, rfl⟩)
    · exact Or.inl h
    · exact Or.inr ⟨f, hf, rfl⟩
  · rintro (h | ⟨f, hf, rfl⟩)
    · exact Or.inl h
    · by_cases hname : f.1 = name
      · exact Or.inl hname
      · exact Or.inr ⟨f, ⟨hf, hname⟩, rfl⟩

theorem mem_names_of_remove {d : Dir} {name name' : String} (h : name' ∈ (d.remove name).names) :
    name' ∈ d.names := by
  obtain ⟨f, hf, rfl⟩ := List.mem_map.1 h
  exact List.mem_map.2 ⟨f, (List.mem_filter.1 hf).1, rfl⟩

end Dir

/-! ## File names -/

/-- The file of a job's record. -/
def fileName (jobId : String) : String := jobId ++ ".json"

/-- The number in the name of a record, as `max_seq` reads it. -/
def fileNumber (name : String) : Option U64 := do
  let stem ← stripSuffix ".json" name
  let digits ← stripPrefix "p" stem
  let n ← parseRadix 10 (2 ^ 64) digits
  return .ofNat 64 n

/-- The largest record number among the names found. -/
def maxSeq (found : List String) : Option U64 :=
  ((found.filterMap fileNumber).map BitVec.toNat).max?.map (BitVec.ofNat 64)

/-- Where the counter of job ids starts, `m + 1` in wrapping arithmetic. -/
def nextSeq (found : List String) : U64 :=
  match maxSeq found with
  | some m => m + 1
  | none => 0

theorem fileName_injective : Function.Injective fileName := by
  intro x y h
  have := congrArg String.toList h
  simp only [fileName, String.toList_append, List.append_left_inj] at this
  exact String.toList_inj.1 this

theorem jobIdOf_inj {m n : U64} (h : jobIdOf m = jobIdOf n) : m = n := by
  have := congrArg String.toList h
  simp only [jobIdOf, String.toList_append, List.append_right_inj] at this
  exact BitVec.eq_of_toNat_eq (toString_injective (String.toList_inj.1 this))

theorem fileNumber_fileName (n : U64) : fileNumber (fileName (jobIdOf n)) = some n := by
  have hdigits : parseRadix 10 (2 ^ 64) (toString n.toNat) = some n.toNat :=
    parseRadix_toString n.isLt
  simp only [fileNumber, fileName, jobIdOf, stripSuffix_append, stripPrefix_append, hdigits,
    Option.bind_eq_bind, Option.bind_some, Option.pure_def, BitVec.ofNat_toNat, BitVec.setWidth_eq]

theorem le_maxSeq {found : List String} {name : String} (h : name ∈ found) {n : U64}
    (hn : fileNumber name = some n) : ∃ m, maxSeq found = some m ∧ n.toNat ≤ m.toNat := by
  have hmem : n.toNat ∈ (found.filterMap fileNumber).map BitVec.toNat :=
    List.mem_map_of_mem (List.mem_filterMap.2 ⟨name, h, hn⟩)
  cases hmax : ((found.filterMap fileNumber).map BitVec.toNat).max? with
  | none => rw [List.max?_eq_none_iff.1 hmax] at hmem; cases hmem
  | some m =>
      obtain ⟨hm, hle⟩ := List.max?_eq_some_iff.1 hmax
      obtain ⟨k, -, rfl⟩ := List.mem_map.1 hm
      refine ⟨k, ?_, hle _ hmem⟩
      rw [maxSeq, hmax, Option.map_some, BitVec.ofNat_toNat, BitVec.setWidth_eq]

/-- The counter starts past every record found, if it does not wrap around. -/
theorem lt_nextSeq {found : List String} (hroom : maxSeq found ≠ some (.ofNat 64 (2 ^ 64 - 1)))
    {n : U64} (h : fileName (jobIdOf n) ∈ found) : n.toNat < (nextSeq found).toNat := by
  obtain ⟨m, hm, hle⟩ := le_maxSeq h (fileNumber_fileName n)
  have hne : m.toNat ≠ 2 ^ 64 - 1 := by
    intro heq
    apply hroom
    rw [hm]
    exact congrArg some (BitVec.eq_of_toNat_eq heq)
  have hlt := m.isLt
  rw [nextSeq, hm]
  show n.toNat < (m + 1).toNat
  rw [BitVec.toNat_add]
  show n.toNat < (m.toNat + 1) % 2 ^ 64
  omega

end Strkd.Prover
