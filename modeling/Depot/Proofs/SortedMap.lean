import Depot.SortedMap
import Mathlib.Algebra.Ring.Int.Defs
/-!
# Entries and sums of a map

The entries of a map are what its look-ups find (`mem_toList_iff`), and a sum over the entries
changes with an update by the entry put in less the entry taken out (`sum_insert`, `sum_erase`).
-/

namespace Depot.SortedMap

variable {κ ν : Type} [Ord κ] [Std.LawfulEqOrd κ]

/-! ## Entries -/

theorem compare_eq_iff {k k' : κ} : compare k k' = .eq ↔ k = k' :=
  Std.LawfulEqCmp.compare_eq_iff_eq

theorem findEntry_eq_some_iff {k : κ} {v : ν} {l : List (κ × ν)}
    (hl : l.Pairwise fun a b => compare a.1 b.1 = .lt) : findEntry k l = some v ↔ (k, v) ∈ l := by
  induction l with
  | nil => simp [findEntry]
  | cons e rest ih =>
    obtain ⟨he, hrest⟩ := List.pairwise_cons.mp hl
    rw [findEntry]
    split
    · rename_i hk
      have hk : k = e.1 := compare_eq_iff.mp hk
      subst hk
      constructor
      · intro h
        cases h
        exact List.mem_cons_self
      · intro h
        rcases List.mem_cons.mp h with h | h
        · rw [← h]
        · have hself := he _ h
          rw [compare_eq_iff.mpr rfl] at hself
          cases hself
    · rename_i hk
      rw [ih hrest, List.mem_cons]
      constructor
      · exact .inr
      · rintro (h | h)
        · subst h
          exact absurd (compare_eq_iff.mpr rfl) hk
        · exact h

/-- The entries of a map are what its look-ups find. -/
theorem mem_toList_iff {m : SortedMap κ ν} {k : κ} {v : ν} :
    (k, v) ∈ m.toList ↔ m.get? k = some v :=
  (findEntry_eq_some_iff m.increasing).symm

/-- No key stands in a map twice. -/
theorem nodup_keys (m : SortedMap κ ν) : (m.toList.map Prod.fst).Nodup := by
  rw [List.Nodup, List.pairwise_map]
  refine m.increasing.imp fun {a b} hlt heq => ?_
  rw [heq, compare_eq_iff.mpr rfl] at hlt
  cases hlt

/-! ## Look-ups after an update -/

variable [Std.TransOrd κ]

theorem get?_insert_self (m : SortedMap κ ν) (k : κ) (v : ν) : (m.insert k v).get? k = some v := by
  rw [get?_insert, if_pos (compare_eq_iff.mpr rfl)]

theorem get?_insert_ne (m : SortedMap κ ν) {k k' : κ} (h : k' ≠ k) (v : ν) :
    (m.insert k v).get? k' = m.get? k' := by
  rw [get?_insert, if_neg (fun hc => h (compare_eq_iff.mp hc))]

theorem get?_erase_self (m : SortedMap κ ν) (k : κ) : (m.erase k).get? k = none := by
  rw [get?_erase, if_pos (compare_eq_iff.mpr rfl)]

theorem get?_erase_ne (m : SortedMap κ ν) {k k' : κ} (h : k' ≠ k) :
    (m.erase k).get? k' = m.get? k' := by
  rw [get?_erase, if_neg (fun hc => h (compare_eq_iff.mp hc))]

/-! ## Sums -/

/-- The sum of a number over all entries. -/
def sum (f : κ × ν → Int) (m : SortedMap κ ν) : Int := (m.toList.map f).sum

/-- What the entry at a key adds to a sum; nothing if there is none. -/
def part (f : κ × ν → Int) (k : κ) (v : Option ν) : Int :=
  match v with
  | some v => f (k, v)
  | none => 0

theorem sum_insertEntry (f : κ × ν → Int) (k : κ) (v : ν) {l : List (κ × ν)}
    (hl : l.Pairwise fun a b => compare a.1 b.1 = .lt) :
    ((insertEntry k v l).map f).sum = (l.map f).sum + f (k, v) - part f k (findEntry k l) := by
  induction l with
  | nil => simp [insertEntry, findEntry, part]
  | cons e rest ih =>
    obtain ⟨a, w⟩ := e
    obtain ⟨he, hrest⟩ := List.pairwise_cons.mp hl
    rw [insertEntry]
    split
    · rename_i hk
      have hnone : findEntry k ((a, w) :: rest) = none := findEntry_eq_none fun e he' => by
        rcases List.mem_cons.mp he' with rfl | he'
        · exact hk
        · exact Std.TransCmp.lt_trans hk (he e he')
      simp only [hnone, part, List.map_cons, List.sum_cons]
      omega
    · rename_i hk
      have hsome : findEntry k ((a, w) :: rest) = some w := by rw [findEntry, if_pos hk]
      have hk : k = a := compare_eq_iff.mp hk
      subst hk
      simp only [hsome, part, List.map_cons, List.sum_cons]
      omega
    · rename_i hk
      have hne : compare k a ≠ .eq := by
        rw [hk]
        decide
      have hfind : findEntry k ((a, w) :: rest) = findEntry k rest := by rw [findEntry, if_neg hne]
      simp only [hfind, List.map_cons, List.sum_cons, ih hrest]
      omega

/-- Setting a value adds the entry put in and takes away the entry it replaces. -/
theorem sum_insert (f : κ × ν → Int) (m : SortedMap κ ν) (k : κ) (v : ν) :
    (m.insert k v).sum f = m.sum f + f (k, v) - part f k (m.get? k) :=
  sum_insertEntry f k v m.increasing

omit [Std.TransOrd κ] in
theorem sum_eraseEntry (f : κ × ν → Int) (k : κ) {l : List (κ × ν)}
    (hl : l.Pairwise fun a b => compare a.1 b.1 = .lt) :
    ((eraseEntry k l).map f).sum = (l.map f).sum - part f k (findEntry k l) := by
  induction l with
  | nil => simp [eraseEntry, findEntry, part]
  | cons e rest ih =>
    obtain ⟨a, w⟩ := e
    obtain ⟨he, hrest⟩ := List.pairwise_cons.mp hl
    have ih := ih hrest
    unfold eraseEntry at ih ⊢
    rw [List.filter_cons]
    by_cases hk : compare k a = .eq
    · have hsome : findEntry k ((a, w) :: rest) = some w := by rw [findEntry, if_pos hk]
      have hk' : k = a := compare_eq_iff.mp hk
      subst hk'
      have hnone : findEntry k rest = none := findEntry_eq_none he
      rw [hnone] at ih
      rw [if_neg (by simp), hsome, ih]
      simp only [part, List.map_cons, List.sum_cons]
      omega
    · have hfind : findEntry k ((a, w) :: rest) = findEntry k rest := by rw [findEntry, if_neg hk]
      rw [if_pos (by simpa using hk), hfind]
      simp only [List.map_cons, List.sum_cons, ih]
      omega

omit [Std.TransOrd κ] in
/-- Erasing a key takes away the entry it had. -/
theorem sum_erase (f : κ × ν → Int) (m : SortedMap κ ν) (k : κ) :
    (m.erase k).sum f = m.sum f - part f k (m.get? k) :=
  sum_eraseEntry f k m.increasing

end Depot.SortedMap
