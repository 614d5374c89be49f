/-!
# Finite maps in key order

A `SortedMap` is a finite map kept as the list of its entries with strictly increasing keys, so
two maps with the same entries are equal as values, and a listing of the map is in key order.
The tables of the database and the net movements of a batch are such maps.

Main statements: `get?_insert` and `get?_erase` say what an update does to every key, and
`ext_get?` that the look-ups determine the map.
-/

namespace Depot

/-- A finite map from `κ` to `ν`, in increasing order of keys. -/
structure SortedMap (κ ν : Type) [Ord κ] where
  /-- The entries, in increasing order of keys. -/
  toList : List (κ × ν)
  increasing : toList.Pairwise fun a b => compare a.1 b.1 = .lt

namespace SortedMap

variable {κ ν : Type} [Ord κ]

/-! ## Operations on lists of entries -/

/-- Put an entry at its place, replacing the entry with the same key. -/
def insertEntry (k : κ) (v : ν) : List (κ × ν) → List (κ × ν)
  | [] => [(k, v)]
  | e :: rest =>
    match compare k e.1 with
    | .lt => (k, v) :: e :: rest
    | .eq => (k, v) :: rest
    | .gt => e :: insertEntry k v rest

/-- Leave out the entries with key `k`. -/
def eraseEntry (k : κ) (l : List (κ × ν)) : List (κ × ν) :=
  l.filter fun e => compare k e.1 != .eq

/-- The value of the first entry with key `k`. -/
def findEntry (k : κ) : List (κ × ν) → Option ν
  | [] => none
  | e :: rest => if compare k e.1 = .eq then some e.2 else findEntry k rest

theorem mem_insertEntry {k : κ} {v : ν} {e : κ × ν} {l : List (κ × ν)}
    (h : e ∈ insertEntry k v l) : e = (k, v) ∨ e ∈ l := by
  induction l with
  | nil => simpa [insertEntry] using h
  | cons a rest ih =>
    simp only [insertEntry] at h
    split at h
    · simpa using h
    · rcases List.mem_cons.mp h with h | h
      · exact .inl h
      · exact .inr (List.mem_cons_of_mem _ h)
    · rcases List.mem_cons.mp h with h | h
      · exact .inr (h ▸ List.mem_cons_self)
      · exact (ih h).imp_right (List.mem_cons_of_mem _)

variable [Std.TransOrd κ]

theorem pairwise_insertEntry (k : κ) (v : ν) {l : List (κ × ν)}
    (h : l.Pairwise fun a b => compare a.1 b.1 = .lt) :
    (insertEntry k v l).Pairwise fun a b => compare a.1 b.1 = .lt := by
  induction l with
  | nil => simp [insertEntry]
  | cons a rest ih =>
    have ha := List.pairwise_cons.mp h
    simp only [insertEntry]
    split
    · rename_i hk
      refine List.pairwise_cons.mpr ⟨fun e he => ?_, h⟩
      rcases List.mem_cons.mp he with rfl | he
      · exact hk
      · exact Std.TransCmp.lt_trans hk (ha.1 e he)
    · rename_i hk
      exact List.pairwise_cons.mpr
        ⟨fun e he => Std.TransCmp.lt_of_eq_of_lt hk (ha.1 e he), ha.2⟩
    · rename_i hk
      refine List.pairwise_cons.mpr ⟨fun e he => ?_, ih ha.2⟩
      rcases mem_insertEntry he with rfl | he
      · exact Std.OrientedCmp.lt_of_gt hk
      · exact ha.1 e he

/-! ## The map -/

omit [Std.TransOrd κ] in
/-- Maps with the same entries are equal. -/
@[ext] theorem ext {m n : SortedMap κ ν} (h : m.toList = n.toList) : m = n := by
  cases m; cases n; cases h; rfl

instance [DecidableEq κ] [DecidableEq ν] : DecidableEq (SortedMap κ ν) := fun m n =>
  decidable_of_iff (m.toList = n.toList) ⟨ext, fun h => h ▸ rfl⟩

/-- The map with no entry. -/
def empty : SortedMap κ ν := ⟨[], List.Pairwise.nil⟩

instance : EmptyCollection (SortedMap κ ν) := ⟨empty⟩

/-- The value at a key. -/
def get? (m : SortedMap κ ν) (k : κ) : Option ν := findEntry k m.toList

/-- Whether a key has a value. -/
def contains (m : SortedMap κ ν) (k : κ) : Bool := (m.get? k).isSome

/-- Set the value at a key. -/
def insert (m : SortedMap κ ν) (k : κ) (v : ν) : SortedMap κ ν :=
  ⟨insertEntry k v m.toList, pairwise_insertEntry k v m.increasing⟩

/-- Leave a key without a value. -/
def erase (m : SortedMap κ ν) (k : κ) : SortedMap κ ν :=
  ⟨eraseEntry k m.toList, m.increasing.filter _⟩

/-- The number of keys with a value. -/
def size (m : SortedMap κ ν) : Nat := m.toList.length

/-- Whether no key has a value. -/
def isEmpty (m : SortedMap κ ν) : Bool := m.toList.isEmpty

/-! ## Look-ups after an update -/

omit [Std.TransOrd κ] in
@[simp] theorem get?_empty (k : κ) : (∅ : SortedMap κ ν).get? k = none := rfl

theorem findEntry_insertEntry (k k' : κ) (v : ν) (l : List (κ × ν)) :
    findEntry k' (insertEntry k v l) =
      if compare k' k = .eq then some v else findEntry k' l := by
  induction l with
  | nil => rfl
  | cons a rest ih =>
    simp only [insertEntry]
    split
    · rfl
    · rename_i hk
      by_cases hkk : compare k' k = .eq
      · simp [findEntry, hkk]
      · have : compare k' a.1 ≠ .eq := fun h =>
          hkk (Std.TransCmp.eq_trans h (Std.OrientedCmp.eq_symm hk))
        simp [findEntry, hkk, this]
    · rename_i hk
      simp only [findEntry, ih]
      by_cases hka : compare k' a.1 = .eq
      · have : compare k' k ≠ .eq := fun h => by
          have h' := Std.TransCmp.eq_trans (Std.OrientedCmp.eq_symm h) hka
          rw [hk] at h'; cases h'
        simp [hka, this]
      · simp [hka]

/-- Setting a value changes what is found at its key and nowhere else. -/
theorem get?_insert (m : SortedMap κ ν) (k k' : κ) (v : ν) :
    (m.insert k v).get? k' = if compare k' k = .eq then some v else m.get? k' :=
  findEntry_insertEntry k k' v m.toList

theorem findEntry_eraseEntry (k k' : κ) (l : List (κ × ν)) :
    findEntry k' (eraseEntry k l) = if compare k' k = .eq then none else findEntry k' l := by
  induction l with
  | nil => simp [eraseEntry, findEntry]
  | cons a rest ih =>
    simp only [eraseEntry] at ih
    by_cases hk : compare k a.1 = .eq
    · have hf : ((compare k a.1) != .eq) = false := by simp [hk]
      simp only [eraseEntry, List.filter_cons, hf, Bool.false_eq_true, if_false, ih, findEntry]
      by_cases hkk : compare k' k = .eq
      · simp [hkk]
      · have : compare k' a.1 ≠ .eq := fun h =>
          hkk (Std.TransCmp.eq_trans h (Std.OrientedCmp.eq_symm hk))
        simp [hkk, this]
    · have hf : ((compare k a.1) != .eq) = true := by simp [hk]
      simp only [eraseEntry, List.filter_cons, hf, if_true, findEntry, ih]
      by_cases hka : compare k' a.1 = .eq
      · have : compare k' k ≠ .eq := fun h =>
          hk (Std.TransCmp.eq_trans (Std.OrientedCmp.eq_symm h) hka)
        simp [hka, this]
      · simp [hka]

/-- Erasing a key leaves nothing at that key and all other keys alone. -/
theorem get?_erase (m : SortedMap κ ν) (k k' : κ) :
    (m.erase k).get? k' = if compare k' k = .eq then none else m.get? k' :=
  findEntry_eraseEntry k k' m.toList

/-! ## The look-ups determine the map -/

omit [Std.TransOrd κ] in
theorem findEntry_eq_none {k : κ} {l : List (κ × ν)}
    (h : ∀ e ∈ l, compare k e.1 = .lt) : findEntry k l = none := by
  induction l with
  | nil => rfl
  | cons a rest ih =>
    have ha := h a List.mem_cons_self
    simp [findEntry, ha, ih fun e he => h e (List.mem_cons_of_mem _ he)]

theorem eq_of_findEntry_eq [Std.LawfulEqOrd κ] {l m : List (κ × ν)}
    (hl : l.Pairwise fun a b => compare a.1 b.1 = .lt)
    (hm : m.Pairwise fun a b => compare a.1 b.1 = .lt)
    (h : ∀ k, findEntry k l = findEntry k m) : l = m := by
  induction l generalizing m with
  | nil =>
    cases m with
    | nil => rfl
    | cons b rest => simpa [findEntry] using h b.1
  | cons a rest ih =>
    cases m with
    | nil => simpa [findEntry] using h a.1
    | cons b rest' =>
      have ha := List.pairwise_cons.mp hl
      have hb := List.pairwise_cons.mp hm
      have self (e : κ × ν) (r : List (κ × ν)) : findEntry e.1 (e :: r) = some e.2 := by
        simp [findEntry]
      match hab : compare a.1 b.1 with
      | .lt =>
        have hn : findEntry a.1 (b :: rest') = none := findEntry_eq_none fun e he => by
          rcases List.mem_cons.mp he with rfl | he
          · exact hab
          · exact Std.TransCmp.lt_trans hab (hb.1 e he)
        have := h a.1
        rw [hn, self] at this; cases this
      | .gt =>
        have hba := Std.OrientedCmp.lt_of_gt hab
        have hn : findEntry b.1 (a :: rest) = none := findEntry_eq_none fun e he => by
          rcases List.mem_cons.mp he with rfl | he
          · exact hba
          · exact Std.TransCmp.lt_trans hba (ha.1 e he)
        have := h b.1
        rw [hn, self] at this; cases this
      | .eq =>
        obtain ⟨k, v⟩ := a
        obtain ⟨k', v'⟩ := b
        have hk : k = k' := Std.LawfulEqOrd.eq_of_compare hab
        subst hk
        have hv := h k
        rw [self (k, v), self (k, v')] at hv
        cases Option.some.inj hv
        have ht : rest = rest' := ih ha.2 hb.2 fun x => by
          by_cases hx : compare x k = .eq
          · cases Std.LawfulEqOrd.eq_of_compare hx
            rw [findEntry_eq_none ha.1, findEntry_eq_none hb.1]
          · simpa [findEntry, hx] using h x
        rw [ht]

/-- Maps with the same look-ups are equal. -/
theorem ext_get? [Std.LawfulEqOrd κ] {m n : SortedMap κ ν} (h : ∀ k, m.get? k = n.get? k) :
    m = n :=
  ext (eq_of_findEntry_eq m.increasing n.increasing h)

end SortedMap

end Depot
