import Depot.Database
import Depot.Proofs.SortedMap
/-!
# Rows and quantities of a table

What every row of a table is (`Every`) is kept by an update whose row is of the kind.

Stock and occupancy are tables of quantities: every row holds a number other than zero as eight
big-endian bytes (`HoldsQuantities`). Such a table is a total map to 64-bit numbers (`held`), zero
where there is no row, and `setQuantity` updates that map at one key. `countKeys_setQuantity` says
what it does to the number of rows.

Rows whose keys begin alike stand in the order of what is left of the keys
(`increasing_startingWith`).
-/

namespace Depot

/-- Strings that begin alike are ordered as the rest of them. -/
theorem Bytes.compare_append_left (start a b : Bytes) :
    compare (start ++ a) (start ++ b) = compare a b := by
  induction start with
  | nil => rfl
  | cons byte start ih =>
    have hbyte : compare byte byte = .eq := Std.ReflCmp.compare_self
    rw [List.cons_append, List.cons_append, List.compare_cons_cons, hbyte, ih]
    rfl

namespace Table

/-! ## Rows -/

/-- Every row of the table is of the kind. -/
def Every (kind : Bytes → Bytes → Prop) (t : Table) : Prop :=
  ∀ key row, t.get? key = some row → kind key row

section Every

variable {kind : Bytes → Bytes → Prop} {t : Table}

theorem every_empty : Every kind ∅ := by
  intro key row h
  cases h

theorem Every.insert (h : t.Every kind) {key row : Bytes} (hrow : kind key row) :
    Every kind (t.insert key row) := by
  intro key' row' h'
  by_cases hkey : key' = key
  · subst hkey
    rw [SortedMap.get?_insert_self] at h'
    cases h'
    exact hrow
  · rw [SortedMap.get?_insert_ne t hkey] at h'
    exact h key' row' h'

theorem Every.erase (h : t.Every kind) (key : Bytes) : Every kind (t.erase key) := by
  intro key' row' h'
  by_cases hkey : key' = key
  · subst hkey
    rw [SortedMap.get?_erase_self] at h'
    cases h'
  · rw [SortedMap.get?_erase_ne t hkey] at h'
    exact h key' row' h'

theorem Every.setQuantity (h : t.Every kind) {key : Bytes} {q : UInt64}
    (hrow : q ≠ 0 → kind key (Bytes.ofUInt64 q)) : (t.setQuantity key q).Every kind := by
  unfold Table.setQuantity
  split
  · exact h.erase key
  · rename_i hq
    exact h.insert (hrow hq)

end Every

/-- What is read of the rows whose keys begin alike is in the order of what is left of the keys. -/
theorem increasing_startingWith {α : Type} {t : Table} {start : Bytes} {rest : α → Bytes}
    {l : List α} (h : l.map (fun a => start ++ rest a) = (t.startingWith start).map Prod.fst) :
    l.Pairwise fun a b => compare (rest a) (rest b) = .lt := by
  have hsorted : ((t.startingWith start).map Prod.fst).Pairwise fun a b => compare a b = .lt :=
    List.pairwise_map.mpr (t.increasing.filter _)
  rw [← h, List.pairwise_map] at hsorted
  simpa only [Bytes.compare_append_left] using hsorted

/-! ## Quantities -/

/-- Every row holds a quantity other than zero. -/
def HoldsQuantities (t : Table) : Prop :=
  ∀ key row, t.get? key = some row → ∃ q : UInt64, q ≠ 0 ∧ row = Bytes.ofUInt64 q

/-- The quantity at a key; zero where there is none. -/
def held (t : Table) (key : Bytes) : UInt64 :=
  match t.quantity key with
  | .ok q => q
  | .error _ => 0

theorem holdsQuantities_empty : HoldsQuantities ∅ := every_empty

theorem HoldsQuantities.setQuantity {t : Table} (h : t.HoldsQuantities) (key : Bytes)
    (q : UInt64) : (t.setQuantity key q).HoldsQuantities :=
  Every.setQuantity h fun hq => ⟨q, hq, rfl⟩

/-- A quantity can be read at every key. -/
theorem HoldsQuantities.quantity {t : Table} (h : t.HoldsQuantities) (key : Bytes) :
    t.quantity key = .ok (t.held key) := by
  have hread : ∃ q, t.quantity key = .ok q := by
    unfold Table.quantity
    cases hrow : t.get? key with
    | none => exact ⟨0, rfl⟩
    | some row =>
      obtain ⟨q, -, rfl⟩ := h key row hrow
      exact ⟨q, by simp only [readQuantity, Bytes.toUInt64?_ofUInt64]⟩
  obtain ⟨q, hq⟩ := hread
  unfold held
  rw [hq]

/-- There is a row where the quantity is not zero, and it holds the quantity. -/
theorem HoldsQuantities.get? {t : Table} (h : t.HoldsQuantities) (key : Bytes) :
    t.get? key = if t.held key = 0 then none else some (Bytes.ofUInt64 (t.held key)) := by
  unfold held Table.quantity
  cases hrow : SortedMap.get? t key with
  | none => rfl
  | some row =>
    obtain ⟨q, hq, rfl⟩ := h key row hrow
    simp only [readQuantity, Bytes.toUInt64?_ofUInt64, hq, if_false]

/-- Tables of quantities whose keys are of one kind are equal if they hold the same there. -/
theorem HoldsQuantities.eq_of_held {t t' : Table} (h : t.HoldsQuantities)
    (h' : t'.HoldsQuantities) {kind : Bytes → Bytes → Prop} (hkeys : t.Every kind)
    (hkeys' : t'.Every kind) (hheld : ∀ key row, kind key row → t'.held key = t.held key) :
    t' = t := by
  refine SortedMap.ext_get? fun key => ?_
  by_cases hkey : ∃ row, kind key row
  · obtain ⟨row, hrow⟩ := hkey
    rw [h.get?, h'.get?, hheld key row hrow]
  · have hnone {u : Table} (hu : u.Every kind) : SortedMap.get? u key = none :=
      Option.eq_none_iff_forall_ne_some.mpr fun row hrow => hkey ⟨row, hu key row hrow⟩
    rw [hnone hkeys, hnone hkeys']

theorem held_setQuantity (t : Table) (key key' : Bytes) (q : UInt64) :
    (t.setQuantity key q).held key' = if key' = key then q else t.held key' := by
  unfold held
  rw [quantity_setQuantity]
  by_cases h : key' = key
  · simp only [h, if_true]
  · simp only [h, if_false]

/-! ## Counting rows -/

/-- How many rows have a key of the kind. -/
def countKeys (kind : Bytes → Bool) (t : Table) : Nat :=
  t.toList.countP fun row => kind row.1

/-- What a row counts. -/
def unit (kind : Bytes → Bool) (key : Bytes) : Int := if kind key then 1 else 0

theorem countKeys_eq_sum (kind : Bytes → Bool) (t : Table) :
    (t.countKeys kind : Int) = t.sum fun row => unit kind row.1 := by
  unfold countKeys SortedMap.sum
  induction t.toList with
  | nil => rfl
  | cons row rows ih =>
    rw [List.map_cons, List.sum_cons, ← ih, List.countP_cons, unit]
    split <;> omega

/-- Setting a quantity makes the row of its key if it is not zero, and takes away the row that was
there. -/
theorem countKeys_setQuantity {t : Table} (h : t.HoldsQuantities) (kind : Bytes → Bool)
    (key : Bytes) (q : UInt64) :
    ((t.setQuantity key q).countKeys kind : Int) =
      t.countKeys kind + (if q = 0 then 0 else unit kind key) -
        (if t.held key = 0 then 0 else unit kind key) := by
  have hpart : SortedMap.part (fun row => unit kind row.1) key (t.get? key) =
      if t.held key = 0 then 0 else unit kind key := by
    rw [h.get?]
    split <;> rfl
  rw [countKeys_eq_sum, countKeys_eq_sum, ← hpart]
  unfold setQuantity
  split
  · rw [SortedMap.sum_erase]
    omega
  · rw [SortedMap.sum_insert]

end Table

end Depot
