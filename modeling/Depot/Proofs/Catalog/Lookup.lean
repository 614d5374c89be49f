import Depot.Proofs.Integrity
/-!
# What the catalog is found to have

A look-up in the catalog finds an entry, finds nothing, or meets a row it cannot read. Where every
row can be read, the keys of the table alone decide which (`known_warehouse`), and a function that
looks an entry up hands it out or reports that it is not there.
-/

namespace Depot

/-! ## Records -/

namespace Table

variable {α : Type} [Stored α] {t : Table} {key row : Bytes} {x : α}

theorem contains_iff : t.contains key = true ↔ ∃ row, t.get? key = some row := by
  unfold SortedMap.contains
  exact Option.isSome_iff_exists

theorem contains_eq_false_iff : t.contains key = false ↔ t.get? key = none := by
  unfold SortedMap.contains
  simp

theorem contains_of_get? (h : t.get? key = some row) : t.contains key = true :=
  contains_iff.mpr ⟨row, h⟩

theorem contains_insert (t : Table) (key key' row : Bytes) :
    (t.insert key row).contains key' = (decide (key' = key) || t.contains key') := by
  unfold SortedMap.contains
  by_cases h : key' = key
  · subst h
    simp [SortedMap.get?_insert_self]
  · simp [SortedMap.get?_insert_ne t h, h]

theorem contains_erase (t : Table) (key key' : Bytes) :
    (t.erase key).contains key' = (decide (key' ≠ key) && t.contains key') := by
  unfold SortedMap.contains
  by_cases h : key' = key
  · subst h
    simp [SortedMap.get?_erase_self]
  · simp [SortedMap.get?_erase_ne t h, h]

theorem record?_of_absent (h : t.contains key = false) :
    (t.record? key : Except StoreError (Option α)) = .ok none := by
  unfold record?
  rw [contains_eq_false_iff.mp h]

theorem record?_of_row (hrow : t.get? key = some row) (hx : decodeRow row = .ok x) :
    t.record? key = .ok (some x) := by
  unfold record?
  rw [hrow]
  exact bind_ok hx rfl

theorem record?_eq_ok {found : Option α} (h : t.record? key = .ok found) :
    t.contains key = found.isSome := by
  unfold record? at h
  cases hrow : t.get? key with
  | none =>
    rw [hrow] at h
    cases h
    exact contains_eq_false_iff.mpr hrow
  | some row =>
    rw [hrow] at h
    obtain ⟨y, -, h⟩ := bind_eq_ok h
    cases h
    exact contains_of_get? hrow

end Table

/-! ## Entries of the catalog -/

namespace Catalog

variable {db : Database} {w : WarehouseId} {p : ProductId}

theorem warehouse_of_known {r : Warehouse} (h : warehouse? w db = .ok (some r)) :
    warehouse w db = .ok r :=
  bind_ok (by rw [h]; rfl) rfl

theorem warehouse_of_absent (h : warehouse? w db = .ok none) :
    warehouse w db = .error (.warehouseNotFound w) :=
  bind_ok (by rw [h]; rfl) rfl

theorem product_eq_ok {r : Product} (h : product p db = .ok r) :
    product? p db = .ok (some r) := by
  obtain ⟨found, hfound, h⟩ := bind_eq_ok h
  cases found with
  | none => cases h
  | some q =>
    cases h
    exact mapError_eq_ok hfound

theorem product_of_known {r : Product} (h : product? p db = .ok (some r)) :
    product p db = .ok r :=
  bind_ok (by rw [h]; rfl) rfl

theorem product_of_absent (h : product? p db = .ok none) :
    product p db = .error (.productNotFound p) :=
  bind_ok (by rw [h]; rfl) rfl

end Catalog

namespace Database.Integrity

variable {db : Database}

theorem known_warehouse (h : db.Integrity) {w : WarehouseId}
    (hw : db.warehouses.contains w.bytes = true) :
    ∃ r, Catalog.warehouse? w db = .ok (some r) := by
  obtain ⟨found, hfound, -⟩ := h.warehouse?_eq w
  have hsome := Table.record?_eq_ok hfound
  rw [hw] at hsome
  obtain ⟨r, rfl⟩ := Option.isSome_iff_exists.mp hsome.symm
  exact ⟨r, hfound⟩

end Database.Integrity

end Depot
