import Depot.Proofs.Stock.Plan
/-!
# Keys of stock and their rows

A key of stock is written as the length of the warehouse identifier, the identifier, and that of the
product, with nothing behind it that would tell where the product ends. That is enough: a byte
string is the row key of one key of stock at most, and what is read from it is that key
(`Stock.rowOf_bijective`). So no two keys share a row, whatever their identifiers are like: empty,
beginning with each other, of wide letters, or with bytes of a length in them.

The only keys without a row are those whose warehouse identifier has more bytes than two bytes can
count.

## How the proof goes

Reading and writing are inverse to each other (`StockKey.ofBytes?_bytes?`,
`StockKey.bytes?_of_ofBytes?`): the length in front says where to cut, and UTF-8 is a bijection on
either side of the cut. The two bytes of length come first also in the beginning of a warehouse's
rows, so two beginnings of different warehouses differ before either ends (`rowStart_prefix_iff`).
Behind the same beginning rows are ordered as the products (`Bytes.compare_append_left`).
-/

namespace Depot

/-! ## Keys that begin alike -/

namespace Bytes

/-- The length of a warehouse identifier is told by two bytes. -/
theorem bigEndian_two_injective {m n : Nat} (hm : m ≤ StockKey.maxWarehouseLength)
    (hn : n ≤ StockKey.maxWarehouseLength) (h : bigEndian 2 m = bigEndian 2 n) : m = n := by
  have hm : ofBigEndian (bigEndian 2 m) = m := ofBigEndian_bigEndian (Nat.lt_succ_of_le hm)
  have hn : ofBigEndian (bigEndian 2 n) = n := ofBigEndian_bigEndian (Nat.lt_succ_of_le hn)
  rw [← hm, h, hn]

end Bytes

namespace StockKey

variable {w : WarehouseId} {start key : Bytes} {k : StockKey}

theorem rowStart?_eq_some (h : w.bytes.length ≤ maxWarehouseLength) :
    rowStart? w = some (Bytes.bigEndian 2 w.bytes.length ++ w.bytes) := by
  rw [rowStart?, if_pos h]

/-- The key of a row of the warehouse. -/
theorem bytes?_of_rowStart (hstart : rowStart? k.warehouse = some start) :
    k.bytes? = some (start ++ k.product.bytes) := by
  rw [bytes?, hstart]
  rfl

/-- A row begins as the rows of a warehouse exactly if it is one of them. -/
theorem rowStart_prefix_iff (hstart : rowStart? w = some start) (hkey : k.bytes? = some key) :
    start <+: key ↔ k.warehouse = w := by
  obtain ⟨start', hstart', rfl⟩ := Option.map_eq_some_iff.mp hkey
  constructor
  · intro ⟨rest, hrest⟩
    unfold rowStart? at hstart hstart'
    split at hstart <;> split at hstart'
    · rename_i hw hk
      cases hstart
      cases hstart'
      rw [List.append_assoc, List.append_assoc] at hrest
      -- first the two bytes of length, then so many bytes of the identifiers
      obtain ⟨hlength, htail⟩ := List.append_inj hrest (by simp)
      have hlength := Bytes.bigEndian_two_injective hw hk hlength
      exact (Ident.bytes_injective (List.append_inj htail hlength).1).symm
    all_goals contradiction
  · rintro rfl
    rw [hstart] at hstart'
    cases hstart'
    exact List.prefix_append start _

end StockKey

/-! ## Rows of keys -/

namespace Stock

variable {k k' : StockKey} {b b' : Bytes}

theorem rowOf_eq_ok_iff : rowOf k = .ok b ↔ k.bytes? = some b := by
  unfold rowOf
  cases k.bytes? <;> simp

/-- What is written is read, and nothing else is. -/
theorem ofBytes?_eq_some_iff : StockKey.ofBytes? b = some k ↔ k.bytes? = some b :=
  ⟨StockKey.bytes?_of_ofBytes?, StockKey.ofBytes?_bytes?⟩

/-- Only a warehouse identifier that is too long is in the way of a row. -/
theorem rowOf_eq_error_iff {e : StoreError} :
    rowOf k = .error e ↔ StockKey.maxWarehouseLength < k.warehouse.bytes.length ∧
      e = .keyTooLong k.warehouse.bytes.length := by
  unfold rowOf
  rcases Nat.lt_or_ge StockKey.maxWarehouseLength k.warehouse.bytes.length with hlong | hshort
  · rw [bytes?_eq_none hlong]
    simp [hlong, eq_comm]
  · obtain ⟨row, hrow⟩ := bytes?_eq_some hshort
    simp [hrow, Nat.not_lt.mpr hshort]

/-- The rows of one warehouse are in the order of its products. -/
theorem compare_rows (hsame : k.warehouse = k'.warehouse) (h : k.bytes? = some b)
    (h' : k'.bytes? = some b') : compare b b' = compare k.product.bytes k'.product.bytes := by
  obtain ⟨start, hstart, rfl⟩ := Option.map_eq_some_iff.mp h
  have hstart' := hstart
  rw [hsame] at hstart'
  rw [StockKey.bytes?_of_rowStart hstart'] at h'
  cases h'
  exact Bytes.compare_append_left start _ _

theorem isSome_rowStart?_iff {w : WarehouseId} :
    (StockKey.rowStart? w).isSome ↔ w.bytes.length ≤ StockKey.maxWarehouseLength := by
  unfold StockKey.rowStart?
  split <;> simp [*]

/-- Keys and rows determine each other. A key has a row unless its warehouse identifier is longer
than 65535 bytes, which is the only failure and is reported with the length; the key is read back
from the row, and a byte string from which a key is read is the row of this key. So different keys
have different rows; a row begins as those of a warehouse exactly if it is one of them; and the
rows of a warehouse are in the order of its products. -/
theorem rowOf_bijective :
    (∀ k e, rowOf k = .error e ↔ 65535 < k.warehouse.bytes.length ∧
      e = .keyTooLong k.warehouse.bytes.length) ∧
    (∀ k b, rowOf k = .ok b ↔ StockKey.ofBytes? b = some k) ∧
    (∀ k k' b, rowOf k = .ok b → rowOf k' = .ok b → k = k') ∧
    (∀ w, (StockKey.rowStart? w).isSome ↔ w.bytes.length ≤ 65535) ∧
    (∀ w start k b, StockKey.rowStart? w = some start → rowOf k = .ok b →
      (start <+: b ↔ k.warehouse = w)) ∧
    (∀ w p p' b b', rowOf ⟨w, p⟩ = .ok b → rowOf ⟨w, p'⟩ = .ok b' →
      compare b b' = compare p.bytes p'.bytes) := by
  refine ⟨fun k e => rowOf_eq_error_iff, fun k b => ?_, fun k k' b h h' => ?_,
    fun w => isSome_rowStart?_iff, fun w start k b hstart h => ?_, fun w p p' b b' h h' => ?_⟩
  · rw [rowOf_eq_ok_iff, ofBytes?_eq_some_iff]
  · exact bytes?_injective (rowOf_eq_ok_iff.mp h) (rowOf_eq_ok_iff.mp h')
  · exact StockKey.rowStart_prefix_iff hstart (rowOf_eq_ok_iff.mp h)
  · have hsame : (⟨w, p⟩ : StockKey).warehouse = (⟨w, p'⟩ : StockKey).warehouse := rfl
    exact compare_rows hsame (rowOf_eq_ok_iff.mp h) (rowOf_eq_ok_iff.mp h')

/-- Identifiers of wide letters are cut where they meet. A cut inside of a letter gives no key, and
the row of the warehouse `ä` does not begin as those of the warehouse with the empty identifier. -/
theorem rowOf_bijective_wide :
    rowOf ⟨⟨"ä"⟩, ⟨"€"⟩⟩ = .ok [0, 2, 0xC3, 0xA4, 0xE2, 0x82, 0xAC] ∧
      StockKey.ofBytes? [0, 2, 0xC3, 0xA4, 0xE2, 0x82, 0xAC] = some ⟨⟨"ä"⟩, ⟨"€"⟩⟩ ∧
      (∀ k, rowOf k ≠ .ok [0, 3, 0xC3, 0xA4, 0xE2, 0x82, 0xAC]) ∧
      ¬ [0, 0] <+: ([0, 2, 0xC3, 0xA4, 0xE2, 0x82, 0xAC] : Bytes) := by
  obtain ⟨-, hread, -, -, hbegins, -⟩ := rowOf_bijective
  have hrow : rowOf ⟨⟨"ä"⟩, ⟨"€"⟩⟩ = .ok [0, 2, 0xC3, 0xA4, 0xE2, 0x82, 0xAC] := by decide +kernel
  have hcut : StockKey.ofBytes? [0, 3, 0xC3, 0xA4, 0xE2, 0x82, 0xAC] = none := by decide +kernel
  have hstart : StockKey.rowStart? ⟨""⟩ = some [0, 0] := by decide +kernel
  refine ⟨hrow, (hread _ _).mp hrow, fun k hk => ?_, fun hprefix => ?_⟩
  · rw [hread, hcut] at hk
    cases hk
  · have hsame := (hbegins _ _ _ _ hstart hrow).mp hprefix
    exact absurd hsame (by decide)

end Stock

end Depot
