import Depot.Proofs.Stock.Occupancy
import Mathlib.Data.List.Nodup
/-!
# The rows of stock as levels

Every row of stock can be read as the level of one key (`readLevel_of_row`). The levels of all rows
are those of the keys with a quantity other than zero, each once (`Listed`); so what is computed
from the rows of the table is computed from what is on hand.
-/

namespace Depot

/-- Every row of stock has the key of a warehouse and a product. -/
theorem Reachable.stockKeys {σ : Type} {hook : LedgerHook σ}
    {allowed : Database → Operation → Prop} {world : Database × σ}
    (h : Reachable hook allowed world) : world.1.stock.Every Stock.isStockKey := by
  refine h.induction (P := fun db => db.stock.Every Stock.isStockKey) (fun hcore ha => ?_)
    Table.every_empty ?_
  · rw [hcore.stock]
    exact ha
  · intro op db' world' hreach hfits _ hkeys heffect
    have hdb := hreach.integrity.quantities
    have moved {batch : Batch} {levels : List StockLevel} {db' : Database}
        (happlied : Stock.applyBatch batch world'.1 = .ok (levels, db')) :
        db'.stock.Every Stock.isStockKey := by
      obtain ⟨hadm, rfl⟩ := Stock.applyBatch_inv hdb happlied
      exact Stock.stockKeys_applied hkeys hadm
    cases heffect with
    | moved asked applied => exact moved applied
    | posted asked ready applied encoded =>
      have hmoved := moved applied
      exact hmoved
    | _ => exact hkeys

namespace Stock

theorem readLevel_of_row {key row : Bytes} {k : StockKey} {q : UInt64}
    (hkey : k.bytes? = some key) (hrow : row = Bytes.ofUInt64 q) :
    readLevel (key, row) = .ok ⟨k, q⟩ := by
  subst hrow
  refine bind_ok (x := q) ?_ ?_
  · simp only [readQuantity, Bytes.toUInt64?_ofUInt64]
  · simp only [StockKey.ofBytes?_bytes? hkey]
    rfl

/-- What is read of a row: the quantity, and the key whose row it is. -/
theorem readLevel_eq_ok {row : Bytes × Bytes} {l : StockLevel} (h : readLevel row = .ok l) :
    l.key.bytes? = some row.1 ∧ readQuantity row.1 row.2 = .ok l.quantity := by
  obtain ⟨q, hq, h⟩ := bind_eq_ok h
  cases hkey : StockKey.ofBytes? row.1 with
  | none => simp [hkey] at h
  | some k =>
    rw [hkey] at h
    cases h
    exact ⟨StockKey.bytes?_of_ofBytes? hkey, hq⟩

/-! ## All rows -/

/-- The levels of all rows of stock: those of the keys whose quantity is not zero, each once. -/
structure Listed (db : Database) (levels : List StockLevel) : Prop where
  read : db.stock.toList.mapM readLevel = .ok levels
  mem_iff : ∀ l, l ∈ levels ↔ l.quantity ≠ 0 ∧ onHand db l.key = l.quantity
  nodup : (levels.map StockLevel.key).Nodup

section Listed

variable {db : Database}

/-- A key with a quantity other than zero has a row that is read as its level. -/
theorem readLevel_of_onHand (hstock : db.stock.HoldsQuantities) {k : StockKey}
    (h : onHand db k ≠ 0) :
    ∃ row ∈ db.stock.toList, readLevel row = .ok ⟨k, onHand db k⟩ := by
  cases hkey : k.bytes? with
  | none => simp [onHand, quantity, rowOf, hkey, bind, Except.bind] at h
  | some key =>
    have hrow := hstock.get? key
    rw [← onHand_eq_held hkey, if_neg h] at hrow
    exact ⟨_, SortedMap.mem_toList_iff.mpr hrow, readLevel_of_row hkey rfl⟩

/-- A row is read as the level of its key. -/
theorem onHand_of_readLevel (hstock : db.stock.HoldsQuantities) {row : Bytes × Bytes}
    (hrow : row ∈ db.stock.toList) {l : StockLevel} (h : readLevel row = .ok l) :
    l.quantity ≠ 0 ∧ onHand db l.key = l.quantity := by
  obtain ⟨hkey, hquantity⟩ := readLevel_eq_ok h
  have hget := SortedMap.mem_toList_iff.mp hrow
  obtain ⟨q, hq, hbytes⟩ := hstock _ _ hget
  rw [hbytes, readQuantity, Bytes.toUInt64?_ofUInt64] at hquantity
  cases hquantity
  refine ⟨hq, ?_⟩
  rw [onHand_eq_held hkey, Table.held, Table.quantity]
  simp [hget, hbytes, readQuantity, Bytes.toUInt64?_ofUInt64]

/-- Every row is read as a level. -/
theorem exists_readLevel (hstock : db.stock.HoldsQuantities) (hkeys : db.stock.Every isStockKey)
    {row : Bytes × Bytes} (hrow : row ∈ db.stock.toList) : ∃ l, readLevel row = .ok l := by
  obtain ⟨k, hk⟩ := hkeys _ _ (SortedMap.mem_toList_iff.mp hrow)
  obtain ⟨q, -, hq⟩ := hstock _ _ (SortedMap.mem_toList_iff.mp hrow)
  exact ⟨⟨k, q⟩, readLevel_of_row hk hq⟩

theorem exists_listed (hstock : db.stock.HoldsQuantities)
    (hkeys : db.stock.Every isStockKey) : ∃ levels, Listed db levels := by
  have hread : ∀ row ∈ db.stock.toList, ∃ l, readLevel row = .ok l :=
    fun _ hrow => exists_readLevel hstock hkeys hrow
  obtain ⟨levels, hlevels⟩ := exists_mapM_eq_ok hread
  have hrows : (levels.map StockLevel.key).map StockKey.bytes? =
      (db.stock.toList.map Prod.fst).map some := by
    rw [List.map_map, List.map_map]
    exact map_of_mapM_eq_ok hlevels fun row _ l hl => (readLevel_eq_ok hl).1
  refine ⟨levels, hlevels, fun l => ⟨fun hl => ?_, fun ⟨hq, hl⟩ => ?_⟩, ?_⟩
  · obtain ⟨row, hrow, hl⟩ := (mem_of_mapM_eq_ok hlevels l).mp hl
    exact onHand_of_readLevel hstock hrow hl
  · obtain ⟨row, hrow, hread⟩ := readLevel_of_onHand hstock (by rwa [hl])
    rw [hl] at hread
    exact (mem_of_mapM_eq_ok hlevels l).mpr ⟨row, hrow, hread⟩
  · -- equal keys would have equal row keys, and no row key stands in a table twice
    have hnodup : ((levels.map StockLevel.key).map StockKey.bytes?).Nodup := by
      rw [hrows]
      exact db.stock.nodup_keys.map fun _ _ heq => Option.some.inj heq
    exact hnodup.of_map _

end Listed

end Stock

end Depot
