import Depot.Proofs.Stock.Keys
import Depot.Proofs.Stock.Rows
/-!
# What a warehouse holds

The rows of a warehouse are found by the beginning of their keys, among strings of bytes that other
warehouses and products may have any part of in common. The listing is exact nevertheless: in a
reachable database it has one level for each product that the warehouse holds, in the order of
product identifiers, and none besides, and occupancy is its length (`warehouseLevels_exact`).

## How the proof goes

The beginning tells the length of the identifier first, so a row begins as those of a warehouse only
if it is one of them (`rowStart_prefix_iff`). The table is in the order of its keys, and keys that
begin alike are ordered as the rest of them, which are the products (`increasing_levels`).
Occupancy counts the same rows (`length_startingWith`).
-/

namespace Depot

/-! ## The listing -/

namespace Stock

variable {db : Database} {w : WarehouseId} {start : Bytes}

/-- A row that begins as those of the warehouse is read as one of its levels. -/
theorem row_of_readLevel (hstart : StockKey.rowStart? w = some start) {row : Bytes × Bytes}
    (hrow : row ∈ db.stock.startingWith start) {l : StockLevel} (h : readLevel row = .ok l) :
    l.key.warehouse = w ∧ start ++ l.key.product.bytes = row.1 := by
  obtain ⟨hkey, -⟩ := readLevel_eq_ok h
  have hprefix : start <+: row.1 := List.isPrefixOf_iff_prefix.mp (List.mem_filter.mp hrow).2
  have hw := (StockKey.rowStart_prefix_iff hstart hkey).mp hprefix
  refine ⟨hw, ?_⟩
  rw [← hw] at hstart
  rw [StockKey.bytes?_of_rowStart hstart] at hkey
  exact Option.some.inj hkey

/-- As many rows begin as those of the warehouse as belong to it. -/
theorem length_startingWith (hkeys : db.stock.Every isStockKey)
    (hstart : StockKey.rowStart? w = some start) :
    (db.stock.startingWith start).length = rowCount db w := by
  unfold Table.startingWith rowCount Table.countKeys
  rw [List.countP_eq_length_filter]
  congr 1
  refine List.filter_congr fun row hrow => ?_
  obtain ⟨k, hk⟩ := hkeys row.1 row.2 (SortedMap.mem_toList_iff.mp hrow)
  rw [belongsTo_row hk, Bool.eq_iff_iff, decide_eq_true_iff, List.isPrefixOf_iff_prefix]
  exact StockKey.rowStart_prefix_iff hstart hk

/-- The levels of a warehouse: those of the products that it has a quantity of, in the order of
their identifiers. -/
structure Holds (db : Database) (w : WarehouseId) (levels : List StockLevel) : Prop where
  mem_iff : ∀ l, l ∈ levels ↔ l.key.warehouse = w ∧ l.quantity ≠ 0 ∧
    quantity l.key db = .ok l.quantity
  increasing : levels.Pairwise fun l l' => compare l.key.product.bytes l'.key.product.bytes = .lt

section Read

variable {levels : List StockLevel}

/-- What is read are the levels with a quantity. -/
theorem mem_levels_iff (hstock : db.stock.HoldsQuantities)
    (hw : w.bytes.length ≤ StockKey.maxWarehouseLength)
    (hstart : StockKey.rowStart? w = some start)
    (hlevels : (db.stock.startingWith start).mapM readLevel = .ok levels) (l : StockLevel) :
    l ∈ levels ↔ l.key.warehouse = w ∧ l.quantity ≠ 0 ∧ quantity l.key db = .ok l.quantity := by
  rw [mem_of_mapM_eq_ok hlevels]
  constructor
  · rintro ⟨row, hrow, hl⟩
    have hwarehouse := (row_of_readLevel hstart hrow hl).1
    obtain ⟨hzero, honHand⟩ := onHand_of_readLevel hstock (List.mem_of_mem_filter hrow) hl
    refine ⟨hwarehouse, hzero, ?_⟩
    rw [quantity_eq_onHand hstock (by rwa [hwarehouse]), honHand]
  · rintro ⟨hwarehouse, hzero, hquantity⟩
    have honHand : onHand db l.key = l.quantity := by rw [onHand, hquantity]
    obtain ⟨row, hrow, hl⟩ := readLevel_of_onHand hstock (k := l.key) (by rwa [honHand])
    rw [honHand] at hl
    have hprefix := (StockKey.rowStart_prefix_iff hstart (readLevel_eq_ok hl).1).mpr hwarehouse
    exact ⟨row, List.mem_filter.mpr ⟨hrow, List.isPrefixOf_iff_prefix.mpr hprefix⟩, hl⟩

/-- The keys of the rows, read off the levels. -/
theorem map_levels (hstart : StockKey.rowStart? w = some start)
    (hlevels : (db.stock.startingWith start).mapM readLevel = .ok levels) :
    levels.map (fun l => start ++ l.key.product.bytes) =
      (db.stock.startingWith start).map Prod.fst :=
  map_of_mapM_eq_ok hlevels fun _ hrow _ hl => (row_of_readLevel hstart hrow hl).2

theorem increasing_levels (hstart : StockKey.rowStart? w = some start)
    (hlevels : (db.stock.startingWith start).mapM readLevel = .ok levels) :
    levels.Pairwise fun l l' =>
      compare l.key.product.bytes l'.key.product.bytes = .lt :=
  Table.increasing_startingWith (map_levels hstart hlevels)

theorem length_levels (hkeys : db.stock.Every isStockKey)
    (hstart : StockKey.rowStart? w = some start)
    (hlevels : (db.stock.startingWith start).mapM readLevel = .ok levels) :
    levels.length = rowCount db w := by
  rw [← length_startingWith hkeys hstart, ← List.length_map Prod.fst, ← map_levels hstart hlevels,
    List.length_map]

end Read

/-- The levels of a warehouse are listed, one for each of its rows. -/
theorem exists_warehouseLevels (hstock : db.stock.HoldsQuantities)
    (hkeys : db.stock.Every isStockKey) (hw : w.bytes.length ≤ StockKey.maxWarehouseLength) :
    ∃ levels, warehouseLevels w db = .ok levels ∧ Holds db w levels ∧
      levels.length = rowCount db w := by
  have hstart := StockKey.rowStart?_eq_some hw
  generalize Bytes.bigEndian 2 w.bytes.length ++ w.bytes = start at hstart
  have hread : ∀ row ∈ db.stock.startingWith start, ∃ l, readLevel row = .ok l :=
    fun _ hrow => exists_readLevel hstock hkeys (List.mem_of_mem_filter hrow)
  obtain ⟨levels, hlevels⟩ := exists_mapM_eq_ok hread
  refine ⟨levels, ?_, ⟨mem_levels_iff hstock hw hstart hlevels, increasing_levels hstart hlevels⟩,
    length_levels hkeys hstart hlevels⟩
  unfold warehouseLevels
  rw [hstart]
  dsimp only
  rw [hlevels]
  rfl

variable {σ : Type} {hook : LedgerHook σ} {world : Database × σ}

/-- In every reachable database a warehouse can be listed, whatever other identifiers are like. The
listing has one level for each product that the warehouse has a quantity of, with that quantity, in
the order of product identifiers, and none besides; occupancy is its length. -/
theorem warehouseLevels_exact (h : Reachable hook fewRows world) {w : WarehouseId}
    (hw : w.bytes.length ≤ StockKey.maxWarehouseLength) :
    ∃ levels count, warehouseLevels w world.1 = .ok levels ∧ Holds world.1 w levels ∧
      occupancy w world.1 = .ok count ∧ count.toNat = levels.length := by
  have hdb := h.integrity.quantities
  have hform := wellFormed_of_reachable h
  obtain ⟨levels, hlevels, hholds, hlength⟩ := exists_warehouseLevels hdb.stock hform.stock hw
  refine ⟨levels, world.1.occupancy.held w.bytes, hlevels, hholds, hdb.occupancy.quantity _, ?_⟩
  rw [hform.tallied w, hlength]

/-- A first batch of fewer than 2^64 keys makes no row too many. -/
theorem fewRows_start {batch : Batch} (h : batch.size ≤ maxUInt64) :
    fewRows ∅ (.stock (.applyBatch batch)) :=
  fewRows_applyBatch ⟨Table.holdsQuantities_empty, Table.holdsQuantities_empty⟩
    (Nat.le_trans (Nat.le_of_eq (Nat.zero_add _)) h)

/-- Goods come into warehouses whose identifiers begin with each other, or with two bytes of a
length. -/
def neighbours : Batch :=
  .ofList [(⟨⟨"w"⟩, ⟨"q"⟩⟩, 2), (⟨⟨"wp"⟩, ⟨""⟩⟩, 1), (⟨⟨""⟩, ⟨"wp"⟩⟩, 4),
    (⟨⟨"\x00\x01w"⟩, ⟨"p"⟩⟩, 3), (⟨⟨"w"⟩, ⟨"p"⟩⟩, 5)]

theorem warehouseLevels_exact_neighbours :
    ∃ world : Database × Unit, Reachable .silent fewRows world ∧
      (Ident.bytes (⟨"w"⟩ : WarehouseId)).length ≤ StockKey.maxWarehouseLength ∧
      let levels : List StockLevel := [⟨⟨⟨"w"⟩, ⟨"p"⟩⟩, 5⟩, ⟨⟨⟨"w"⟩, ⟨"q"⟩⟩, 2⟩]
      warehouseLevels ⟨"w"⟩ world.1 = .ok levels ∧ Holds world.1 ⟨"w"⟩ levels ∧
        ∃ count, occupancy ⟨"w"⟩ world.1 = .ok count ∧ count.toNat = 2 := by
  have hfits : (Operation.stock (.applyBatch neighbours)).Fits := by
    simp only [Operation.Fits]
    decide
  have hreach : Reachable (σ := Unit) .silent fewRows
      ((Operation.stock (.applyBatch neighbours)).run LedgerHook.silent.run (∅, ())).2 :=
    .step (.start ()) hfits (fewRows_start (by decide))
  have hshort : (Ident.bytes (⟨"w"⟩ : WarehouseId)).length ≤ StockKey.maxWarehouseLength := by
    decide
  have hlisted : warehouseLevels ⟨"w"⟩
      ((Operation.stock (.applyBatch neighbours)).run LedgerHook.silent.run (∅, ())).2.1 =
        .ok [⟨⟨⟨"w"⟩, ⟨"p"⟩⟩, 5⟩, ⟨⟨⟨"w"⟩, ⟨"q"⟩⟩, 2⟩] := by decide +kernel
  obtain ⟨levels, count, hlevels, hholds, hcount, hlength⟩ := warehouseLevels_exact hreach hshort
  rw [hlisted] at hlevels
  cases hlevels
  exact ⟨_, hreach, hshort, hlisted, hholds, count, hcount, hlength⟩

end Stock

end Depot
