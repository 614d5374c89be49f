import Depot.Proofs.Integrity
/-!
# Occupancy counts the rows of stock

Stock and occupancy keep their form through every history, batches applied past the documents and
documents settled by hand included: a row of stock belongs to a key and holds a quantity other
than zero, and occupancy holds for every warehouse how many rows of stock belong to it, in a row
that is there only if there are any (`occupancy_counts_rows`).

## How the proof goes

Occupancy is never counted afresh. Each change of a batch adjusts it by the row that it makes or
takes away, so `Tallied` has to hold after every single change and not only between batches: one
batch may touch a warehouse many times, upwards and downwards. Changes are about different rows
and know what these hold (`Current`), so a change makes a row exactly if its quantity was zero
and is not any more.

## The side condition

The adjustment stops at the largest 64-bit number, and would hide a row there. `fewRows` says that
no warehouse comes to have 2^64 rows, also not within a batch. A batch stopped after `n` of its
keys leaves the tables as they are at that moment of writing it (`Batch.take`).
-/

namespace Depot

/-- The batch of the first `n` keys. -/
def Batch.take (batch : Batch) (n : Nat) : Batch :=
  ⟨⟨batch.nets.toList.take n, batch.nets.increasing.sublist (List.take_sublist n _)⟩⟩

namespace Stock

/-- The row key is one of a warehouse. -/
def belongsTo (w : WarehouseId) (key : Bytes) : Bool :=
  (StockKey.ofBytes? key).map StockKey.warehouse == some w

/-- How many rows of the stock table belong to a warehouse. -/
def rowCount (db : Database) (w : WarehouseId) : Nat := db.stock.countKeys (belongsTo w)

/-- The operation applies the batch to the stock, as its own or as that of a document it posts. -/
def Brings (op : Operation) (db : Database) (batch : Batch) : Prop :=
  op.batch? = some batch ∨ ∃ id approver now d, op.approval? = some (id, approver, now) ∧
    Posting.Ready id approver db d ∧ d.batch = batch

/-- No warehouse comes to have 2^64 rows of stock, also not while a batch is written. -/
def fewRows (db : Database) (op : Operation) : Prop :=
  ∀ batch levels db', Brings op db batch → applyBatch batch db = .ok (levels, db') →
    ∀ n levels' mid, applyBatch (batch.take n) db = .ok (levels', mid) →
      ∀ w, rowCount mid w ≤ maxUInt64

/-! ## One change -/

theorem belongsTo_row {key : StockKey} {row : Bytes} (h : key.bytes? = some row)
    (w : WarehouseId) : belongsTo w row = decide (key.warehouse = w) := by
  unfold belongsTo
  rw [StockKey.ofBytes?_bytes? h, Option.map_some]
  by_cases hw : key.warehouse = w <;> simp [hw]

/-- The occupancy of every warehouse is the number of its rows. -/
def Tallied (db : Database) : Prop :=
  ∀ w : WarehouseId, (db.occupancy.held w.bytes).toNat = rowCount db w

theorem rowCount_written {db : Database} (hstock : db.stock.HoldsQuantities) {c : Change}
    (hrow : c.key.bytes? = some c.row) (hbefore : db.stock.held c.row = c.before)
    (w : WarehouseId) :
    (rowCount (c.written db) w : Int) = rowCount db w +
      if c.key.warehouse = w then
        (if c.after = 0 then 0 else 1) - (if c.before = 0 then 0 else 1)
      else 0 := by
  have hcount := Table.countKeys_setQuantity hstock (belongsTo w) c.row c.after
  have hunit : Table.unit (belongsTo w) c.row = if c.key.warehouse = w then 1 else 0 := by
    simp [Table.unit, belongsTo_row hrow]
  rw [hbefore, hunit] at hcount
  show ((db.stock.setQuantity c.row c.after).countKeys (belongsTo w) : Int) = _
  rw [hcount, rowCount]
  by_cases hw : c.key.warehouse = w <;> simp [hw]
  omega

/-- A change that makes no row and takes none away leaves the count. -/
theorem occupancy_of_not_moves {c : Change} (h : ¬ c.movesOccupancy = true) (count : UInt64) :
    c.occupancy count = count := by
  simp only [Change.movesOccupancy, bne_iff_ne, ne_eq, Decidable.not_not] at h
  unfold Change.occupancy
  by_cases hb : c.before = 0 <;> by_cases ha : c.after = 0 <;> simp_all

/-- The adjusted count is exact if it fits 64 bits. -/
theorem toNat_occupancy {c : Change} {count : UInt64} {n : Nat}
    (hn : (n : Int) =
      count.toNat + ((if c.after = 0 then 0 else 1) - (if c.before = 0 then 0 else 1)))
    (hfits : n ≤ maxUInt64) : (c.occupancy count).toNat = n := by
  unfold Change.occupancy
  by_cases hb : c.before = 0 <;> by_cases ha : c.after = 0 <;>
    simp only [hb, ha, if_true, if_false] at hn <;> simp [hb, ha] <;> omega

theorem held_written (db : Database) (c : Change) (w : WarehouseId) :
    (c.written db).occupancy.held w.bytes =
      if c.key.warehouse = w then c.occupancy (db.occupancy.held w.bytes)
      else db.occupancy.held w.bytes := by
  unfold Change.written
  by_cases hm : c.movesOccupancy = true
  · simp only [hm, if_true, Table.held_setQuantity]
    by_cases hw : c.key.warehouse = w
    · simp [hw]
    · have hne : w.bytes ≠ c.key.warehouse.bytes := fun h => hw (Ident.bytes_injective h).symm
      simp [hw, hne]
  · simp [hm, occupancy_of_not_moves hm]

/-- A change keeps the tally, unless it makes a row too many. -/
theorem Tallied.written {db : Database} (h : Tallied db) (hstock : db.stock.HoldsQuantities)
    {c : Change} (hrow : c.key.bytes? = some c.row) (hbefore : db.stock.held c.row = c.before)
    (hfew : ∀ w, rowCount (c.written db) w ≤ maxUInt64) : Tallied (c.written db) := by
  intro w
  have hcount := rowCount_written hstock hrow hbefore w
  rw [← h w] at hcount
  rw [held_written]
  split
  · rename_i hkey
    rw [if_pos hkey] at hcount
    exact toNat_occupancy hcount (hfew w)
  · rename_i hkey
    rw [if_neg hkey] at hcount
    omega

/-! ## A batch -/

/-- Changes keep the tally, unless one of them makes a row too many. -/
theorem Tallied.foldl {changes : List Change} {db : Database} (h : Tallied db)
    (hdb : db.HoldsQuantities) (hcurrent : Current db.stock changes)
    (hfew : ∀ n w, rowCount ((changes.take n).foldl Change.written db) w ≤ maxUInt64) :
    Tallied (changes.foldl Change.written db) := by
  induction changes generalizing db with
  | nil => exact h
  | cons c changes ih =>
    have hc := List.mem_cons_self (a := c) (l := changes)
    have hone : Tallied (c.written db) :=
      h.written hdb.stock (hcurrent.rows c hc) (hcurrent.before c hc) fun w => hfew 1 w
    exact ih hone (holdsQuantities_written hdb c) hcurrent.written fun n w => hfew (n + 1) w

theorem Tallied.applied {db : Database} (h : Tallied db) (hdb : db.HoldsQuantities)
    {batch : Batch} (hadm : ∀ m ∈ batch.toList, Admissible (onHand db m.1) m)
    (hfew : ∀ n levels db', applyBatch (batch.take n) db = .ok (levels, db') →
      ∀ w, rowCount db' w ≤ maxUInt64) : Tallied (applied batch db) := by
  refine h.foldl hdb (current_changes hadm) fun n w => ?_
  have htake : ∀ m ∈ (batch.take n).toList, Admissible (onHand db m.1) m :=
    fun m hm => hadm m (List.mem_of_mem_take hm)
  rw [← List.map_take]
  exact hfew n _ _ (applyBatch_of_admissible hdb htake) w

/-- Every change makes one row at most. -/
theorem rowCount_foldl_le {changes : List Change} {db : Database} (hdb : db.HoldsQuantities)
    (hcurrent : Current db.stock changes) (w : WarehouseId) :
    rowCount (changes.foldl Change.written db) w ≤ rowCount db w + changes.length := by
  induction changes generalizing db with
  | nil => exact Nat.le_refl _
  | cons c changes ih =>
    have hc := List.mem_cons_self (a := c) (l := changes)
    have hone := rowCount_written hdb.stock (hcurrent.rows c hc) (hcurrent.before c hc) w
    have hrest := ih (holdsQuantities_written hdb c) hcurrent.written
    have hup : rowCount (c.written db) w ≤ rowCount db w + 1 := by
      split at hone
      · split at hone <;> split at hone <;> omega
      · omega
    rw [List.foldl_cons, List.length_cons]
    omega

/-- The side condition on an operation holds if its batch has few keys. -/
theorem fewRows_of_size {db : Database} (hdb : db.HoldsQuantities) {op : Operation}
    (h : ∀ batch, Brings op db batch → ∀ w, rowCount db w + batch.size ≤ maxUInt64) :
    fewRows db op := by
  intro batch levels db' hbatch _ n levels' mid hmid w
  obtain ⟨hadm, rfl⟩ := applyBatch_inv hdb hmid
  have hle := rowCount_foldl_le hdb (current_changes hadm) w
  have hsize : (batch.take n).toList.length ≤ batch.size := List.length_take_le' n _
  rw [List.length_map] at hle
  exact Nat.le_trans hle (Nat.le_trans (Nat.add_le_add_left hsize _) (h batch hbatch w))

/-- A batch makes no row too many if its keys and the rows of stock together are few. -/
theorem fewRows_applyBatch {db : Database} (hdb : db.HoldsQuantities) {batch : Batch}
    (h : db.stock.size + batch.size ≤ maxUInt64) : fewRows db (.stock (.applyBatch batch)) := by
  refine fewRows_of_size hdb ?_
  rintro _ (hbatch | ⟨_, _, _, _, hposts, -⟩) w
  · cases hbatch
    exact Nat.le_trans (Nat.add_le_add_right List.countP_le_length _) h
  · cases hposts

/-! ## Keys -/

/-- The row key is one of stock. -/
def isStockKey (key _row : Bytes) : Prop := ∃ k : StockKey, k.bytes? = some key

/-- The row key is a warehouse. -/
def isWarehouseKey (key _row : Bytes) : Prop := ∃ w : WarehouseId, w.bytes = key

/-- Stock and occupancy have the rows that they should, and no other. -/
structure WellFormed (db : Database) : Prop where
  stock : db.stock.Every isStockKey
  occupancy : db.occupancy.Every isWarehouseKey
  tallied : Tallied db

theorem stockKeys_applied {db : Database} {batch : Batch} (h : db.stock.Every isStockKey)
    (hadm : ∀ m ∈ batch.toList, Admissible (onHand db m.1) m) :
    (applied batch db).stock.Every isStockKey :=
  every_applied h hadm fun m _ _ _ hkey => ⟨m.1, hkey⟩

theorem warehouseKeys_foldl {changes : List Change} {db : Database}
    (h : db.occupancy.Every isWarehouseKey) :
    (changes.foldl Change.written db).occupancy.Every isWarehouseKey := by
  induction changes generalizing db with
  | nil => exact h
  | cons c changes ih =>
    refine ih ?_
    unfold Change.written
    dsimp only
    split
    · exact h.setQuantity fun _ => ⟨c.key.warehouse, rfl⟩
    · exact h

theorem WellFormed.applied {db : Database} (h : WellFormed db) (hdb : db.HoldsQuantities)
    {batch : Batch} {levels : List StockLevel} {db' : Database}
    (happlied : applyBatch batch db = .ok (levels, db'))
    (hfew : ∀ n levels db', applyBatch (batch.take n) db = .ok (levels, db') →
      ∀ w, rowCount db' w ≤ maxUInt64) : WellFormed db' := by
  obtain ⟨hadm, rfl⟩ := applyBatch_inv hdb happlied
  exact ⟨stockKeys_applied h.stock hadm, warehouseKeys_foldl h.occupancy,
    h.tallied.applied hdb hadm hfew⟩

/-! ## Histories -/

variable {σ : Type} {hook : LedgerHook σ} {world : Database × σ}

theorem wellFormed_of_reachable (h : Reachable hook fewRows world) : WellFormed world.1 := by
  refine h.induction (fun hcore ha => ?_) ⟨Table.every_empty, Table.every_empty, fun w => rfl⟩ ?_
  · refine ⟨?_, ?_, fun w => ?_⟩
    · rw [hcore.stock]
      exact ha.stock
    · rw [hcore.occupancy]
      exact ha.occupancy
    · rw [hcore.occupancy, rowCount, hcore.stock]
      exact ha.tallied w
  · intro op db' world' hreach hfits hfew hform heffect
    have hdb := hreach.integrity.quantities
    cases heffect with
    | moved asked applied =>
      exact hform.applied hdb applied (hfew _ _ _ (.inl asked) applied)
    | posted asked ready applied encoded =>
      have hbatch := hform.applied hdb applied
        (hfew _ _ _ (.inr ⟨_, _, _, _, asked, ready, rfl⟩) applied)
      exact ⟨hbatch.stock, hbatch.occupancy, hbatch.tallied⟩
    | _ => exact ⟨hform.stock, hform.occupancy, hform.tallied⟩

/-- In every reachable database the rows of stock belong to keys and hold quantities other than
zero, and the rows of occupancy are those of the warehouses with rows of stock, and count them. -/
theorem occupancy_counts_rows (h : Reachable hook fewRows world) :
    (∀ key row, world.1.stock.get? key = some row →
      ∃ (k : StockKey) (q : UInt64), StockKey.ofBytes? key = some k ∧ k.bytes? = some key ∧
        q ≠ 0 ∧ row = Bytes.ofUInt64 q) ∧
    (∀ w : WarehouseId,
      (rowCount world.1 w = 0 → world.1.occupancy.get? w.bytes = none) ∧
      (rowCount world.1 w ≠ 0 → ∃ n : UInt64, n.toNat = rowCount world.1 w ∧
        world.1.occupancy.get? w.bytes = some (Bytes.ofUInt64 n))) ∧
    ∀ key row, world.1.occupancy.get? key = some row →
      ∃ w : WarehouseId, key = w.bytes ∧ rowCount world.1 w ≠ 0 := by
  have hdb := h.integrity.quantities
  have hform := wellFormed_of_reachable h
  have hrow (w : WarehouseId) := hdb.occupancy.get? w.bytes
  have hheld (w : WarehouseId) : world.1.occupancy.held w.bytes = 0 ↔ rowCount world.1 w = 0 := by
    rw [← hform.tallied w]
    exact ⟨fun hz => by simp [hz], fun hz => UInt64.toNat_inj.mp hz⟩
  refine ⟨fun key row hkey => ?_, fun w => ⟨fun hzero => ?_, fun hrows => ?_⟩,
    fun key row hkey => ?_⟩
  · obtain ⟨k, hk⟩ := hform.stock key row hkey
    obtain ⟨q, hq, hrow⟩ := hdb.stock key row hkey
    exact ⟨k, q, StockKey.ofBytes?_bytes? hk, hk, hq, hrow⟩
  · rw [hrow, if_pos ((hheld w).mpr hzero)]
  · rw [hrow, if_neg fun hz => hrows ((hheld w).mp hz)]
    exact ⟨_, hform.tallied w, rfl⟩
  · obtain ⟨w, rfl⟩ := hform.occupancy key row hkey
    refine ⟨w, rfl, fun hzero => ?_⟩
    rw [hrow, if_pos ((hheld w).mpr hzero)] at hkey
    cases hkey

/-- Two products come into one warehouse, and one of them into another. -/
def arrivals : Operation :=
  .stock (.applyBatch (.ofList
    [(⟨⟨"w"⟩, ⟨"p"⟩⟩, 5), (⟨⟨"v"⟩, ⟨"p"⟩⟩, 1), (⟨⟨"w"⟩, ⟨"q"⟩⟩, 2)]))

theorem occupancy_counts_rows_arrivals :
    ∃ world : Database × Unit, Reachable .silent fewRows world ∧ rowCount world.1 ⟨"w"⟩ = 2 ∧
      ∃ n : UInt64, n.toNat = 2 ∧
        world.1.occupancy.get? (Ident.bytes (⟨"w"⟩ : WarehouseId)) = some (Bytes.ofUInt64 n) := by
  have hfits : arrivals.Fits := by
    simp only [arrivals, Operation.Fits]
    decide
  have hfew : fewRows ∅ arrivals := by
    refine fewRows_of_size ⟨Table.holdsQuantities_empty, Table.holdsQuantities_empty⟩ ?_
    rintro batch (hbatch | ⟨_, _, _, _, hposts, -⟩) w
    · cases hbatch
      show 0 + 3 ≤ maxUInt64
      decide
    · cases hposts
  have hreach : Reachable (σ := Unit) .silent fewRows
      (arrivals.run LedgerHook.silent.run (∅, ())).2 := .step (.start ()) hfits hfew
  have htwo : rowCount (arrivals.run LedgerHook.silent.run (∅, ())).2.1 ⟨"w"⟩ = 2 := by decide
  obtain ⟨n, hn, hget⟩ := ((occupancy_counts_rows hreach).2.1 ⟨"w"⟩).2 (by simp [htwo])
  exact ⟨_, hreach, htwo, n, hn.trans htwo, hget⟩

end Stock

end Depot
