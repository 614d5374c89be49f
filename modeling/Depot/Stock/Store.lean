import Depot.Database
import Depot.Saturating
import Depot.Stock.Batch
/-!
# Stock

The stock table holds the quantity of every product in every warehouse; a row that would hold
zero is not there. The occupancy table counts the rows of each warehouse.

Stock changes by batches only. A batch is planned first, all quantities read and all sums checked
in key order, and written only if every net movement is possible. So a refused batch has written
nothing, and the first key that is refused decides the error.
-/

namespace Depot

/-! ## Errors -/

/-- Why a batch is refused. -/
inductive Refusal where
  /-- More is taken than is there. -/
  | insufficient (shortfall : Shortfall)
  /-- The quantity would not fit 64 bits. -/
  | overflow (key : StockKey)
  /-- The sum of quantity and net movement would not fit 128 bits with a sign. -/
  | outOfRange (key : StockKey)
  deriving DecidableEq, Repr

/-- The refusal in words. -/
def Refusal.message : Refusal → String
  | .insufficient shortfall => shortfall.message
  | .overflow key =>
    s!"quantity of {key.product.text} in {key.warehouse.text} would overflow"
  | .outOfRange key =>
    s!"movement of {key.product.text} in {key.warehouse.text} is out of range"

/-- Why an operation on stock fails. -/
inductive StockError where
  | refused (refusal : Refusal)
  | store (error : StoreError)
  deriving DecidableEq, Repr

/-- The failure in words. -/
def StockError.message : StockError → String
  | .refused refusal => refusal.message
  | .store error => error.message

namespace Stock

/-! ## Planning a batch -/

/-- A row of the stock table before and after a batch. -/
structure Change where
  key : StockKey
  row : Bytes
  before : UInt64
  after : UInt64
  deriving DecidableEq, Repr

/-- The quantity of a key after a net movement, if the movement is possible. -/
def next (key : StockKey) (quantity : UInt64) (delta : Int) : Except Refusal UInt64 :=
  let sum : Int := quantity.toNat + delta
  if !fitsInt128 sum then .error (.outOfRange key)
  else if sum < 0 then
    .error (.insufficient ⟨key.warehouse, key.product, quantity, clamp delta.natAbs⟩)
  else if maxUInt64 < sum.toNat then .error (.overflow key)
  else .ok (UInt64.ofNat sum.toNat)

/-- The key of a row, or the error that the warehouse identifier is too long. -/
def rowOf (key : StockKey) : Except StoreError Bytes :=
  match key.bytes? with
  | some row => .ok row
  | none => .error (.keyTooLong key.warehouse.bytes.length)

/-- The change that a net movement makes. -/
def planOne (stock : Table) (move : StockKey × Int) : Except StockError Change := do
  let row ← (rowOf move.1).mapError .store
  let before ← (stock.quantity row).mapError .store
  let after ← (next move.1 before move.2).mapError .refused
  return ⟨move.1, row, before, after⟩

/-- The changes that a batch makes, in key order. -/
def plan (stock : Table) (batch : Batch) : Except StockError (List Change) :=
  batch.toList.mapM (planOne stock)

/-! ## Writing a batch -/

/-- The occupancy of a warehouse after one of its rows came or went. -/
def Change.occupancy (c : Change) (count : UInt64) : UInt64 :=
  if c.before = 0 ∧ c.after ≠ 0 then satAdd count 1
  else if c.before ≠ 0 ∧ c.after = 0 then satSub count 1
  else count

/-- Whether the change makes a row or takes one away. -/
def Change.movesOccupancy (c : Change) : Bool := (c.before == 0) != (c.after == 0)

/-- Write a change. -/
def Change.write (db : Database) (c : Change) : Except StoreError Database :=
  let stock := db.stock.setQuantity c.row c.after
  if c.movesOccupancy then do
    let warehouse := c.key.warehouse.bytes
    let count ← db.occupancy.quantity warehouse
    return { db with
      stock := stock
      occupancy := db.occupancy.setQuantity warehouse (c.occupancy count) }
  else .ok { db with stock := stock }

/-- The level that the change leaves. -/
def Change.level (c : Change) : StockLevel := ⟨c.key, c.after⟩

/-- Apply a batch, giving the levels it leaves in key order. -/
def applyBatch (batch : Batch) : UnitOfWork StockError (List StockLevel) := fun db => do
  let changes ← plan db.stock batch
  let db ← (changes.foldlM Change.write db).mapError .store
  return (changes.map Change.level, db)

/-- Apply one movement, giving the quantity it leaves. -/
def applyDelta (key : StockKey) (delta : Int) : UnitOfWork StockError UInt64 := fun db => do
  let (levels, db) ← applyBatch (.ofList [(key, delta)]) db
  return ((levels.head?.map StockLevel.quantity).getD 0, db)

/-! ## Reading stock -/

/-- The quantity of a product in a warehouse; zero if there is no row. -/
def quantity (key : StockKey) (db : Database) : Except StockError UInt64 :=
  (do db.stock.quantity (← rowOf key) : Except StoreError UInt64).mapError .store

/-- How many rows of the stock table belong to a warehouse. -/
def occupancy (warehouse : WarehouseId) (db : Database) : Except StoreError UInt64 :=
  db.occupancy.quantity warehouse.bytes

/-- The level that a row holds. Its quantity is read before its key. -/
def readLevel (row : Bytes × Bytes) : Except StoreError StockLevel := do
  let quantity ← readQuantity row.1 row.2
  match StockKey.ofBytes? row.1 with
  | some key => return ⟨key, quantity⟩
  | none => .error (.corruptQuantity row.1)

/-- What a warehouse holds, in the order of product identifiers. -/
def warehouseLevels (warehouse : WarehouseId) (db : Database) :
    Except StockError (List StockLevel) :=
  match StockKey.rowStart? warehouse with
  | none => .error (.store (.keyTooLong warehouse.bytes.length))
  | some start => ((db.stock.startingWith start).mapM readLevel).mapError .store

/-- What a row adds to the total of a product. Only rows of that product are read. -/
def addRow (product : ProductId) (total : UInt64) (row : Bytes × Bytes) :
    Except StoreError UInt64 :=
  match StockKey.ofBytes? row.1 with
  | none => .error (.corruptQuantity row.1)
  | some key =>
    if key.product = product then do return satAdd total (← readQuantity row.1 row.2)
    else .ok total

/-- The quantity of a product in all warehouses together. -/
def productTotal (product : ProductId) (db : Database) : Except StockError UInt64 :=
  (db.stock.toList.foldlM (addRow product) 0).mapError .store

end Stock

end Depot
