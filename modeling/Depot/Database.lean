import Depot.Cbor.Codec
import Depot.SortedMap
/-!
# The database

The state of the system is seven tables of byte strings. Every operation either succeeds with a
new database or reports an error and leaves the old one: this is `UnitOfWork`, a computation on
the database that may fail, and `UnitOfWork.commit`, which runs one.

Numbers are held as eight big-endian bytes, records in their stored form. Rows that hold neither
are reported as errors, never mended.

Main statements: `Table.quantity_setQuantity` says what is read after a quantity was set,
`UnitOfWork.commit_error` that a failed unit of work has written nothing, and
`UnitOfWork.commitOn_error` that a commit stands which the medium does not confirm.
-/

namespace Depot

/-- A table of rows in the order of their keys. -/
abbrev Table := SortedMap Bytes Bytes

/-- The tables of the system. -/
structure Database where
  documents : Table
  stock : Table
  /-- How many rows of the stock table each warehouse has. -/
  occupancy : Table
  warehouses : Table
  products : Table
  /-- What each customer owes. -/
  receivables : Table
  purchases : Table
  deriving DecidableEq

/-- The database without rows. -/
def Database.empty : Database := ⟨∅, ∅, ∅, ∅, ∅, ∅, ∅⟩

instance : EmptyCollection Database := ⟨Database.empty⟩

/-- The names of the tables. -/
inductive TableName where
  | documents | stock | occupancy | warehouses | products | receivables | purchases
  deriving DecidableEq, Repr

namespace TableName

/-- The names of all tables. -/
def all : List TableName :=
  [.documents, .stock, .occupancy, .warehouses, .products, .receivables, .purchases]

/-- The name as a text. -/
def text : TableName → String
  | .documents => "documents"
  | .stock => "stock"
  | .occupancy => "occupancy"
  | .warehouses => "warehouses"
  | .products => "products"
  | .receivables => "receivables"
  | .purchases => "purchases"

end TableName

/-- The table with a name. -/
def Database.table (db : Database) : TableName → Table
  | .documents => db.documents
  | .stock => db.stock
  | .occupancy => db.occupancy
  | .warehouses => db.warehouses
  | .products => db.products
  | .receivables => db.receivables
  | .purchases => db.purchases

/-- The database with another table under a name. -/
def Database.setTable (db : Database) (name : TableName) (t : Table) : Database :=
  match name with
  | .documents => { db with documents := t }
  | .stock => { db with stock := t }
  | .occupancy => { db with occupancy := t }
  | .warehouses => { db with warehouses := t }
  | .products => { db with products := t }
  | .receivables => { db with receivables := t }
  | .purchases => { db with purchases := t }

/-! ## Errors of the store -/

/-- A failure of the medium that holds the database. -/
inductive StorageFault where
  | unsupported (operation : String)
  deriving DecidableEq, Repr

/-- The failure in words. -/
def StorageFault.message : StorageFault → String
  | .unsupported operation => "Unsupported: " ++ operation

/-- Failures below the rules of the domain: of the medium, of the stored form of records, of
generating identifiers, and of rows that hold no number. -/
inductive StoreError where
  | storage (fault : StorageFault)
  | encode (detail : String)
  | decode (fault : Cbor.Fault)
  | id (detail : String)
  /-- A warehouse identifier of so many bytes fits no key. -/
  | keyTooLong (length : Nat)
  /-- The row with this key, or the balance with these bytes, holds no quantity. -/
  | corruptQuantity (row : Bytes)
  deriving DecidableEq, Repr

/-- The failure in words. -/
def StoreError.message : StoreError → String
  | .storage fault => "storage failure: " ++ fault.message
  | .encode detail => "failed to encode record: " ++ detail
  | .decode _ => "failed to decode record"
  | .id detail => "failed to generate id: " ++ detail
  | .keyTooLong length => s!"key component of {length} bytes exceeds the supported length"
  | .corruptQuantity row =>
    "corrupt stock quantity for key [" ++ ", ".intercalate (row.map fun b => toString b.toNat) ++
      "]"

/-! ## Rows -/

/-- The stored form of a value, as a row to be written. -/
def encodeRow {α : Type} [Stored α] (value : α) : Except StoreError Bytes :=
  match encode value with
  | .ok row => .ok row
  | .error fault => .error (.encode fault.message)

/-- The value that a row holds. -/
def decodeRow {α : Type} [Stored α] (row : Bytes) : Except StoreError α :=
  match decode row with
  | .ok value => .ok value
  | .error fault => .error (.decode fault)

/-- The record at a key, if there is one. -/
def Table.record? {α : Type} [Stored α] (t : Table) (key : Bytes) :
    Except StoreError (Option α) :=
  match t.get? key with
  | none => .ok none
  | some row => do return some (← decodeRow row)

/-- The records of all rows, in the order of their keys. -/
def Table.records {α : Type} [Stored α] (t : Table) : Except StoreError (List α) :=
  t.toList.mapM fun row => decodeRow row.2

/-- The quantity that a row holds. -/
def readQuantity (key row : Bytes) : Except StoreError UInt64 :=
  match Bytes.toUInt64? row with
  | some quantity => .ok quantity
  | none => .error (.corruptQuantity key)

/-- The quantity at a key; a missing row means zero. -/
def Table.quantity (t : Table) (key : Bytes) : Except StoreError UInt64 :=
  match t.get? key with
  | none => .ok 0
  | some row => readQuantity key row

/-- Set the quantity at a key. Zero is held as no row. -/
def Table.setQuantity (t : Table) (key : Bytes) (quantity : UInt64) : Table :=
  if quantity = 0 then t.erase key else t.insert key (Bytes.ofUInt64 quantity)

/-- A quantity that is set is read back, and no other quantity changes. -/
theorem Table.quantity_setQuantity (t : Table) (key key' : Bytes) (quantity : UInt64) :
    (t.setQuantity key quantity).quantity key' =
      if key' = key then .ok quantity else t.quantity key' := by
  unfold Table.setQuantity Table.quantity
  by_cases hk : key' = key
  · subst hk
    by_cases hq : quantity = 0
    · simp [hq, SortedMap.get?_erase]
    · simp [hq, SortedMap.get?_insert, readQuantity, Bytes.toUInt64?_ofUInt64]
  · have hc : compare key' key ≠ .eq := fun h => hk (Std.LawfulEqOrd.eq_of_compare h)
    by_cases hq : quantity = 0
    · simp [hq, hk, SortedMap.get?_erase, hc]
    · simp [hq, hk, SortedMap.get?_insert, hc]

/-- The rows whose keys begin with `start`, in the order of their keys. -/
def Table.startingWith (t : Table) (start : Bytes) : List (Bytes × Bytes) :=
  t.toList.filter fun row => start.isPrefixOf row.1

/-! ## Units of work -/

/-- A computation on the database that gives a value and a new database, or an error. -/
abbrev UnitOfWork (ε α : Type) := Database → Except ε (α × Database)

/-- Run a unit of work: an error leaves the database as it was. -/
def UnitOfWork.commit {ε α : Type} (work : UnitOfWork ε α) (db : Database) :
    Except ε α × Database :=
  match work db with
  | .ok (value, db') => (.ok value, db')
  | .error e => (.error e, db)

theorem UnitOfWork.commit_error {ε α : Type} {work : UnitOfWork ε α} {db : Database} {e : ε}
    (h : (commit work db).1 = .error e) : (commit work db).2 = db := by
  unfold commit at h ⊢
  split at h
  · cases h
  · simp_all

/-- Run a unit of work on a medium that answers whether it keeps what is committed. If it does not,
its error is reported although the commit stands. -/
def UnitOfWork.commitOn {ε α : Type} (confirmed : Except ε Unit) (work : UnitOfWork ε α)
    (db : Database) : Except ε α × Database :=
  match commit work db with
  | (.ok value, db') => (confirmed.map fun () => value, db')
  | (.error e, db') => (.error e, db')

theorem UnitOfWork.commitOn_ok {ε α : Type} (work : UnitOfWork ε α) (db : Database) :
    commitOn (.ok ()) work db = commit work db := by
  unfold commitOn
  split <;> rename_i heq <;> exact heq.symm

theorem UnitOfWork.commitOn_error {ε α : Type} (e : ε) (work : UnitOfWork ε α) (db : Database) :
    commitOn (.error e) work db =
      ((commit work db).1.bind fun _ => .error e, (commit work db).2) := by
  unfold commitOn
  split <;> rename_i heq <;> rw [heq] <;> rfl

end Depot
