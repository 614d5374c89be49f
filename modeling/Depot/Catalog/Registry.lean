import Depot.Blank
import Depot.Catalog.Record
import Depot.Stock.Store
/-!
# The catalog

Products and warehouses are registered, looked up and changed here. Names and locations are
checked before anything is read. A warehouse can be removed while it holds no stock, which is
read off its occupancy; products are never removed.
-/

namespace Depot

/-- Why a name or location is not accepted. -/
inductive TextFault where
  | emptyName
  | longName
  | emptyLocation
  | longLocation
  deriving DecidableEq, Repr

/-- The fault in words. -/
def TextFault.message : TextFault → String
  | .emptyName => "product name cannot be empty"
  | .longName => "product name cannot exceed 100 characters"
  | .emptyLocation => "warehouse location cannot be empty"
  | .longLocation => "warehouse location cannot exceed 200 characters"

/-- Why an operation on the catalog fails. -/
inductive CatalogError where
  | warehouseNotFound (id : WarehouseId)
  | productNotFound (id : ProductId)
  | warehouseNotEmpty (id : WarehouseId)
  | invalid (fault : TextFault)
  | store (error : StoreError)
  deriving DecidableEq, Repr

/-- The failure in words. -/
def CatalogError.message : CatalogError → String
  | .warehouseNotFound id => s!"warehouse {id.text} not found"
  | .productNotFound id => s!"product {id.text} not found"
  | .warehouseNotEmpty id => s!"warehouse {id.text} still holds stock"
  | .invalid fault => fault.message
  | .store error => error.message

namespace Catalog

/-! ## Checks -/

/-- The greatest number of characters of a product name. -/
def maxNameLength : Nat := 100

/-- The greatest number of characters of a location. -/
def maxLocationLength : Nat := 200

/-- A product name is not blank and not too long. -/
def checkName (name : String) : Except CatalogError Unit :=
  if isBlank name then .error (.invalid .emptyName)
  else if maxNameLength < name.length then .error (.invalid .longName)
  else .ok ()

/-- A location is not blank and not too long. -/
def checkLocation (location : String) : Except CatalogError Unit :=
  if isBlank location then .error (.invalid .emptyLocation)
  else if maxLocationLength < location.length then .error (.invalid .longLocation)
  else .ok ()

/-! ## Products -/

/-- The product with an identifier, if it is registered. -/
def product? (id : ProductId) (db : Database) : Except StoreError (Option Product) :=
  db.products.record? id.bytes

/-- The product with an identifier. -/
def product (id : ProductId) (db : Database) : Except CatalogError Product := do
  match ← (product? id db).mapError .store with
  | some p => return p
  | none => .error (.productNotFound id)

/-- Write a product under an identifier. -/
def putProduct (id : ProductId) (p : Product) : UnitOfWork CatalogError Product := fun db => do
  let row ← (encodeRow p).mapError .store
  return (p, { db with products := db.products.insert id.bytes row })

/-- Register a product under a fresh identifier. -/
def addProduct (id : ProductId) (name : String) (unitPrice : UInt64) :
    UnitOfWork CatalogError Product := fun db => do
  checkName name
  putProduct id ⟨id, name, unitPrice⟩ db

/-- Change the name or price of a product. -/
def updateProduct (id : ProductId) (name : Option String) (unitPrice : Option UInt64) :
    UnitOfWork CatalogError Product := fun db => do
  name.forM checkName
  let p ← product id db
  putProduct id { p with name := name.getD p.name, unitPrice := unitPrice.getD p.unitPrice } db

/-! ## Warehouses -/

/-- The warehouse with an identifier, if it is registered. -/
def warehouse? (id : WarehouseId) (db : Database) : Except StoreError (Option Warehouse) :=
  db.warehouses.record? id.bytes

/-- The warehouse with an identifier. -/
def warehouse (id : WarehouseId) (db : Database) : Except CatalogError Warehouse := do
  match ← (warehouse? id db).mapError .store with
  | some w => return w
  | none => .error (.warehouseNotFound id)

/-- All warehouses, in the order of their identifiers. -/
def warehouses (db : Database) : Except CatalogError (List Warehouse) :=
  db.warehouses.records.mapError .store

/-- Write a warehouse under an identifier. -/
def putWarehouse (id : WarehouseId) (w : Warehouse) : UnitOfWork CatalogError Warehouse :=
  fun db => do
    let row ← (encodeRow w).mapError .store
    return (w, { db with warehouses := db.warehouses.insert id.bytes row })

/-- Register a warehouse under a fresh identifier. -/
def addWarehouse (id : WarehouseId) (location : String) : UnitOfWork CatalogError Warehouse :=
  fun db => do
    checkLocation location
    putWarehouse id ⟨id, location⟩ db

/-- Change the location of a warehouse. -/
def relabelWarehouse (id : WarehouseId) (location : String) : UnitOfWork CatalogError Warehouse :=
  fun db => do
    checkLocation location
    let w ← warehouse id db
    putWarehouse id { w with location := location } db

/-- Remove a warehouse that holds no stock. -/
def removeWarehouse (id : WarehouseId) : UnitOfWork CatalogError Unit := fun db => do
  let _ ← warehouse id db
  let count ← (Stock.occupancy id db).mapError .store
  if count ≠ 0 then .error (.warehouseNotEmpty id)
  return ((), { db with warehouses := db.warehouses.erase id.bytes })

end Catalog

end Depot
