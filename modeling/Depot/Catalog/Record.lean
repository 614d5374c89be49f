import Depot.Ident
/-!
# Products and warehouses

The entries of the catalog and their stored form.
-/

namespace Depot

open Cbor

/-- A product, with its price per unit in the smallest unit of currency. -/
structure Product where
  id : ProductId
  name : String
  unitPrice : UInt64
  deriving DecidableEq, Repr

/-- A warehouse and where it is. -/
structure Warehouse where
  id : WarehouseId
  location : String
  deriving DecidableEq, Repr

instance : Stored Product where
  encode p := .ok (writeRecord [writeText p.id.text, writeText p.name, writeNat p.unitPrice.toNat])
  read input := do
    let (left, rest) ← readArrayHead input
    let (id, left, rest) ← readField Stored.read left rest
    let (name, left, rest) ← readField readText left rest
    let (unitPrice, left, rest) ← readField readUInt64 left rest
    return (⟨id, name, unitPrice⟩, ← readRecordEnd left rest)

instance : Stored Warehouse where
  encode w := .ok (writeRecord [writeText w.id.text, writeText w.location])
  read input := do
    let (left, rest) ← readArrayHead input
    let (id, left, rest) ← readField Stored.read left rest
    let (location, left, rest) ← readField readText left rest
    return (⟨id, location⟩, ← readRecordEnd left rest)

end Depot
