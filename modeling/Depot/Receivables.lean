import Depot.Document.Totals
import Depot.Posting
/-!
# What customers owe

Every posted sale to a customer adds its value to what the customer owes and leaves one purchase
record. Recording the same sale for the same customer again changes nothing.

A purchase stands under the customer's identifier, a zero byte, and the document's identifier, so
the purchases of a customer are found by the beginning of their keys.
-/

namespace Depot

open Cbor

/-- A sale as recorded for its customer. -/
structure Purchase where
  customer : CustomerId
  document : DocumentId
  totalValue : UInt64
  recordedAt : Timestamp
  deriving DecidableEq, Repr

instance : Stored Purchase where
  encode p := do
    return writeRecord [writeText p.customer.text, writeText p.document.text,
      writeNat p.totalValue.toNat, ← encode p.recordedAt]
  read input := do
    let (left, rest) ← readArrayHead input
    let (customer, left, rest) ← readField Stored.read left rest
    let (document, left, rest) ← readField Stored.read left rest
    let (totalValue, left, rest) ← readField readUInt64 left rest
    let (recordedAt, left, rest) ← readField Stored.read left rest
    return (⟨customer, document, totalValue, recordedAt⟩, ← readRecordEnd left rest)

namespace Receivables

/-- The beginning of the keys of a customer's purchases. -/
def purchasesStart (customer : CustomerId) : Bytes := customer.bytes ++ [0]

/-- The key of a purchase. -/
def purchaseKey (customer : CustomerId) (document : DocumentId) : Bytes :=
  purchasesStart customer ++ document.bytes

/-- What a customer owes; nothing if there is no row. An unreadable balance is reported by its
bytes. -/
def balance (customer : CustomerId) (db : Database) : Except StoreError UInt64 :=
  match db.receivables.get? customer.bytes with
  | none => .ok 0
  | some row => readQuantity row row

/-- Record a sale, unless it is recorded already; tells which. -/
def record (customer : CustomerId) (document : DocumentId) (totalValue : UInt64)
    (now : Timestamp) : UnitOfWork StoreError Bool := fun db => do
  let row ← encodeRow (⟨customer, document, totalValue, now⟩ : Purchase)
  let key := purchaseKey customer document
  if db.purchases.contains key then return (false, db)
  let owed ← balance customer db
  return (true, { db with
    receivables := db.receivables.insert customer.bytes (Bytes.ofUInt64 (satAdd owed totalValue))
    purchases := db.purchases.insert key row })

/-- The purchases of a customer, in the order of document identifiers. -/
def purchases (customer : CustomerId) (db : Database) : Except StoreError (List Purchase) :=
  (db.purchases.startingWith (purchasesStart customer)).mapM fun row => decodeRow row.2

/-- Record a posted document, if it is a sale to a customer. -/
def onSalePosted (d : Document) (now : Timestamp) : UnitOfWork StoreError Unit := fun db => do
  match d.kind, d.customer with
  | .sale, some customer =>
    let (_, db) ← record customer d.id d.totalValue now db
    return ((), db)
  | _, _ => return ((), db)

/-- The hook that records posted sales. -/
def hook {σ : Type} (now : Timestamp) : SaleHook σ := fun d world =>
  let (answer, db) := UnitOfWork.commit (onSalePosted d now) world.1
  (answer.mapError StoreError.message, (db, world.2))

end Receivables

end Depot
