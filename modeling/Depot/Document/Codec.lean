import Depot.Cbor.Codec
import Depot.Document.Basic
import Depot.Ident
/-!
# Stored form of documents

Documents and their parts are records whose fields stand in the order of their declaration.
Kinds, statuses and reasons of failure are enumerations: the index of the alternative, counted
from zero, and the record of its fields.
-/

namespace Depot

open Cbor

/-! ## Enumerations -/

/-- An alternative without fields, by its index; the fields it has in the input are skipped. -/
def readPlain {α : Type} (alternative? : Int → Option α) : Reader α := fun input => do
  let (index, rest) ← readAlternativeHead input
  match alternative? index with
  | some x => return (x, ← skip rest)
  | none => .error (.unknownVariant rest)

/-- The index of a kind. -/
def DocumentKind.index : DocumentKind → Nat
  | .inbound => 0 | .outbound => 1 | .transfer => 2 | .sale => 3

/-- The kind with an index. -/
def DocumentKind.ofIndex? : Int → Option DocumentKind
  | 0 => some .inbound | 1 => some .outbound | 2 => some .transfer | 3 => some .sale | _ => none

/-- The index of a status. -/
def DocumentStatus.index : DocumentStatus → Nat
  | .draft => 0 | .posted => 1 | .failed => 2

/-- The status with an index. -/
def DocumentStatus.ofIndex? : Int → Option DocumentStatus
  | 0 => some .draft | 1 => some .posted | 2 => some .failed | _ => none

instance : Stored DocumentKind where
  encode kind := .ok (writeAlternative kind.index [])
  read := readPlain DocumentKind.ofIndex?

instance : Stored DocumentStatus where
  encode status := .ok (writeAlternative status.index [])
  read := readPlain DocumentStatus.ofIndex?

/-! ## Parts of documents -/

/-- The stored form of a line. It holds no time, so every line has one. -/
def DocumentLine.bytes (line : DocumentLine) : Bytes :=
  writeRecord [writeText line.product.text, writeNat line.quantity.toNat,
    line.unitPrice.map fun price => writeNat price.toNat]

instance : Stored DocumentLine where
  encode line := .ok line.bytes
  read input := do
    let (left, rest) ← readArrayHead input
    let (product, left, rest) ← readField Stored.read left rest
    let (quantity, left, rest) ← readField readUInt64 left rest
    let (unitPrice, left, rest) ← readOptional readUInt64 left rest
    return (⟨product, quantity, unitPrice⟩, ← readRecordEnd left rest)

instance : Stored PostingRecord where
  encode record := do
    return writeRecord [writeText record.approvedBy, ← encode record.postedAt,
      writeText record.contentHash]
  read input := do
    let (left, rest) ← readArrayHead input
    let (approvedBy, left, rest) ← readField readText left rest
    let (postedAt, left, rest) ← readField Stored.read left rest
    let (contentHash, left, rest) ← readField readText left rest
    return (⟨approvedBy, postedAt, contentHash⟩, ← readRecordEnd left rest)

instance : Stored Shortfall where
  encode s := .ok (writeRecord
    [writeText s.warehouse.text, writeText s.product.text, writeNat s.available.toNat,
     writeNat s.requested.toNat])
  read input := do
    let (left, rest) ← readArrayHead input
    let (warehouse, left, rest) ← readField Stored.read left rest
    let (product, left, rest) ← readField Stored.read left rest
    let (available, left, rest) ← readField readUInt64 left rest
    let (requested, left, rest) ← readField readUInt64 left rest
    return (⟨warehouse, product, available, requested⟩, ← readRecordEnd left rest)

instance : Stored FailureReason where
  encode
    | .insufficientStock shortfall => do
      return writeAlternative 0 [← encode shortfall]
    | .voided voidedBy reason =>
      .ok (writeAlternative 1 [writeText voidedBy, reason.map writeText])
  read input := do
    let (index, rest) ← readAlternativeHead input
    match index with
    | 0 =>
      let (left, rest) ← readArrayHead rest
      let (shortfall, left, rest) ← readField Stored.read left rest
      return (.insufficientStock shortfall, ← readRecordEnd left rest)
    | 1 =>
      let (left, rest) ← readArrayHead rest
      let (voidedBy, left, rest) ← readField readText left rest
      let (reason, left, rest) ← readOptional readText left rest
      return (.voided voidedBy reason, ← readRecordEnd left rest)
    | _ => .error (.unknownVariant rest)

instance : Stored FailureRecord where
  encode record := do
    return writeRecord [← encode record.reason, ← encode record.failedAt]
  read input := do
    let (left, rest) ← readArrayHead input
    let (reason, left, rest) ← readField Stored.read left rest
    let (failedAt, left, rest) ← readField Stored.read left rest
    return (⟨reason, failedAt⟩, ← readRecordEnd left rest)

/-! ## Documents -/

instance : Stored Document where
  encode d := do
    return writeRecord
      [← encode d.id, ← encode d.kind, ← encode d.status, writeText d.createdBy,
       ← encode d.createdAt, ← d.source.mapM encode, ← d.destination.mapM encode,
       ← d.customer.mapM encode, d.note.map writeText, ← encode d.lines,
       ← d.posting.mapM encode, ← d.failure.mapM encode]
  read input := do
    let (left, rest) ← readArrayHead input
    let (id, left, rest) ← readField Stored.read left rest
    let (kind, left, rest) ← readField Stored.read left rest
    let (status, left, rest) ← readField Stored.read left rest
    let (createdBy, left, rest) ← readField readText left rest
    let (createdAt, left, rest) ← readField Stored.read left rest
    let (source, left, rest) ← readOptional Stored.read left rest
    let (destination, left, rest) ← readOptional Stored.read left rest
    let (customer, left, rest) ← readOptional Stored.read left rest
    let (note, left, rest) ← readOptional readText left rest
    let (lines, left, rest) ← readField Stored.read left rest
    let (posting, left, rest) ← readOptional Stored.read left rest
    let (failure, left, rest) ← readOptional Stored.read left rest
    let rest ← readRecordEnd left rest
    return (⟨id, kind, status, createdBy, createdAt, source, destination, customer, note, lines,
      posting, failure⟩, rest)

end Depot
