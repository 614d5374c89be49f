import Depot.Stock.Key
import Depot.Timestamp
/-!
# Documents

A document moves stock: an import into a warehouse, an export or a sale out of one, a transfer
from one to another. It is made as a draft and ends as posted, with a record of who approved it
and a seal over its lines, or as failed, with the reason.
-/

namespace Depot

/-- What a document does to stock. -/
inductive DocumentKind where
  /-- Stock comes in from outside. -/
  | inbound
  /-- Stock goes out. -/
  | outbound
  /-- Stock changes its warehouse. -/
  | transfer
  /-- Stock goes out to a customer. -/
  | sale
  deriving DecidableEq, Repr

/-- The kind in words. -/
def DocumentKind.name : DocumentKind → String
  | .inbound => "Import"
  | .outbound => "Export"
  | .transfer => "Transfer"
  | .sale => "Sale"

/-- Where a document is in its life. -/
inductive DocumentStatus where
  | draft | posted | failed
  deriving DecidableEq, Repr

/-- The status in words. -/
def DocumentStatus.name : DocumentStatus → String
  | .draft => "Draft"
  | .posted => "Posted"
  | .failed => "Failed"

/-- A document leaves every status but draft never again. -/
def DocumentStatus.isTerminal (s : DocumentStatus) : Bool := s != .draft

/-- A quantity of a product, with its price per unit where the kind of document asks for one. -/
structure DocumentLine where
  product : ProductId
  quantity : UInt64
  unitPrice : Option UInt64
  deriving DecidableEq, Repr

/-- What is recorded when a document is posted; the hash is that of its lines. -/
structure PostingRecord where
  approvedBy : String
  postedAt : Timestamp
  contentHash : String
  deriving DecidableEq, Repr

/-- Why a document failed. -/
inductive FailureReason where
  /-- The stock did not suffice when it was to be posted. -/
  | insufficientStock (shortfall : Shortfall)
  /-- It was withdrawn. -/
  | voided (voidedBy : String) (reason : Option String)
  deriving DecidableEq, Repr

/-- What is recorded when a document fails. -/
structure FailureRecord where
  reason : FailureReason
  failedAt : Timestamp
  deriving DecidableEq, Repr

/-- A document with its lines and the records of its life. -/
structure Document where
  id : DocumentId
  kind : DocumentKind
  status : DocumentStatus
  createdBy : String
  createdAt : Timestamp
  source : Option WarehouseId
  destination : Option WarehouseId
  customer : Option CustomerId
  note : Option String
  lines : List DocumentLine
  posting : Option PostingRecord
  failure : Option FailureRecord
  deriving DecidableEq, Repr

/-- The record that goes with a status a draft is left for. -/
inductive Settlement where
  | posting (record : PostingRecord)
  | failure (record : FailureRecord)
  deriving DecidableEq, Repr

/-- The status that the record belongs to. -/
def Settlement.target : Settlement → DocumentStatus
  | .posting _ => .posted
  | .failure _ => .failed

namespace Document

/-! ## Making drafts -/

/-- A draft without warehouses, customer, note and lines. -/
def draft (id : DocumentId) (kind : DocumentKind) (createdBy : String) (createdAt : Timestamp) :
    Document where
  id := id
  kind := kind
  status := .draft
  createdBy := createdBy
  createdAt := createdAt
  source := none
  destination := none
  customer := none
  note := none
  lines := []
  posting := none
  failure := none

/-- What the maker of a draft fixes, by kind. -/
inductive Route where
  | inbound (destination : WarehouseId)
  | outbound (source : WarehouseId)
  | transfer (source destination : WarehouseId)
  | sale (source : WarehouseId) (customer : Option CustomerId)
  deriving DecidableEq, Repr

/-- A draft along a route. -/
def ofRoute (id : DocumentId) (route : Route) (createdBy : String) (createdAt : Timestamp) :
    Document :=
  match route with
  | .inbound destination =>
    { draft id .inbound createdBy createdAt with destination := some destination }
  | .outbound source =>
    { draft id .outbound createdBy createdAt with source := some source }
  | .transfer source destination =>
    { draft id .transfer createdBy createdAt with
      source := some source, destination := some destination }
  | .sale source customer =>
    { draft id .sale createdBy createdAt with source := some source, customer := customer }

/-- The same document with a source warehouse. -/
def withSource (d : Document) (w : WarehouseId) : Document := { d with source := some w }

/-- The same document with a destination warehouse. -/
def withDestination (d : Document) (w : WarehouseId) : Document := { d with destination := some w }

/-- The same document with a customer. -/
def withCustomer (d : Document) (c : CustomerId) : Document := { d with customer := some c }

/-- The same document with a note. -/
def withNote (d : Document) (note : String) : Document := { d with note := some note }

/-- The same document with further lines behind its own. -/
def withLines (d : Document) (lines : List DocumentLine) : Document :=
  { d with lines := d.lines ++ lines }

/-! ## Reading documents -/

/-- Whether the document is still a draft. -/
def isDraft (d : Document) : Bool := d.status == .draft

/-- The warehouses of the document, the source first. -/
def warehouses (d : Document) : List WarehouseId := d.source.toList ++ d.destination.toList

/-- The document after it was settled by a record. -/
def settle (d : Document) (s : Settlement) : Document :=
  match s with
  | .posting record => { d with status := .posted, posting := some record }
  | .failure record => { d with status := .failed, failure := some record }

end Document

end Depot
