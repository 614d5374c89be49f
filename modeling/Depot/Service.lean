import Depot.Receivables
/-!
# The document service

The operations that an interface offers its users. Drafts are checked before they are kept:
against the rules, and their warehouses and products against the catalog; a transfer also against
the stock of its source. Sales are recorded as receivables when they are posted. Every error has a
code that an interface can answer with.
-/

namespace Depot

/-! ## Errors -/

/-- The class of an error, as an interface reports it. -/
inductive ErrorCode where
  | notFound | conflict | badRequest | unprocessable | unavailable | internal
  deriving DecidableEq, Repr

/-- The name of the class. -/
def ErrorCode.name : ErrorCode → String
  | .notFound => "NotFound"
  | .conflict => "Conflict"
  | .badRequest => "BadRequest"
  | .unprocessable => "Unprocessable"
  | .unavailable => "Unavailable"
  | .internal => "Internal"

/-- The status of an HTTP answer. -/
def ErrorCode.httpStatus : ErrorCode → Nat
  | .notFound => 404
  | .conflict => 409
  | .badRequest => 400
  | .unprocessable => 422
  | .unavailable => 503
  | .internal => 500

/-- Whether the same request may succeed later. -/
def ErrorCode.retryable (c : ErrorCode) : Bool := c == .unavailable

/-- Why an operation of the service fails. -/
inductive ServiceError where
  | invalidDocument (found : List Violation)
  | posting (error : PostingError)
  | catalog (error : CatalogError)
  | archive (error : ArchiveError)
  | stock (error : StockError)
  | store (error : StoreError)
  deriving DecidableEq, Repr

/-- The failure in words. -/
def ServiceError.message : ServiceError → String
  | .invalidDocument found => "invalid document: " ++ Violation.messages found
  | .posting error => error.message
  | .catalog error => error.message
  | .archive error => error.message
  | .stock error => error.message
  | .store error => error.message

/-- A medium that fails may recover; an identifier that is too long was asked for; anything else
is a fault of the system. -/
def StoreError.code : StoreError → ErrorCode
  | .storage _ => .unavailable
  | .keyTooLong _ => .badRequest
  | _ => .internal

/-- The code of a failed posting or voiding. -/
def PostingError.code : PostingError → ErrorCode
  | .notFound _ | .warehouseNotFound _ | .productNotFound _ => .notFound
  | .alreadyPosted _ _ | .conflict _ => .conflict
  | .invalidDocument _ => .badRequest
  | .refused _ => .unprocessable
  | .store error => error.code

/-- The code of a failure of the catalog. -/
def CatalogError.code : CatalogError → ErrorCode
  | .warehouseNotFound _ | .productNotFound _ => .notFound
  | .warehouseNotEmpty _ => .conflict
  | .invalid _ => .badRequest
  | .store error => error.code

/-- The code of a failure of the archive. -/
def ArchiveError.code : ArchiveError → ErrorCode
  | .notFound _ => .notFound
  | .duplicate _ | .conflict _ _ _ | .illegalTransition _ _ _ | .notDraft _ _ => .conflict
  | .store error => error.code

/-- The code of a failure of stock. -/
def StockError.code : StockError → ErrorCode
  | .refused _ => .unprocessable
  | .store error => error.code

/-- The code of a failure of the service. -/
def ServiceError.code : ServiceError → ErrorCode
  | .invalidDocument _ => .badRequest
  | .posting error => error.code
  | .catalog error => error.code
  | .archive error => error.code
  | .stock error => error.code
  | .store error => error.code

namespace Service

/-! ## Making drafts -/

/-- What a draft is made from. -/
structure DraftRequest where
  route : Document.Route
  lines : List DocumentLine
  createdBy : String
  note : Option String
  deriving DecidableEq, Repr

/-- The draft that is asked for. -/
def DraftRequest.document (r : DraftRequest) (id : DocumentId) (now : Timestamp) : Document :=
  let d := (Document.ofRoute id r.route r.createdBy now).withLines r.lines
  match r.note with
  | some note => d.withNote note
  | none => d

/-- The stock covers what the document takes out, key by key. -/
def checkAvailable (d : Document) (db : Database) : Except ServiceError Unit :=
  d.batch.toList.forM fun (key, delta) =>
    if 0 ≤ delta then .ok ()
    else do
      let available ← (Stock.quantity key db).mapError .stock
      if available.toNat < delta.natAbs then
        .error (.stock (.refused (.insufficient
          ⟨key.warehouse, key.product, available, clamp delta.natAbs⟩)))

/-- Keep a valid draft whose warehouses and products are in the catalog. -/
def keep (d : Document) : UnitOfWork ServiceError Document := fun db => do
  d.validate.mapError .invalidDocument
  d.warehouses.forM fun id => do
    let _ ← (Catalog.warehouse id db).mapError .catalog
  d.lines.forM fun line => do
    let _ ← (Catalog.product line.product db).mapError .catalog
  let ((), db) ← (Archive.insert d db).mapError .archive
  return (d, db)

/-- Make a draft under a fresh identifier. -/
def create (id : DocumentId) (r : DraftRequest) (now : Timestamp) :
    UnitOfWork ServiceError Document := fun db => do
  let d := r.document id now
  if d.kind = .transfer then
    d.validate.mapError .invalidDocument
    checkAvailable d db
  keep d db

/-! ## Posting and voiding -/

/-- Post a draft, recording a sale as receivable. The ledger reads the clock again, behind the
posting; it may read another time. -/
def post (id : DocumentId) (approver : String) (now : Timestamp) (db : Database)
    (recordedAt : Timestamp := now) : Except ServiceError Document × Database :=
  let (answer, db, ()) := Posting.post (Receivables.hook recordedAt) id approver now (db, ())
  (answer.mapError .posting, db)

/-- Withdraw a draft. -/
def void (id : DocumentId) (voidedBy : String) (reason : Option String) (now : Timestamp) :
    UnitOfWork ServiceError Document := fun db =>
  (Posting.void id voidedBy reason now db).mapError .posting

/-! ## Reading -/

/-- The document with an identifier. -/
def document (id : DocumentId) (db : Database) : Except ServiceError Document :=
  (Archive.load id db).mapError .archive

/-- A document with the catalog's entries for its warehouses and, line by line, its products;
`none` for what is no longer there. The value is that of the document's own prices. -/
structure Details where
  document : Document
  source : Option Warehouse
  destination : Option Warehouse
  products : List (Option Product)
  totalValue : UInt64
  deriving DecidableEq, Repr

/-- The catalog's entry for a warehouse that a document may have. -/
def lookUpWarehouse (id : Option WarehouseId) (db : Database) :
    Except ServiceError (Option Warehouse) :=
  match id with
  | none => .ok none
  | some id => (Catalog.warehouse? id db).mapError fun error => .catalog (.store error)

/-- The details of a document. -/
def details (id : DocumentId) (db : Database) : Except ServiceError Details := do
  let d ← document id db
  let source ← lookUpWarehouse d.source db
  let destination ← lookUpWarehouse d.destination db
  let products ← d.lines.mapM fun line =>
    (Catalog.product? line.product db).mapError fun error => .catalog (.store error)
  return ⟨d, source, destination, products, d.totalValue⟩

/-- The documents of a status, in the order of their identifiers. -/
def documentsByStatus (status : DocumentStatus) (db : Database) :
    Except ServiceError (List Document) :=
  (Archive.listByStatus status db).mapError .archive

/-- The drafts, in the order of their identifiers. -/
def pendingDocuments (db : Database) : Except ServiceError (List Document) :=
  documentsByStatus .draft db

/-- The quantity of a product in a warehouse. -/
def stockQuantity (key : StockKey) (db : Database) : Except ServiceError UInt64 :=
  (Stock.quantity key db).mapError .stock

/-- What a registered warehouse holds. -/
def warehouseStock (id : WarehouseId) (db : Database) : Except ServiceError (List StockLevel) := do
  let _ ← (Catalog.warehouse id db).mapError .catalog
  (Stock.warehouseLevels id db).mapError .stock

/-- The quantity of a product in all warehouses together. -/
def productTotal (id : ProductId) (db : Database) : Except ServiceError UInt64 :=
  (Stock.productTotal id db).mapError .stock

end Service

end Depot
