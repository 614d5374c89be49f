import Depot.Archive
import Depot.Catalog.Registry
import Depot.Document.Movements
import Depot.Document.Rules
/-!
# Posting and voiding

Posting a draft checks it, applies its movements to stock and records who approved it, all in one
unit of work. If the stock does not suffice, the unit of work records the failure of the document
instead, and the shortfall is reported; every other error leaves the database as it was.

A hook runs once a sale is posted. It can neither undo the posting nor fail it.

Postings and voidings may be synced: behind the commit the medium is asked to keep what was
committed for good, before anything is reported and before the hook runs (`postSynced`,
`voidSynced`). `post` and `void` are those of a medium that does.
-/

namespace Depot

/-- Why a posting or voiding fails. -/
inductive PostingError where
  | notFound (id : DocumentId)
  | warehouseNotFound (id : WarehouseId)
  | productNotFound (id : ProductId)
  | alreadyPosted (id : DocumentId) (status : DocumentStatus)
  | conflict (id : DocumentId)
  | invalidDocument (found : List Violation)
  | refused (refusal : Refusal)
  | store (error : StoreError)
  deriving DecidableEq, Repr

namespace PostingError

/-- The failure in words. -/
def message : PostingError → String
  | .notFound id => s!"document {id.text} not found"
  | .warehouseNotFound id => s!"warehouse {id.text} not found"
  | .productNotFound id => s!"product {id.text} not found"
  | .alreadyPosted id status => s!"document {id.text} is already {status.name}"
  | .conflict id => s!"document {id.text} was modified concurrently"
  | .invalidDocument found => "invalid document: " ++ Violation.messages found
  | .refused refusal => refusal.message
  | .store error => error.message

/-- Only a failure of the medium is worth another try. -/
def isRetryable : PostingError → Bool
  | .store (.storage _) => true
  | _ => false

/-- A failure of the archive as one of posting. -/
def ofArchive : ArchiveError → PostingError
  | .notFound id => .notFound id
  | .conflict id _ _ => .conflict id
  | .duplicate id => .conflict id
  | .illegalTransition id source _ => .alreadyPosted id source
  | .notDraft id status => .alreadyPosted id status
  | .store error => .store error

/-- A failure of stock as one of posting. -/
def ofStock : StockError → PostingError
  | .refused refusal => .refused refusal
  | .store error => .store error

end PostingError

/-- What runs once a sale is posted. It may write the database and keep a state of its own; the
failure it may report has no effect. -/
abbrev SaleHook (σ : Type) := Document → Database × σ → Except String Unit × (Database × σ)

/-- The hook that does nothing. -/
def SaleHook.none {σ : Type} : SaleHook σ := fun _ world => (.ok (), world)

namespace Posting

/-- How a committed attempt to post a document ended. -/
inductive Outcome where
  | posted (d : Document)
  | rejected (shortfall : Shortfall)
  deriving DecidableEq, Repr

/-- The draft with an identifier. -/
def loadDraft (id : DocumentId) (db : Database) : Except PostingError Document := do
  let d ← (Archive.load id db).mapError .ofArchive
  if d.status ≠ .draft then .error (.alreadyPosted d.id d.status)
  return d

/-- The warehouse is in the catalog. -/
def checkWarehouse (db : Database) (id : WarehouseId) : Except PostingError Unit := do
  if (← (Catalog.warehouse? id db).mapError .store).isNone then .error (.warehouseNotFound id)

/-- The product of the line is in the catalog. -/
def checkProduct (db : Database) (line : DocumentLine) : Except PostingError Unit := do
  if (← (Catalog.product? line.product db).mapError .store).isNone then
    .error (.productNotFound line.product)

/-- Post a draft, or record that the stock does not suffice. -/
def attempt (id : DocumentId) (approver : String) (now : Timestamp) :
    UnitOfWork PostingError Outcome := fun db => do
  let d ← loadDraft id db
  (d.validateForPosting approver).mapError .invalidDocument
  d.warehouses.forM (checkWarehouse db)
  d.lines.forM (checkProduct db)
  match Stock.applyBatch d.batch db with
  | .ok (_, db') =>
    let record : PostingRecord := ⟨approver, now, d.contentHash⟩
    let (posted, db'') ←
      (Archive.transition id .draft .posted (.posting record) db').mapError .ofArchive
    return (.posted posted, db'')
  | .error (.refused (.insufficient shortfall)) =>
    let record : FailureRecord := ⟨.insufficientStock shortfall, now⟩
    let (_, db') ←
      (Archive.transition id .draft .failed (.failure record) db).mapError .ofArchive
    return (.rejected shortfall, db')
  | .error error => .error (.ofStock error)

/-- Report how an attempt ended, and run the hook if a sale was posted. -/
def report {σ : Type} (hook : SaleHook σ) (world : Database × σ) :
    Except PostingError Outcome → Except PostingError Document × (Database × σ)
  | .ok (.posted d) => (.ok d, if d.kind = .sale then (hook d world).2 else world)
  | .ok (.rejected shortfall) => (.error (.refused (.insufficient shortfall)), world)
  | .error error => (.error error, world)

/-- Post a draft and run the hook if it is a sale. -/
def post {σ : Type} (hook : SaleHook σ) (id : DocumentId) (approver : String) (now : Timestamp)
    (world : Database × σ) : Except PostingError Document × (Database × σ) :=
  let (outcome, db) := UnitOfWork.commit (attempt id approver now) world.1
  report hook (db, world.2) outcome

/-- Withdraw a draft. Stock is not touched. -/
def void (id : DocumentId) (voidedBy : String) (reason : Option String) (now : Timestamp) :
    UnitOfWork PostingError Document := fun db => do
  let _ ← loadDraft id db
  let record : FailureRecord := ⟨.voided voidedBy reason, now⟩
  (Archive.transition id .draft .failed (.failure record) db).mapError .ofArchive

/-! ## Syncing -/

/-- What the medium answers when it is asked to keep for good what was committed. It is asked only
if postings are to be synced. -/
def confirm (sync : Bool) (medium : Except StorageFault Unit) : Except PostingError Unit :=
  if sync then medium.mapError fun fault => .store (.storage fault) else .ok ()

/-- Post a draft; if postings are to be synced, the medium is asked behind the commit. -/
def postSynced {σ : Type} (sync : Bool) (medium : Except StorageFault Unit) (hook : SaleHook σ)
    (id : DocumentId) (approver : String) (now : Timestamp) (world : Database × σ) :
    Except PostingError Document × (Database × σ) :=
  let (outcome, db) := UnitOfWork.commitOn (confirm sync medium) (attempt id approver now) world.1
  report hook (db, world.2) outcome

/-- Withdraw a draft; if postings are to be synced, the medium is asked behind the commit. -/
def voidSynced (sync : Bool) (medium : Except StorageFault Unit) (id : DocumentId)
    (voidedBy : String) (reason : Option String) (now : Timestamp) (db : Database) :
    Except PostingError Document × Database :=
  UnitOfWork.commitOn (confirm sync medium) (void id voidedBy reason now) db

end Posting

end Depot
