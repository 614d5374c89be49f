import Depot.Database
import Depot.Document.ContentHash
/-!
# The archive of documents

Every document is kept under its identifier. Documents enter as drafts, are never removed, and
change only by a transition from draft to the status of the record that settles them. A
transition names the status it expects to find.
-/

namespace Depot

/-- Why an operation on the archive fails. -/
inductive ArchiveError where
  | notFound (id : DocumentId)
  | duplicate (id : DocumentId)
  | conflict (id : DocumentId) (expected found : DocumentStatus)
  | illegalTransition (id : DocumentId) (source target : DocumentStatus)
  | notDraft (id : DocumentId) (status : DocumentStatus)
  | store (error : StoreError)
  deriving DecidableEq, Repr

/-- The failure in words. -/
def ArchiveError.message : ArchiveError → String
  | .notFound id => s!"document {id.text} not found"
  | .duplicate id => s!"document {id.text} already exists"
  | .conflict id expected found =>
    s!"document {id.text} is {found.name}, expected {expected.name}"
  | .illegalTransition id source target =>
    s!"illegal status transition of {id.text}: {source.name} -> {target.name}"
  | .notDraft id status => s!"only draft documents can be stored, {id.text} is {status.name}"
  | .store error => error.message

namespace Archive

/-! ## Reading -/

/-- The document with an identifier. -/
def load (id : DocumentId) (db : Database) : Except ArchiveError Document := do
  match ← (db.documents.record? id.bytes).mapError .store with
  | some d => return d
  | none => .error (.notFound id)

/-- All documents, in the order of their identifiers. -/
def list (db : Database) : Except ArchiveError (List Document) :=
  db.documents.records.mapError .store

/-- The documents of a status, in the order of their identifiers. -/
def listByStatus (status : DocumentStatus) (db : Database) : Except ArchiveError (List Document) :=
  do return (← list db).filter fun d => d.status == status

/-! ## Writing -/

/-- Write a document under an identifier. -/
def put (id : DocumentId) (d : Document) : UnitOfWork ArchiveError Document := fun db => do
  let row ← (encodeRow d).mapError .store
  return (d, { db with documents := db.documents.insert id.bytes row })

/-- Take a new draft into the archive. -/
def insert (d : Document) : UnitOfWork ArchiveError Unit := fun db => do
  if d.status ≠ .draft then .error (.notDraft d.id d.status)
  let row ← (encodeRow d).mapError .store
  if db.documents.contains d.id.bytes then .error (.duplicate d.id)
  return ((), { db with documents := db.documents.insert d.id.bytes row })

/-- Settle a document by a record. The statuses before and after are named by the caller: the one
before must be draft and the status found, the one after that of the record. -/
def transition (id : DocumentId) (source target : DocumentStatus) (s : Settlement) :
    UnitOfWork ArchiveError Document := fun db => do
  if source.isTerminal || target != s.target then .error (.illegalTransition id source target)
  let d ← load id db
  if d.status ≠ source then .error (.conflict id source d.status)
  put id (d.settle s) db

end Archive

end Depot
