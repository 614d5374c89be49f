import Depot.Posting
import Depot.Proofs.Steps
/-!
# Transactions on a working copy

A unit of work is a function that gives a new database or an error, so it has no state in between
that could be left behind. The tables are really written row by row: a transaction writes a working
copy, and where it stops the copy holds what was written up to then. `Transaction` is that reading,
and `Transaction.settle` ends one: the copy takes the place of the database if the transaction came
to its end, and is thrown away if it was aborted.

A batch is applied within the transaction of its caller (`Stock.applyInPlace`). A row that cannot
be read aborts that transaction, also when it is met after others were written. A refused batch does
not: the caller goes on with the copy, so nothing may have been written to it.

Main statements: `Stock.settle_applyAlone` and `Posting.settle_attemptInPlace`. Whatever the tables
hold, a batch and a posting on a working copy answer what the units of work do, and leave the
same database.
-/

namespace Depot

variable {ε ε' α β : Type}

/-- A computation on a working copy, which it gives back as far as it was written. -/
def Transaction (ε α : Type) : Type := Database → Except ε α × Database

namespace Transaction

/-- What is written stays written for what follows; an aborted transaction goes no further. -/
instance : Monad (Transaction ε) where
  pure x copy := (.ok x, copy)
  bind t next copy :=
    match t copy with
    | (.ok x, copy) => next x copy
    | (.error e, copy) => (.error e, copy)

/-- Stop with an error. -/
def abort (e : ε) : Transaction ε α := fun copy => (.error e, copy)

/-- Look at the copy. A look that fails aborts. -/
def look (read : Database → Except ε α) : Transaction ε α := fun copy => (read copy, copy)

/-- Write to the copy. -/
def write (f : Database → Database) : Transaction ε Unit := fun copy => (.ok (), f copy)

/-- The same transaction, aborting with errors of another layer. -/
def mapError (f : ε → ε') (t : Transaction ε α) : Transaction ε' α := fun copy =>
  ((t copy).1.mapError f, (t copy).2)

/-- A unit of work with a single write, at its end, is its own transaction. -/
def ofWork (w : UnitOfWork ε α) : Transaction ε α := fun copy => UnitOfWork.commit w copy

/-- End a transaction: the copy takes the place of the database, or is thrown away. -/
def settle (t : Transaction ε α) (db : Database) : Except ε α × Database :=
  match t db with
  | (.ok x, copy) => (.ok x, copy)
  | (.error e, _) => (.error e, db)

/-! ## Units of work -/

/-- What a transaction comes to, without the copy it leaves behind when it is aborted. -/
def work (t : Transaction ε α) : UnitOfWork ε α := fun db =>
  match t db with
  | (.ok x, copy) => .ok (x, copy)
  | (.error e, _) => .error e

theorem settle_eq_commit (t : Transaction ε α) (db : Database) :
    t.settle db = UnitOfWork.commit t.work db := by
  unfold settle UnitOfWork.commit work
  rcases t db with ⟨_ | _, copy⟩ <;> rfl

theorem work_bind (t : Transaction ε α) (next : α → Transaction ε β) (db : Database) :
    (t >>= next).work db = (t.work db >>= fun r => (next r.1).work r.2) := by
  unfold work
  simp only [bind]
  rcases t db with ⟨_ | _, copy⟩ <;> rfl

/-- A look leaves the copy to what follows. -/
theorem work_look_bind (read : Database → Except ε α) (next : α → Transaction ε β)
    (db : Database) : (look read >>= next).work db = (read db >>= fun x => (next x).work db) := by
  rw [work_bind]
  unfold look
  cases hread : read db with
  | error e =>
    simp only [work, hread]
    rfl
  | ok x =>
    simp only [work, hread]
    rfl

theorem work_mapError (f : ε → ε') (t : Transaction ε α) (db : Database) :
    (t.mapError f).work db = (t.work db).mapError f := by
  unfold work mapError
  rcases t db with ⟨_ | _, copy⟩ <;> rfl

theorem work_ofWork (w : UnitOfWork ε α) (db : Database) : (ofWork w).work db = w db := by
  unfold work ofWork UnitOfWork.commit
  cases w db <;> rfl

end Transaction

/-! ## Batches -/

namespace Stock

/-- Write a change: the row of stock first, then the number of rows of the warehouse if it moves,
which has to be read for that. -/
def Change.writeInPlace (c : Change) : Transaction StoreError Unit := do
  Transaction.write fun copy => { copy with stock := copy.stock.setQuantity c.row c.after }
  if c.movesOccupancy then
    let warehouse := c.key.warehouse.bytes
    let count ← Transaction.look fun copy => copy.occupancy.quantity warehouse
    Transaction.write fun copy =>
      { copy with occupancy := copy.occupancy.setQuantity warehouse (c.occupancy count) }

/-- Write the changes one after the other. -/
def writeAll : List Change → Transaction StoreError Unit
  | [] => pure ()
  | c :: changes => do
    c.writeInPlace
    writeAll changes

/-- Apply a batch within the transaction of the caller. A refusal is an answer, with which the
caller may go on. -/
def applyInPlace (batch : Batch) : Transaction StoreError (Except Refusal (List StockLevel)) := do
  match ← Transaction.look fun copy => .ok (plan copy.stock batch) with
  | .error (.refused r) => return .error r
  | .error (.store e) => Transaction.abort e
  | .ok changes => do
    writeAll changes
    return .ok (changes.map Change.level)

/-- Apply a batch in a transaction of its own, which a refusal aborts. -/
def applyAlone (batch : Batch) : Transaction StockError (List StockLevel) := do
  match ← (applyInPlace batch).mapError .store with
  | .ok levels => return levels
  | .error r => Transaction.abort (.refused r)

theorem work_writeInPlace (c : Change) (db : Database) :
    c.writeInPlace.work db = (c.write db >>= fun db' => .ok ((), db')) := by
  unfold Change.writeInPlace Change.write
  by_cases hm : c.movesOccupancy = true
  · simp only [hm, if_true]
    -- the copy has the new row of stock already, but its occupancy is still that of the database
    rw [Transaction.work_bind]
    refine bind_ok (x := ((), { db with stock := db.stock.setQuantity c.row c.after })) rfl ?_
    rw [Transaction.work_look_bind]
    cases db.occupancy.quantity c.key.warehouse.bytes <;> rfl
  · simp only [hm]
    rfl

theorem work_writeAll (changes : List Change) (db : Database) :
    (writeAll changes).work db = (changes.foldlM Change.write db >>= fun db' => .ok ((), db')) := by
  induction changes generalizing db with
  | nil => rfl
  | cons c changes ih =>
    rw [writeAll, Transaction.work_bind, work_writeInPlace, List.foldlM_cons]
    cases c.write db with
    | error e => rfl
    | ok db' => exact ih db'

/-- What a batch comes to within the transaction of its caller. A refused one has written
nothing. -/
theorem work_applyInPlace (batch : Batch) (db : Database) :
    (applyInPlace batch).work db =
      match applyBatch batch db with
      | .ok (levels, db') => .ok (.ok levels, db')
      | .error (.refused r) => .ok (.error r, db)
      | .error (.store e) => .error e := by
  unfold applyInPlace applyBatch
  rw [Transaction.work_look_bind]
  cases plan db.stock batch with
  | error e => cases e <;> rfl
  | ok changes =>
    refine (Transaction.work_bind (writeAll changes) _ db).trans ?_
    rw [work_writeAll]
    simp only [bind, Except.bind]
    cases changes.foldlM Change.write db <;> rfl

theorem settle_applyAlone (batch : Batch) (db : Database) :
    (applyAlone batch).settle db = UnitOfWork.commit (applyBatch batch) db := by
  have hwork : (applyAlone batch).work db = applyBatch batch db := by
    unfold applyAlone
    rw [Transaction.work_bind, Transaction.work_mapError, work_applyInPlace]
    cases applyBatch batch db with
    | ok result => rfl
    | error e => cases e <;> rfl
  rw [Transaction.settle_eq_commit]
  unfold UnitOfWork.commit
  rw [hwork]

end Stock

/-! ## Postings -/

namespace Posting

/-- Post a draft within one transaction. The transition that records a shortfall is made on the
copy that the refused batch leaves. -/
def attemptInPlace (id : DocumentId) (approver : String) (now : Timestamp) :
    Transaction PostingError Outcome := do
  let d ← Transaction.look (loadDraft id)
  Transaction.look fun _ => (d.validateForPosting approver).mapError .invalidDocument
  Transaction.look fun copy => d.warehouses.forM (checkWarehouse copy)
  Transaction.look fun copy => d.lines.forM (checkProduct copy)
  match ← (Stock.applyInPlace d.batch).mapError .store with
  | .ok _ =>
    let record : PostingRecord := ⟨approver, now, d.contentHash⟩
    let posted ← Transaction.mapError .ofArchive
      (Transaction.ofWork (Archive.transition id .draft .posted (.posting record)))
    return .posted posted
  | .error (.insufficient shortfall) =>
    let record : FailureRecord := ⟨.insufficientStock shortfall, now⟩
    let _ ← Transaction.mapError .ofArchive
      (Transaction.ofWork (Archive.transition id .draft .failed (.failure record)))
    return .rejected shortfall
  | .error r => Transaction.abort (.refused r)

/-- A transition on the copy, and the outcome that is made of it. -/
theorem work_transition (w : UnitOfWork ArchiveError Document) (outcome : Document → Outcome)
    (db : Database) :
    (Transaction.mapError .ofArchive (Transaction.ofWork w) >>= fun d =>
        (pure (outcome d) : Transaction PostingError Outcome)).work db =
      ((w db).mapError PostingError.ofArchive >>= fun r => .ok (outcome r.1, r.2)) := by
  rw [Transaction.work_bind, Transaction.work_mapError, Transaction.work_ofWork]
  rfl

theorem work_attemptInPlace (id : DocumentId) (approver : String) (now : Timestamp)
    (db : Database) : (attemptInPlace id approver now).work db = attempt id approver now db := by
  unfold attemptInPlace attempt
  rw [Transaction.work_look_bind]
  refine bind_congr fun d => ?_
  rw [Transaction.work_look_bind]
  refine bind_congr fun _ => ?_
  rw [Transaction.work_look_bind]
  refine bind_congr fun _ => ?_
  rw [Transaction.work_look_bind]
  refine bind_congr fun _ => ?_
  rw [Transaction.work_bind, Transaction.work_mapError, Stock.work_applyInPlace]
  cases Stock.applyBatch d.batch db with
  | ok result => exact work_transition _ Outcome.posted result.2
  | error e =>
    cases e with
    | store e => rfl
    | refused r =>
      cases r with
      | insufficient s => exact work_transition _ (fun _ => Outcome.rejected s) db
      | overflow key => rfl
      | outOfRange key => rfl

theorem settle_attemptInPlace (id : DocumentId) (approver : String) (now : Timestamp)
    (db : Database) : (attemptInPlace id approver now).settle db =
      UnitOfWork.commit (attempt id approver now) db := by
  rw [Transaction.settle_eq_commit]
  unfold UnitOfWork.commit
  rw [work_attemptInPlace]

end Posting

end Depot
