import Depot.Proofs.Effect
/-!
# What customers owe is seen by the ledger only

The two tables of receivables are read and written by the ledger and by hooks. No other operation
looks at them: in two databases that agree on the other tables (`Database.SameCore`) it answers the
same and leaves two such databases behind (`sameSeen_run`), and so does a posting whatever its hook
is (`sameSeen_post`).

## How the proof goes

Two such databases differ in what `Database.withLedger` sets. A unit of work that reads and writes
the other tables only commutes with it (`UnitOfWork.Apart`), and so does a sequence of such steps.
A read of another table is the same in both databases by definition.
-/

namespace Depot

variable {σ τ ε ε' α β : Type}

/-! ## Units of work -/

/-- The same database with these tables of receivables. -/
def Database.withLedger (db : Database) (receivables purchases : Table) : Database :=
  { db with receivables := receivables, purchases := purchases }

theorem Database.sameCore_withLedger (db : Database) (r p : Table) :
    SameCore db (db.withLedger r p) :=
  ⟨rfl, rfl, rfl, rfl, rfl⟩

theorem Database.SameCore.eq_withLedger {a b : Database} (h : SameCore a b) :
    b = a.withLedger b.receivables b.purchases := by
  obtain ⟨hdocuments, hstock, hoccupancy, hwarehouses, hproducts⟩ := h
  cases a
  cases b
  cases hdocuments
  cases hstock
  cases hoccupancy
  cases hwarehouses
  cases hproducts
  rfl

namespace UnitOfWork

/-- The unit of work does not look at the tables of receivables, and leaves them as they are. -/
def Apart (work : UnitOfWork ε α) : Prop :=
  ∀ db r p, work (db.withLedger r p) = (work db).map fun x => (x.1, x.2.withLedger r p)

theorem apart_fail (e : ε) : Apart fun _ => (.error e : Except ε (α × Database)) :=
  fun _ _ _ => rfl

theorem apart_done (x : α) {write : Database → Database}
    (h : ∀ db r p, write (db.withLedger r p) = (write db).withLedger r p) :
    Apart fun db => (.ok (x, write db) : Except ε (α × Database)) := by
  intro db r p
  simp only [h, Except.map]

/-- A read of another table comes before. -/
theorem Apart.look {read : Database → Except ε α}
    (hread : ∀ db r p, read (db.withLedger r p) = read db) {work : α → UnitOfWork ε β}
    (h : ∀ x, (work x).Apart) : Apart fun db => read db >>= fun x => work x db := by
  intro db r p
  simp only [hread]
  cases read db with
  | error e => rfl
  | ok x => exact h x db r p

/-- It answers something made of what was answered before. -/
theorem Apart.map {work : UnitOfWork ε α} (h : work.Apart) (f : α → β) :
    Apart fun db => work db >>= fun x => .ok (f x.1, x.2) := by
  intro db r p
  simp only [h db r p]
  cases work db <;> rfl

theorem Apart.mapError {work : UnitOfWork ε α} (h : work.Apart) (f : ε → ε') :
    Apart fun db => (work db).mapError f := by
  intro db r p
  simp only [h db r p]
  cases work db <;> rfl

theorem Apart.ite {c : Prop} [Decidable c] {work work' : UnitOfWork ε α} (h : work.Apart)
    (h' : work'.Apart) : Apart fun db => if c then work db else work' db := by
  intro db r p
  by_cases hc : c
  · simp only [if_pos hc, h db r p]
  · simp only [if_neg hc, h' db r p]

end UnitOfWork

open UnitOfWork

/-! ### Stock -/

namespace Stock

theorem write_withLedger (c : Change) (db : Database) (r p : Table) :
    c.write (db.withLedger r p) = (c.write db).map fun db => db.withLedger r p := by
  unfold Change.write
  dsimp only
  split
  · show (db.occupancy.quantity _ >>= _) = Except.map _ (db.occupancy.quantity _ >>= _)
    cases db.occupancy.quantity c.key.warehouse.bytes <;> rfl
  · rfl

theorem foldlM_write_withLedger (changes : List Change) (db : Database) (r p : Table) :
    changes.foldlM Change.write (db.withLedger r p) =
      (changes.foldlM Change.write db).map fun db => db.withLedger r p := by
  induction changes generalizing db with
  | nil => rfl
  | cons c changes ih =>
    rw [List.foldlM_cons, List.foldlM_cons, write_withLedger]
    cases c.write db with
    | error e => rfl
    | ok db' => exact ih db'

theorem apart_applyBatch (batch : Batch) : (applyBatch batch).Apart := by
  refine Apart.look (fun _ _ _ => rfl) fun changes => ?_
  intro db r p
  dsimp only
  rw [foldlM_write_withLedger]
  cases changes.foldlM Change.write db <;> rfl

theorem apart_applyDelta (key : StockKey) (delta : Int) : (applyDelta key delta).Apart :=
  (apart_applyBatch _).map fun levels => (levels.head?.map StockLevel.quantity).getD 0

end Stock

/-! ### The catalog -/

namespace Catalog

theorem apart_putProduct (id : ProductId) (p : Product) : (putProduct id p).Apart :=
  .look (fun _ _ _ => rfl) fun _ => apart_done _ fun _ _ _ => rfl

theorem apart_putWarehouse (id : WarehouseId) (w : Warehouse) : (putWarehouse id w).Apart :=
  .look (fun _ _ _ => rfl) fun _ => apart_done _ fun _ _ _ => rfl

theorem apart_addProduct (id : ProductId) (name : String) (unitPrice : UInt64) :
    (addProduct id name unitPrice).Apart :=
  .look (fun _ _ _ => rfl) fun _ => apart_putProduct id _

theorem apart_updateProduct (id : ProductId) (name : Option String) (unitPrice : Option UInt64) :
    (updateProduct id name unitPrice).Apart :=
  .look (fun _ _ _ => rfl) fun _ => .look (fun _ _ _ => rfl) fun _ => apart_putProduct id _

theorem apart_addWarehouse (id : WarehouseId) (location : String) :
    (addWarehouse id location).Apart :=
  .look (fun _ _ _ => rfl) fun _ => apart_putWarehouse id _

theorem apart_relabelWarehouse (id : WarehouseId) (location : String) :
    (relabelWarehouse id location).Apart :=
  .look (fun _ _ _ => rfl) fun _ => .look (fun _ _ _ => rfl) fun _ => apart_putWarehouse id _

theorem apart_removeWarehouse (id : WarehouseId) : (removeWarehouse id).Apart :=
  .look (fun _ _ _ => rfl) fun _ => .look (fun _ _ _ => rfl) fun _ =>
    .ite (apart_fail _) (apart_done _ fun _ _ _ => rfl)

end Catalog

/-! ### The archive -/

namespace Archive

theorem apart_put (id : DocumentId) (d : Document) : (put id d).Apart :=
  .look (fun _ _ _ => rfl) fun _ => apart_done _ fun _ _ _ => rfl

theorem apart_insert (d : Document) : (insert d).Apart := by
  refine .ite (apart_fail _) (.look (fun _ _ _ => rfl) fun _ => ?_)
  intro db r p
  by_cases hc : db.documents.contains d.id.bytes = true
  · simp only [Database.withLedger, hc, if_true]
    rfl
  · simp only [Database.withLedger, hc]
    rfl

theorem apart_transition (id : DocumentId) (source target : DocumentStatus) (s : Settlement) :
    (transition id source target s).Apart :=
  .ite (apart_fail _) (.look (fun _ _ _ => rfl) fun _ => .ite (apart_fail _) (apart_put id _))

end Archive

/-! ### Posting and voiding -/

namespace Posting

theorem apart_attempt (id : DocumentId) (approver : String) (now : Timestamp) :
    (attempt id approver now).Apart := by
  refine .look (fun _ _ _ => rfl) fun d => .look (fun _ _ _ => rfl) fun _ =>
    .look (fun _ _ _ => rfl) fun _ => .look (fun _ _ _ => rfl) fun _ => ?_
  intro db r p
  dsimp only
  rw [Stock.apart_applyBatch d.batch db r p]
  cases Stock.applyBatch d.batch db with
  | ok result =>
    exact ((Archive.apart_transition id _ _ _).mapError _).map Outcome.posted result.2 r p
  | error e =>
    cases e with
    | store => rfl
    | refused refusal =>
      cases refusal with
      | insufficient shortfall =>
        exact ((Archive.apart_transition id _ _ _).mapError _).map
          (fun _ => Outcome.rejected shortfall) db r p
      | _ => rfl

theorem apart_void (id : DocumentId) (voidedBy : String) (reason : Option String)
    (now : Timestamp) : (void id voidedBy reason now).Apart :=
  .look (fun _ _ _ => rfl) fun _ => (Archive.apart_transition id _ _ _).mapError _

end Posting

/-! ### The service -/

namespace Service

theorem apart_keep (d : Document) : (keep d).Apart := by
  refine .look (fun _ _ _ => rfl) fun _ => .look (fun _ _ _ => rfl) fun _ =>
    .look (fun _ _ _ => rfl) fun _ => ?_
  exact ((Archive.apart_insert d).mapError _).map fun _ => d

theorem apart_create (id : DocumentId) (request : DraftRequest) (now : Timestamp) :
    (create id request now).Apart :=
  .ite (.look (fun _ _ _ => rfl) fun _ => .look (fun _ _ _ => rfl) fun _ => apart_keep _)
    (apart_keep _)

theorem apart_void (id : DocumentId) (voidedBy : String) (reason : Option String)
    (now : Timestamp) : (void id voidedBy reason now).Apart :=
  (Posting.apart_void id voidedBy reason now).mapError _

end Service

/-! ## Operations -/

/-- The answers are the same, and the databases agree on all tables but those of receivables. -/
structure SameSeen (x : Except ε α × (Database × σ)) (y : Except ε α × (Database × τ)) : Prop where
  answer : x.1 = y.1
  core : Database.SameCore x.2.1 y.2.1

section SameSeen

variable {a b : Database} {error : ε → ServiceError} {answer : α → Answer}

/-- Such a unit of work ends alike in both databases. -/
theorem UnitOfWork.Apart.alike {work : UnitOfWork ε α} (hwork : work.Apart) (h : a.SameCore b) :
    Alike (fun x y => x.1 = y.1 ∧ x.2.SameCore y.2) (work a) (work b) := by
  rw [h.eq_withLedger, hwork a b.receivables b.purchases]
  cases work a with
  | error e => exact .error e
  | ok result => exact .ok ⟨rfl, result.2.sameCore_withLedger _ _⟩

theorem sameSeen_update {work : UnitOfWork ε α} (hwork : work.Apart) (h : a.SameCore b) (s : σ)
    (t : τ) : SameSeen (update work error answer (a, s)) (update work error answer (b, t)) := by
  have halike := hwork.alike h
  unfold update UnitOfWork.commit
  dsimp only
  generalize work a = x at halike
  generalize work b = y at halike
  cases halike with
  | error e => exact ⟨rfl, h⟩
  | @ok x y hxy =>
    obtain ⟨result, db⟩ := x
    obtain ⟨result', db'⟩ := y
    obtain ⟨rfl, hdb⟩ := hxy
    exact ⟨rfl, hdb⟩

theorem sameSeen_query {read : Database → Except ε α}
    (hread : ∀ db r p, read (db.withLedger r p) = read db) (h : a.SameCore b) (s : σ) (t : τ) :
    SameSeen (query read error answer (a, s)) (query read error answer (b, t)) := by
  refine ⟨?_, h⟩
  rw [h.eq_withLedger]
  simp only [query, hread]

/-- An operation that neither posts nor is one of the ledger's does not see what customers owe. -/
theorem sameSeen_run {op : Operation} (hop : ¬ op.WritesReceivables) (hook : SaleHook σ)
    (hook' : SaleHook τ) (h : a.SameCore b) (s : σ) (t : τ) :
    SameSeen (op.run hook (a, s)) (op.run hook' (b, t)) := by
  cases op with
  | stock op =>
    cases op with
    | applyDelta key delta => exact sameSeen_update (Stock.apart_applyDelta key delta) h s t
    | applyBatch batch => exact sameSeen_update (Stock.apart_applyBatch batch) h s t
    | _ => exact sameSeen_query (fun _ _ _ => rfl) h s t
  | catalog op =>
    cases op with
    | addProduct id name unitPrice =>
      exact sameSeen_update (Catalog.apart_addProduct id name unitPrice) h s t
    | updateProduct id name unitPrice =>
      exact sameSeen_update (Catalog.apart_updateProduct id name unitPrice) h s t
    | addWarehouse id location =>
      exact sameSeen_update (Catalog.apart_addWarehouse id location) h s t
    | relabelWarehouse id location =>
      exact sameSeen_update (Catalog.apart_relabelWarehouse id location) h s t
    | removeWarehouse id => exact sameSeen_update (Catalog.apart_removeWarehouse id) h s t
    | _ => exact sameSeen_query (fun _ _ _ => rfl) h s t
  | archive op =>
    cases op with
    | insert d => exact sameSeen_update (Archive.apart_insert d) h s t
    | transition id source target record =>
      exact sameSeen_update (Archive.apart_transition id source target record) h s t
    | _ => exact sameSeen_query (fun _ _ _ => rfl) h s t
  | posting op =>
    cases op with
    | post => exact absurd trivial hop
    | void id voidedBy reason now =>
      exact sameSeen_update (Posting.apart_void id voidedBy reason now) h s t
  | receivables => exact absurd trivial hop
  | service op =>
    cases op with
    | create id request now => exact sameSeen_update (Service.apart_create id request now) h s t
    | post => exact absurd trivial hop
    | void id voidedBy reason now =>
      exact sameSeen_update (Service.apart_void id voidedBy reason now) h s t
    | _ => exact sameSeen_query (fun _ _ _ => rfl) h s t

/-- A posting does not see it either, nor what its hook does. -/
theorem sameSeen_post (hook : LedgerHook σ) (hook' : LedgerHook τ) (h : a.SameCore b)
    (id : DocumentId) (approver : String) (now : Timestamp) (s : σ) (t : τ) :
    SameSeen (Posting.post hook.run id approver now (a, s))
      (Posting.post hook'.run id approver now (b, t)) := by
  have hhooks : ∀ d db db', Database.SameCore db db' →
      Database.SameCore (hook.run d (db, s)).2.1 (hook'.run d (db', t)).2.1 :=
    fun d db db' hdb =>
      (hook.sameCore d (db, s)).symm.trans (hdb.trans (hook'.sameCore d (db', t)))
  obtain ⟨hanswer, hcore⟩ := Posting.post_alike (Q := fun x y => x.1.SameCore y.1)
    ((Posting.apart_attempt id approver now).alike h) h (fun _ _ hdb => hdb) hhooks
  exact ⟨hanswer, hcore⟩

end SameSeen

end Depot
