import Depot.Proofs.Catalog.RoundTrip
import Depot.Proofs.Document.RoundTrip
import Depot.Service
/-!
# Operations and histories

An operation of the system is data here, with all its arguments. What the system takes from its
surroundings, the time and fresh identifiers, is an argument like any other, so a statement about
all operations is one about all clocks and all generators of identifiers.

`Operation.run` carries an operation out, and `Reachable` are the databases that histories of
operations lead to, starting without rows. No operation writes a row past the rules of its layer.

The engine's sale hook is a parameter of a history. It may keep a state of its own and write what
customers owe, but no other table (`LedgerHook`). A hook that performs further operations is
covered as well: they are operations of the history that follow the posting.
-/

namespace Depot

/-! ## Operations -/

inductive StockOperation where
  | applyDelta (key : StockKey) (delta : Int)
  | applyBatch (batch : Batch)
  | quantity (key : StockKey)
  | levels (warehouse : WarehouseId)
  | total (product : ProductId)
  deriving DecidableEq

inductive CatalogOperation where
  | addProduct (id : ProductId) (name : String) (unitPrice : UInt64)
  | product (id : ProductId)
  | updateProduct (id : ProductId) (name : Option String) (unitPrice : Option UInt64)
  | addWarehouse (id : WarehouseId) (location : String)
  | warehouse (id : WarehouseId)
  | warehouses
  | relabelWarehouse (id : WarehouseId) (location : String)
  | removeWarehouse (id : WarehouseId)
  deriving DecidableEq

inductive ArchiveOperation where
  | insert (d : Document)
  | load (id : DocumentId)
  | list
  | listByStatus (status : DocumentStatus)
  | transition (id : DocumentId) (source target : DocumentStatus) (s : Settlement)
  deriving DecidableEq

inductive PostingOperation where
  | post (id : DocumentId) (approver : String) (now : Timestamp)
  | void (id : DocumentId) (voidedBy : String) (reason : Option String) (now : Timestamp)
  deriving DecidableEq

inductive ReceivablesOperation where
  | record (customer : CustomerId) (document : DocumentId) (totalValue : UInt64) (now : Timestamp)
  | balance (customer : CustomerId)
  | purchases (customer : CustomerId)
  | onSalePosted (d : Document) (now : Timestamp)
  deriving DecidableEq

inductive ServiceOperation where
  | create (id : DocumentId) (request : Service.DraftRequest) (now : Timestamp)
  /-- The times are those that the posting and the ledger read. -/
  | post (id : DocumentId) (approver : String) (now recordedAt : Timestamp)
  | void (id : DocumentId) (voidedBy : String) (reason : Option String) (now : Timestamp)
  | document (id : DocumentId)
  | details (id : DocumentId)
  | documentsByStatus (status : DocumentStatus)
  | pendingDocuments
  | stockQuantity (key : StockKey)
  | warehouseStock (id : WarehouseId)
  | productTotal (id : ProductId)
  deriving DecidableEq

/-- An operation of one of the layers, with its arguments. -/
inductive Operation where
  | stock (op : StockOperation)
  | catalog (op : CatalogOperation)
  | archive (op : ArchiveOperation)
  | posting (op : PostingOperation)
  | receivables (op : ReceivablesOperation)
  | service (op : ServiceOperation)
  deriving DecidableEq

/-- What an operation that succeeds answers. -/
inductive Answer where
  | done
  | recorded (fresh : Bool)
  | quantity (quantity : UInt64)
  | levels (levels : List StockLevel)
  | product (p : Product)
  | warehouse (w : Warehouse)
  | warehouses (ws : List Warehouse)
  | document (d : Document)
  | documents (ds : List Document)
  | details (details : Service.Details)
  | purchases (ps : List Purchase)
  deriving DecidableEq, Repr

/-! ## Carrying out an operation -/

/-- The databases agree on every table but the two of receivables. -/
structure Database.SameCore (a b : Database) : Prop where
  documents : b.documents = a.documents
  stock : b.stock = a.stock
  occupancy : b.occupancy = a.occupancy
  warehouses : b.warehouses = a.warehouses
  products : b.products = a.products

/-- A sale hook that writes no table but the two of receivables. -/
structure LedgerHook (σ : Type) where
  run : SaleHook σ
  sameCore : ∀ d world, Database.SameCore world.1 (run d world).2.1

variable {σ ε α : Type}

/-- The answer of a unit of work, and the world behind it. -/
def update (work : UnitOfWork ε α) (error : ε → ServiceError) (answer : α → Answer)
    (world : Database × σ) : Except ServiceError Answer × (Database × σ) :=
  let (result, db) := UnitOfWork.commit work world.1
  ((result.mapError error).map answer, (db, world.2))

/-- The answer of a query, which leaves the world as it is. -/
def query (read : Database → Except ε α) (error : ε → ServiceError) (answer : α → Answer)
    (world : Database × σ) : Except ServiceError Answer × (Database × σ) :=
  (((read world.1).mapError error).map answer, world)

theorem UnitOfWork.commit_eq_ok {work : UnitOfWork ε α} {db db' : Database} {value : α}
    (h : commit work db = (.ok value, db')) : work db = .ok (value, db') := by
  unfold commit at h
  split at h
  · rename_i heq
    cases h
    exact heq
  · cases h

/-- A unit of work that fails reports its error and leaves the world as it is. -/
theorem update_eq_error {work : UnitOfWork ε α} {error : ε → ServiceError} {answer : α → Answer}
    {world : Database × σ} {e : ServiceError} (h : (update work error answer world).1 = .error e) :
    (∃ e', work world.1 = .error e' ∧ error e' = e) ∧
      (update work error answer world).2 = world := by
  cases hwork : work world.1 with
  | error e' =>
    have hresult : (UnitOfWork.commit work world.1).1 = .error e' := by
      simp [UnitOfWork.commit, hwork]
    unfold update at h ⊢
    dsimp only at h ⊢
    rw [hresult] at h
    cases h
    rw [UnitOfWork.commit_error hresult]
    exact ⟨⟨e', rfl, rfl⟩, rfl⟩
  | ok result =>
    unfold update UnitOfWork.commit at h
    rw [hwork] at h
    cases h

/-- A unit of work that succeeds is committed. -/
theorem update_eq_ok {work : UnitOfWork ε α} {error : ε → ServiceError} {answer : α → Answer}
    {world : Database × σ} {a : Answer} (h : (update work error answer world).1 = .ok a) :
    ∃ value db, work world.1 = .ok (value, db) ∧ answer value = a ∧
      (update work error answer world).2 = (db, world.2) := by
  unfold update UnitOfWork.commit at h ⊢
  cases hwork : work world.1 with
  | error e =>
    rw [hwork] at h
    cases h
  | ok result =>
    rw [hwork] at h
    cases h
    exact ⟨result.1, result.2, rfl, rfl, rfl⟩

theorem ErrorsMeet.update {P : ServiceError → Prop} {wrap : ε → ServiceError}
    {work : UnitOfWork ε α} {answer : α → Answer} {world : Database × σ}
    (h : ErrorsMeet P wrap (work world.1)) :
    ErrorsMeet P (·) (Depot.update work wrap answer world).1 := by
  unfold Depot.update UnitOfWork.commit
  cases hwork : work world.1 with
  | error e => exact errorsMeet_error (h e hwork)
  | ok result => exact errorsMeet_ok _

theorem ErrorsMeet.query {P : ServiceError → Prop} {wrap : ε → ServiceError}
    {read : Database → Except ε α} {answer : α → Answer} {world : Database × σ}
    (h : ErrorsMeet P wrap (read world.1)) :
    ErrorsMeet P (·) (Depot.query read wrap answer world).1 :=
  h.lift.map answer

/-- Nothing to answer but that it is done. -/
def toDone (_ : Unit) : Answer := .done

def StockOperation.run : StockOperation → Database × σ →
    Except ServiceError Answer × (Database × σ)
  | applyDelta key delta => update (Stock.applyDelta key delta) .stock .quantity
  | applyBatch batch => update (Stock.applyBatch batch) .stock .levels
  | quantity key => query (Stock.quantity key) .stock .quantity
  | levels warehouse => query (Stock.warehouseLevels warehouse) .stock .levels
  | total product => query (Stock.productTotal product) .stock .quantity

def CatalogOperation.run : CatalogOperation → Database × σ →
    Except ServiceError Answer × (Database × σ)
  | addProduct id name unitPrice => update (Catalog.addProduct id name unitPrice) .catalog .product
  | product id => query (Catalog.product id) .catalog .product
  | updateProduct id name unitPrice =>
    update (Catalog.updateProduct id name unitPrice) .catalog .product
  | addWarehouse id location => update (Catalog.addWarehouse id location) .catalog .warehouse
  | warehouse id => query (Catalog.warehouse id) .catalog .warehouse
  | warehouses => query Catalog.warehouses .catalog .warehouses
  | relabelWarehouse id location =>
    update (Catalog.relabelWarehouse id location) .catalog .warehouse
  | removeWarehouse id => update (Catalog.removeWarehouse id) .catalog toDone

def ArchiveOperation.run : ArchiveOperation → Database × σ →
    Except ServiceError Answer × (Database × σ)
  | insert d => update (Archive.insert d) .archive toDone
  | load id => query (Archive.load id) .archive .document
  | list => query Archive.list .archive .documents
  | listByStatus status => query (Archive.listByStatus status) .archive .documents
  | transition id source target s =>
    update (Archive.transition id source target s) .archive .document

def PostingOperation.run (hook : SaleHook σ) : PostingOperation → Database × σ →
    Except ServiceError Answer × (Database × σ)
  | post id approver now, world =>
    let (result, world) := Posting.post hook id approver now world
    ((result.mapError .posting).map .document, world)
  | void id voidedBy reason now, world =>
    update (Posting.void id voidedBy reason now) .posting .document world

def ReceivablesOperation.run : ReceivablesOperation → Database × σ →
    Except ServiceError Answer × (Database × σ)
  | record customer document totalValue now =>
    update (Receivables.record customer document totalValue now) .store .recorded
  | balance customer => query (Receivables.balance customer) .store .quantity
  | purchases customer => query (Receivables.purchases customer) .store .purchases
  | onSalePosted d now => update (Receivables.onSalePosted d now) .store toDone

def ServiceOperation.run : ServiceOperation → Database × σ →
    Except ServiceError Answer × (Database × σ)
  | create id request now, world => update (Service.create id request now) (·) .document world
  | post id approver now recordedAt, world =>
    let (result, db) := Service.post id approver now world.1 recordedAt
    (result.map .document, (db, world.2))
  | void id voidedBy reason now, world =>
    update (Service.void id voidedBy reason now) (·) .document world
  | document id, world => query (Service.document id) (·) .document world
  | details id, world => query (Service.details id) (·) .details world
  | documentsByStatus status, world => query (Service.documentsByStatus status) (·) .documents world
  | pendingDocuments, world => query Service.pendingDocuments (·) .documents world
  | stockQuantity key, world => query (Service.stockQuantity key) (·) .quantity world
  | warehouseStock id, world => query (Service.warehouseStock id) (·) .levels world
  | productTotal id, world => query (Service.productTotal id) (·) .quantity world

/-- Carry out an operation. The hook is that of the engine; the service has its own. -/
def Operation.run (hook : SaleHook σ) : Operation → Database × σ →
    Except ServiceError Answer × (Database × σ)
  | stock op => op.run
  | catalog op => op.run
  | archive op => op.run
  | posting op => op.run hook
  | receivables op => op.run
  | service op => op.run

/-- Carry out operations in order, whether they succeed or fail. -/
def runAll (hook : SaleHook σ) (ops : List Operation) (world : Database × σ) : Database × σ :=
  ops.foldl (fun world op => (op.run hook world).2) world

/-! ## What an operation asks for -/

namespace Operation

/-- The batch that an operation applies to stock directly. -/
def batch? : Operation → Option Batch
  | .stock (.applyDelta key delta) => some (.ofList [(key, delta)])
  | .stock (.applyBatch batch) => some batch
  | _ => none

/-- The draft that an operation takes into the archive. -/
def draft? : Operation → Option Document
  | .archive (.insert d) => some d
  | .service (.create id request now) => some (request.document id now)
  | _ => none

/-- The document that an operation settles without moving stock, and by which record. -/
def settlement? : Operation → Option (DocumentId × Settlement)
  | .archive (.transition id _ _ s) => some (id, s)
  | .posting (.void id voidedBy reason now) | .service (.void id voidedBy reason now) =>
    some (id, .failure ⟨.voided voidedBy reason, now⟩)
  | _ => none

/-- The document that an operation posts, with the approver and the time. -/
def approval? : Operation → Option (DocumentId × String × Timestamp)
  | .posting (.post id approver now) | .service (.post id approver now _) =>
    some (id, approver, now)
  | _ => none

/-- Whether stock is moved and documents are settled by posting and voiding only. -/
def IsRegular : Operation → Prop
  | .stock (.applyDelta _ _) | .stock (.applyBatch _) | .archive (.transition ..) => False
  | _ => True

/-- No regular operation applies a batch of its own. -/
theorem IsRegular.batch?_eq_none {op : Operation} (h : op.IsRegular) : op.batch? = none := by
  cases op with
  | stock op =>
    cases op with
    | applyDelta | applyBatch => cases h
    | _ => rfl
  | _ => rfl

/-- A regular operation that settles a document without moving stock voids it. -/
theorem IsRegular.voids {op : Operation} (h : op.IsRegular) {id : DocumentId} {s : Settlement}
    (hs : op.settlement? = some (id, s)) : ∃ r, s = .failure r := by
  cases op with
  | archive op =>
    cases op with
    | transition => cases h
    | _ => cases hs
  | posting op =>
    cases op with
    | void =>
      cases hs
      exact ⟨_, rfl⟩
    | post => cases hs
  | service op =>
    cases op with
    | void =>
      cases hs
      exact ⟨_, rfl⟩
    | _ => cases hs
  | _ => cases hs

/-- The arguments can be held in memory: every text and list has fewer than 2^64 bytes and entries,
and net movements are numbers of 64 bits, or 128 in a batch, with a sign. -/
def Fits : Operation → Prop
  | .stock (.applyDelta _ delta) => fitsInt64 delta = true
  | .stock (.applyBatch batch) => ∀ m ∈ batch.toList, fitsInt128 m.2 = true
  | .catalog (.addProduct id name _) => Cbor.TextFits id.text ∧ Cbor.TextFits name
  | .catalog (.updateProduct _ name _) => ∀ text ∈ name, Cbor.TextFits text
  | .catalog (.addWarehouse id location) => Cbor.TextFits id.text ∧ Cbor.TextFits location
  | .catalog (.relabelWarehouse _ location) => Cbor.TextFits location
  | .archive (.insert d) => d.Fits
  | .archive (.transition _ _ _ s) => s.Fits
  | .posting (.post _ approver _) | .service (.post _ approver _ _) => Cbor.TextFits approver
  | .posting (.void _ voidedBy reason _) | .service (.void _ voidedBy reason _) =>
    Cbor.TextFits voidedBy ∧ ∀ text ∈ reason, Cbor.TextFits text
  | .receivables (.record customer document _ _) =>
    Cbor.TextFits customer.text ∧ Cbor.TextFits document.text
  | .receivables (.onSalePosted d _) => d.Fits
  | .service (.create id request now) => (request.document id now).Fits
  | _ => True

end Operation

/-! ## Histories -/

/-- The worlds that histories lead to, starting without rows, if each operation is `allowed` in the
database it meets. -/
inductive Reachable (hook : LedgerHook σ) (allowed : Database → Operation → Prop) :
    Database × σ → Prop
  | start (s : σ) : Reachable hook allowed (∅, s)
  | step {world : Database × σ} {op : Operation} :
    Reachable hook allowed world → op.Fits → allowed world.1 op →
      Reachable hook allowed (op.run hook.run world).2

/-- Every operation is allowed. -/
def anyOperation (_ : Database) (_ : Operation) : Prop := True

/-- Operations that move stock past the documents, or settle documents past posting and voiding,
are not allowed. -/
def regularOperation (_ : Database) (op : Operation) : Prop := op.IsRegular

/-- Further operations lead from a reachable world to a reachable world. -/
theorem Reachable.runAll {hook : LedgerHook σ} {allowed : Database → Operation → Prop}
    {ops : List Operation} (hfits : ∀ op ∈ ops, op.Fits)
    (hallowed : ∀ op ∈ ops, ∀ db, allowed db op) {world : Database × σ}
    (hw : Reachable hook allowed world) : Reachable hook allowed (runAll hook.run ops world) := by
  induction ops generalizing world with
  | nil => exact hw
  | cons op ops ih =>
    have hop := List.mem_cons_self (a := op) (l := ops)
    exact ih (fun op' h => hfits op' (List.mem_cons_of_mem op h))
      (fun op' h => hallowed op' (List.mem_cons_of_mem op h))
      (.step hw (hfits op hop) (hallowed op hop world.1))

theorem Reachable.mono {hook : LedgerHook σ} {allowed allowed' : Database → Operation → Prop}
    (h : ∀ db op, allowed db op → allowed' db op) {world : Database × σ}
    (hw : Reachable hook allowed world) : Reachable hook allowed' world := by
  induction hw with
  | start s => exact .start s
  | step _ hfits hallowed ih => exact .step ih hfits (h _ _ hallowed)

end Depot
