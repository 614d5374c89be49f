import Depot.Proofs.Receivables.Record
import Depot.Proofs.Rollback
/-!
# What is reported of a row that holds no quantity

An operation that meets a row without a quantity fails and reports bytes to find the row by. Stock
and occupancy report its key, whoever reads them: a query, a scan, a batch that is planned or
written, a posting, the removal of a warehouse. The ledger reports what the row holds, and no row
need have these bytes as its key (`brokenBalance_unnamed`).

So the reported bytes are the key of a broken row exactly if the operation is none of the ledger, or
what the ledger found is by chance the key of another broken balance (`corruption_told`). Nothing is
assumed of the tables.

## How the proof goes

One lemma a function says which bytes it reports (`Reports`); most functions report none. Only the
writing of a batch reads what it may have written before. It writes rows of eight bytes, so a broken
row that it meets was there from the beginning (`OldBroken`).
-/

namespace Depot

/-! ## Reported bytes -/

/-- The bytes that an error reports of a row without a quantity. -/
def StoreError.corrupt? : StoreError → Option Bytes
  | .corruptQuantity row => some row
  | _ => none

@[inherit_doc StoreError.corrupt?]
def StockError.corrupt? : StockError → Option Bytes
  | .store e => e.corrupt?
  | .refused _ => none

@[inherit_doc StoreError.corrupt?]
def CatalogError.corrupt? : CatalogError → Option Bytes
  | .store e => e.corrupt?
  | _ => none

@[inherit_doc StoreError.corrupt?]
def ArchiveError.corrupt? : ArchiveError → Option Bytes
  | .store e => e.corrupt?
  | _ => none

@[inherit_doc StoreError.corrupt?]
def PostingError.corrupt? : PostingError → Option Bytes
  | .store e => e.corrupt?
  | _ => none

@[inherit_doc StoreError.corrupt?]
def ServiceError.corrupt? : ServiceError → Option Bytes
  | .posting e => e.corrupt?
  | .catalog e => e.corrupt?
  | .archive e => e.corrupt?
  | .stock e => e.corrupt?
  | .store e => e.corrupt?
  | .invalidDocument _ => none

section Reports

variable {ε ε' α β : Type} {Q : Bytes → Prop} {corrupt? : ε → Option Bytes}
  {corrupt?' : ε' → Option Bytes}

/-- The bytes that the step reports, if it fails in that way, are as `Q` says. -/
abbrev Reports (Q : Bytes → Prop) (corrupt? : ε → Option Bytes) (step : Except ε α) : Prop :=
  ErrorsMeet (fun found => ∀ row ∈ found, Q row) corrupt? step

/-- An error of another kind reports no bytes. -/
theorem reports_error {e : ε} (h : corrupt? e = none) :
    Reports (α := α) Q corrupt? (.error e) :=
  errorsMeet_error (by simp [h])

theorem Reports.mono {Q' : Bytes → Prop} {step : Except ε α} (h : Reports Q corrupt? step)
    (hQ : ∀ row, Q row → Q' row) : Reports Q' corrupt? step :=
  fun e he row hrow => hQ row (h e he row hrow)

/-- An error is passed on with its bytes. -/
theorem Reports.mapError {step : Except ε α} (h : Reports Q corrupt? step) {f : ε → ε'}
    (hf : ∀ e, corrupt?' (f e) = corrupt? e) : Reports Q corrupt?' (step.mapError f) := by
  intro e' he'
  obtain ⟨e, he, rfl⟩ := mapError_eq_error he'
  rw [hf]
  exact h e he

/-- The errors of such a step are replaced by errors that report no bytes. -/
theorem reports_mapError {step : Except ε α} {f : ε → ε'} (hf : ∀ e, corrupt?' (f e) = none) :
    Reports Q corrupt?' (step.mapError f) := by
  intro e' he'
  obtain ⟨e, -, rfl⟩ := mapError_eq_error he'
  simp [hf]

theorem Reports.update {σ : Type} {work : UnitOfWork ε α} {wrap : ε → ServiceError}
    {answer : α → Answer} {world : Database × σ} (h : Reports Q corrupt? (work world.1))
    (hwrap : ∀ e, (wrap e).corrupt? = corrupt? e) :
    Reports Q ServiceError.corrupt? (Depot.update work wrap answer world).1 := by
  refine ErrorsMeet.update (P := fun e => ∀ row ∈ e.corrupt?, Q row) fun e he row hrow => ?_
  rw [hwrap] at hrow
  exact h e he row hrow

theorem Reports.query {σ : Type} {read : Database → Except ε α} {wrap : ε → ServiceError}
    {answer : α → Answer} {world : Database × σ} (h : Reports Q corrupt? (read world.1))
    (hwrap : ∀ e, (wrap e).corrupt? = corrupt? e) :
    Reports Q ServiceError.corrupt? (Depot.query read wrap answer world).1 := by
  refine ErrorsMeet.query (P := fun e => ∀ row ∈ e.corrupt?, Q row) fun e he row hrow => ?_
  rw [hwrap] at hrow
  exact h e he row hrow

end Reports

/-! ## Steps that report none -/

section Silent

variable {Q : Bytes → Prop}

theorem reports_encodeRow {α : Type} [Stored α] (x : α) :
    Reports Q StoreError.corrupt? (encodeRow x) := by
  unfold encodeRow
  split
  · exact errorsMeet_ok _
  · exact reports_error rfl

theorem reports_decodeRow {α : Type} [Stored α] (row : Bytes) :
    Reports Q StoreError.corrupt? (decodeRow row : Except StoreError α) := by
  unfold decodeRow
  split
  · exact errorsMeet_ok _
  · exact reports_error rfl

theorem Table.reports_record? {α : Type} [Stored α] (t : Table) (key : Bytes) :
    Reports Q StoreError.corrupt? (t.record? key : Except StoreError (Option α)) := by
  unfold record?
  split
  · exact errorsMeet_ok _
  · exact ErrorsMeet.bind (reports_decodeRow _) fun _ _ => errorsMeet_ok _

/-- The look-up of a row reports no bytes; what is made of the row may. -/
theorem Table.reports_lookUp {ε α β : Type} [Stored α] {corrupt? : ε → Option Bytes}
    {wrap : StoreError → ε} {next : Option α → Except ε β} (t : Table) (key : Bytes)
    (hwrap : ∀ e, corrupt? (wrap e) = e.corrupt?) (h : ∀ found, Reports Q corrupt? (next found)) :
    Reports Q corrupt? (((t.record? key).mapError wrap).bind next) :=
  ErrorsMeet.bind (Reports.mapError (reports_record? t key) hwrap) fun found _ => h found

theorem Table.reports_records {α : Type} [Stored α] (t : Table) :
    Reports Q StoreError.corrupt? (t.records : Except StoreError (List α)) :=
  ErrorsMeet.mapM fun _ _ => reports_decodeRow _

namespace Catalog

theorem reports_product (id : ProductId) (db : Database) :
    Reports Q CatalogError.corrupt? (product id db) := by
  refine Table.reports_lookUp db.products id.bytes (fun _ => rfl) fun found => ?_
  cases found with
  | none => exact reports_error rfl
  | some p => exact errorsMeet_ok p

theorem reports_warehouse (id : WarehouseId) (db : Database) :
    Reports Q CatalogError.corrupt? (warehouse id db) := by
  refine Table.reports_lookUp db.warehouses id.bytes (fun _ => rfl) fun found => ?_
  cases found with
  | none => exact reports_error rfl
  | some w => exact errorsMeet_ok w

theorem reports_putProduct (id : ProductId) (p : Product) (db : Database) :
    Reports Q CatalogError.corrupt? (putProduct id p db) :=
  ErrorsMeet.bind (Reports.mapError (reports_encodeRow p) fun _ => rfl) fun _ _ => errorsMeet_ok _

theorem reports_putWarehouse (id : WarehouseId) (w : Warehouse) (db : Database) :
    Reports Q CatalogError.corrupt? (putWarehouse id w db) :=
  ErrorsMeet.bind (Reports.mapError (reports_encodeRow w) fun _ => rfl) fun _ _ => errorsMeet_ok _

theorem reports_checkName (name : String) : Reports Q CatalogError.corrupt? (checkName name) := by
  unfold checkName
  split
  · exact reports_error rfl
  · split
    · exact reports_error rfl
    · exact errorsMeet_ok _

theorem reports_checkLocation (location : String) :
    Reports Q CatalogError.corrupt? (checkLocation location) := by
  unfold checkLocation
  split
  · exact reports_error rfl
  · split
    · exact reports_error rfl
    · exact errorsMeet_ok _

theorem reports_updateProduct (id : ProductId) (name : Option String) (unitPrice : Option UInt64)
    (db : Database) : Reports Q CatalogError.corrupt? (updateProduct id name unitPrice db) := by
  refine ErrorsMeet.bind ?_ fun _ _ =>
    ErrorsMeet.bind (reports_product id db) fun _ _ => reports_putProduct _ _ db
  cases name with
  | none => exact errorsMeet_ok _
  | some name => exact reports_checkName name

end Catalog

namespace Archive

theorem reports_load (id : DocumentId) (db : Database) :
    Reports Q ArchiveError.corrupt? (load id db) := by
  refine Table.reports_lookUp db.documents id.bytes (fun _ => rfl) fun found => ?_
  cases found with
  | none => exact reports_error rfl
  | some d => exact errorsMeet_ok d

theorem reports_list (db : Database) : Reports Q ArchiveError.corrupt? (list db) :=
  Reports.mapError (Table.reports_records db.documents) fun _ => rfl

theorem reports_listByStatus (status : DocumentStatus) (db : Database) :
    Reports Q ArchiveError.corrupt? (listByStatus status db) :=
  ErrorsMeet.bind (reports_list db) fun _ _ => errorsMeet_ok _

theorem reports_put (id : DocumentId) (d : Document) (db : Database) :
    Reports Q ArchiveError.corrupt? (put id d db) :=
  ErrorsMeet.bind (Reports.mapError (reports_encodeRow d) fun _ => rfl) fun _ _ => errorsMeet_ok _

theorem reports_insert (d : Document) (db : Database) :
    Reports Q ArchiveError.corrupt? (insert d db) := by
  unfold insert
  by_cases hdraft : d.status = .draft
  · simp only [hdraft, ne_eq, not_true_eq_false, if_false]
    refine ErrorsMeet.bind (Reports.mapError (reports_encodeRow d) fun _ => rfl) fun row _ => ?_
    split
    · exact reports_error rfl
    · exact errorsMeet_ok _
  · simp only [hdraft, ne_eq, not_false_eq_true, if_true]
    exact reports_error rfl

theorem reports_transition (id : DocumentId) (source target : DocumentStatus) (s : Settlement)
    (db : Database) : Reports Q ArchiveError.corrupt? (transition id source target s db) := by
  unfold transition
  split
  · exact reports_error rfl
  · refine ErrorsMeet.bind (reports_load id db) fun d _ => ?_
    split
    · exact reports_error rfl
    · exact reports_put id _ db

end Archive

end Silent

/-! ## Broken rows -/

/-- The table has a row with this key, which holds no eight bytes, or is a row of stock whose key is
none of a warehouse and a product. -/
def Database.Unreadable (db : Database) (name : TableName) (key : Bytes) : Prop :=
  ∃ row, (db.table name).get? key = some row ∧
    (row.length ≠ 8 ∨ name = .stock ∧ StockKey.ofBytes? key = none)

/-- Only a row of eight bytes holds a quantity; of any other the name that it is read under is
reported. -/
theorem reports_readQuantity {Q : Bytes → Prop} {name row : Bytes}
    (h : row.length ≠ 8 → Q name) : Reports Q StoreError.corrupt? (readQuantity name row) := by
  unfold readQuantity Bytes.toUInt64?
  split
  · exact errorsMeet_ok _
  · rename_i hnone
    refine errorsMeet_error fun found hfound => ?_
    cases hfound
    refine h fun hlength => ?_
    rw [if_pos hlength] at hnone
    cases hnone

theorem Table.reports_quantity {Q : Bytes → Prop} {t : Table} {key : Bytes}
    (h : ∀ row, t.get? key = some row → row.length ≠ 8 → Q key) :
    Reports Q StoreError.corrupt? (t.quantity key) := by
  unfold quantity
  split
  · exact errorsMeet_ok _
  · rename_i row hrow
    exact reports_readQuantity (h row hrow)

namespace Stock

variable {db : Database}

theorem reports_rowOf {Q : Bytes → Prop} (key : StockKey) :
    Reports Q StoreError.corrupt? (rowOf key) := by
  unfold rowOf
  split
  · exact errorsMeet_ok _
  · exact reports_error rfl

theorem reports_row (db : Database) (key : Bytes) :
    Reports (db.Unreadable .stock) StoreError.corrupt? (db.stock.quantity key) :=
  Table.reports_quantity fun row hrow hlength => ⟨row, hrow, .inl hlength⟩

theorem reports_occupancy (warehouse : WarehouseId) (db : Database) :
    Reports (db.Unreadable .occupancy) StoreError.corrupt? (occupancy warehouse db) :=
  Table.reports_quantity fun row hrow hlength => ⟨row, hrow, .inl hlength⟩

/-! ### Reading stock -/

theorem reports_quantity (key : StockKey) (db : Database) :
    Reports (db.Unreadable .stock) StockError.corrupt? (quantity key db) :=
  Reports.mapError (ErrorsMeet.bind (reports_rowOf key) fun row _ => reports_row db row)
    fun _ => rfl

/-- A row of the table whose quantity or key is read. -/
theorem reports_of_mem {row : Bytes × Bytes} (hrow : row ∈ db.stock.toList) :
    Reports (db.Unreadable .stock) StoreError.corrupt? (readQuantity row.1 row.2) :=
  reports_readQuantity fun hlength => ⟨row.2, SortedMap.mem_toList_iff.mp hrow, .inl hlength⟩

theorem unreadable_of_mem {row : Bytes × Bytes} (hrow : row ∈ db.stock.toList)
    (hkey : StockKey.ofBytes? row.1 = none) : db.Unreadable .stock row.1 :=
  ⟨row.2, SortedMap.mem_toList_iff.mp hrow, .inr ⟨rfl, hkey⟩⟩

theorem reports_readLevel {row : Bytes × Bytes} (hrow : row ∈ db.stock.toList) :
    Reports (db.Unreadable .stock) StoreError.corrupt? (readLevel row) := by
  refine ErrorsMeet.bind (reports_of_mem hrow) fun quantity _ => ?_
  cases hkey : StockKey.ofBytes? row.1 with
  | some key => exact errorsMeet_ok _
  | none =>
    refine errorsMeet_error fun found hfound => ?_
    cases hfound
    exact unreadable_of_mem hrow hkey

theorem reports_warehouseLevels (warehouse : WarehouseId) (db : Database) :
    Reports (db.Unreadable .stock) StockError.corrupt? (warehouseLevels warehouse db) := by
  unfold warehouseLevels
  split
  · exact reports_error rfl
  · exact Reports.mapError
      (ErrorsMeet.mapM fun row hrow => reports_readLevel (List.mem_of_mem_filter hrow))
      fun _ => rfl

theorem reports_addRow (product : ProductId) (total : UInt64) {row : Bytes × Bytes}
    (hrow : row ∈ db.stock.toList) :
    Reports (db.Unreadable .stock) StoreError.corrupt? (addRow product total row) := by
  unfold addRow
  split
  · rename_i hkey
    refine errorsMeet_error fun found hfound => ?_
    cases hfound
    exact unreadable_of_mem hrow hkey
  · split
    · exact ErrorsMeet.bind (reports_of_mem hrow) fun _ _ => errorsMeet_ok _
    · exact errorsMeet_ok total

theorem reports_productTotal (product : ProductId) (db : Database) :
    Reports (db.Unreadable .stock) StockError.corrupt? (productTotal product db) :=
  Reports.mapError
    (ErrorsMeet.foldlM (I := fun _ => True)
      (fun total _ _ hrow => reports_addRow product total hrow)
      (fun _ _ _ _ _ _ => trivial) trivial)
    fun _ => rfl

/-! ### Applying a batch -/

/-- The row is one of stock or occupancy. -/
abbrev Unreadable (db : Database) (key : Bytes) : Prop :=
  db.Unreadable .stock key ∨ db.Unreadable .occupancy key

theorem reports_planOne (db : Database) (move : StockKey × Int) :
    Reports (Unreadable db) StockError.corrupt? (planOne db.stock move) := by
  refine ErrorsMeet.bind (Reports.mapError (reports_rowOf move.1) fun _ => rfl) fun row _ => ?_
  refine ErrorsMeet.bind ?_ fun before _ => ?_
  · exact Reports.mapError ((reports_row db row).mono fun _ h => .inl h) fun _ => rfl
  · exact ErrorsMeet.bind (reports_mapError fun _ => rfl) fun _ _ => errorsMeet_ok _

/-- Every row of occupancy without eight bytes is one of `db`. -/
def OldBroken (db db' : Database) : Prop :=
  db'.occupancy.Every fun key row => row.length ≠ 8 → db.Unreadable .occupancy key

theorem oldBroken_self (db : Database) : OldBroken db db :=
  fun _ row hrow hlength => ⟨row, hrow, .inl hlength⟩

theorem OldBroken.reports_write {db' : Database} (h : OldBroken db db') (c : Change) :
    Reports (Unreadable db) StoreError.corrupt? (c.write db') := by
  unfold Change.write
  split
  · refine ErrorsMeet.bind (Table.reports_quantity fun row hrow hlength => ?_)
      fun _ _ => errorsMeet_ok _
    exact .inr (h _ row hrow hlength)
  · exact errorsMeet_ok _

/-- What is written are eight bytes. -/
theorem OldBroken.write {db' db'' : Database} (h : OldBroken db db') {c : Change}
    (hc : c.write db' = .ok db'') : OldBroken db db'' := by
  unfold Change.write at hc
  split at hc
  · obtain ⟨count, -, hc⟩ := bind_eq_ok hc
    cases hc
    exact Table.Every.setQuantity h fun _ hlength =>
      absurd (Bytes.length_bigEndian 8 _) hlength
  · cases hc
    exact h

theorem reports_applyBatch (batch : Batch) (db : Database) :
    Reports (Unreadable db) StockError.corrupt? (applyBatch batch db) := by
  refine ErrorsMeet.bind (ErrorsMeet.mapM fun move _ => reports_planOne db move) fun changes _ => ?_
  refine ErrorsMeet.bind (Reports.mapError ?_ fun _ => rfl) fun _ _ => errorsMeet_ok _
  -- the rows that the changes so far have written hold quantities
  exact ErrorsMeet.foldlM (I := OldBroken db) (fun _ h c _ => h.reports_write c)
    (fun _ h _ _ _ hc => h.write hc) (oldBroken_self db)

theorem reports_applyDelta (key : StockKey) (delta : Int) (db : Database) :
    Reports (Unreadable db) StockError.corrupt? (applyDelta key delta db) :=
  ErrorsMeet.bind (reports_applyBatch _ db) fun _ _ => errorsMeet_ok _

end Stock

/-! ## The layers above -/

theorem Catalog.reports_removeWarehouse (id : WarehouseId) (db : Database) :
    Reports (db.Unreadable .occupancy) CatalogError.corrupt? (removeWarehouse id db) := by
  refine ErrorsMeet.bind (reports_warehouse id db) fun _ _ => ?_
  refine ErrorsMeet.bind (Reports.mapError (Stock.reports_occupancy id db) fun _ => rfl)
    fun count _ => ?_
  split
  · exact reports_error rfl
  · exact errorsMeet_ok _

namespace Posting

theorem corrupt?_ofArchive (e : ArchiveError) :
    (PostingError.ofArchive e).corrupt? = e.corrupt? := by
  cases e <;> rfl

theorem corrupt?_ofStock (e : StockError) : (PostingError.ofStock e).corrupt? = e.corrupt? := by
  cases e <;> rfl

section Silent

variable {Q : Bytes → Prop}

theorem reports_loadDraft (id : DocumentId) (db : Database) :
    Reports Q PostingError.corrupt? (loadDraft id db) := by
  refine ErrorsMeet.bind ((Archive.reports_load id db).mapError corrupt?_ofArchive) fun d _ => ?_
  split
  · exact reports_error rfl
  · exact errorsMeet_ok _

theorem reports_checkWarehouse (db : Database) (id : WarehouseId) :
    Reports Q PostingError.corrupt? (checkWarehouse db id) := by
  refine Table.reports_lookUp db.warehouses id.bytes (fun _ => rfl) fun found => ?_
  split
  · exact reports_error rfl
  · exact errorsMeet_ok _

theorem reports_checkProduct (db : Database) (line : DocumentLine) :
    Reports Q PostingError.corrupt? (checkProduct db line) := by
  refine Table.reports_lookUp db.products line.product.bytes (fun _ => rfl) fun found => ?_
  split
  · exact reports_error rfl
  · exact errorsMeet_ok _

theorem reports_transition (id : DocumentId) (source target : DocumentStatus) (s : Settlement)
    (db : Database) : Reports Q PostingError.corrupt?
      ((Archive.transition id source target s db).mapError .ofArchive) :=
  Reports.mapError (Archive.reports_transition id source target s db) corrupt?_ofArchive

theorem reports_void (id : DocumentId) (voidedBy : String) (reason : Option String)
    (now : Timestamp) (db : Database) :
    Reports Q PostingError.corrupt? (void id voidedBy reason now db) :=
  ErrorsMeet.bind (reports_loadDraft id db) fun _ _ => reports_transition id _ _ _ db

end Silent

theorem reports_attempt (id : DocumentId) (approver : String) (now : Timestamp) (db : Database) :
    Reports (Stock.Unreadable db) PostingError.corrupt? (attempt id approver now db) := by
  refine ErrorsMeet.bind (reports_loadDraft id db) fun d _ => ?_
  refine ErrorsMeet.bind (reports_mapError fun _ => rfl) fun _ _ => ?_
  refine ErrorsMeet.bind (ErrorsMeet.forM fun w _ => reports_checkWarehouse db w) fun _ _ => ?_
  refine ErrorsMeet.bind (ErrorsMeet.forM fun line _ => reports_checkProduct db line) fun _ _ => ?_
  have hbatch := Stock.reports_applyBatch d.batch db
  split
  · exact ErrorsMeet.bind (reports_transition id _ _ _ _) fun _ _ => errorsMeet_ok _
  · exact ErrorsMeet.bind (reports_transition id _ _ _ db) fun _ _ => errorsMeet_ok _
  · rename_i e _ he
    refine errorsMeet_error ?_
    rw [corrupt?_ofStock]
    exact hbatch e he

theorem reports_post {σ : Type} (hook : SaleHook σ) (id : DocumentId) (approver : String)
    (now : Timestamp) (world : Database × σ) :
    Reports (Stock.Unreadable world.1) PostingError.corrupt?
      (post hook id approver now world).1 := by
  cases hattempt : attempt id approver now world.1 with
  | error e =>
    rw [post_of_error hattempt]
    exact errorsMeet_error (reports_attempt id approver now world.1 e hattempt)
  | ok result =>
    obtain ⟨⟨d⟩ | ⟨s⟩, db⟩ := result
    · rw [post_of_posted hattempt]
      exact errorsMeet_ok d
    · rw [post_of_rejected hattempt]
      exact reports_error rfl

end Posting

namespace Receivables

/-- The ledger reports what the row of the customer holds. -/
theorem reports_balance (customer : CustomerId) (db : Database) :
    Reports (fun found => db.receivables.get? customer.bytes = some found ∧ found.length ≠ 8)
      StoreError.corrupt? (balance customer db) := by
  unfold balance
  split
  · exact errorsMeet_ok _
  · rename_i row hrow
    exact reports_readQuantity fun hlength => ⟨hrow, hlength⟩

theorem reports_record (customer : CustomerId) (document : DocumentId) (totalValue : UInt64)
    (now : Timestamp) (db : Database) :
    Reports (fun found => db.receivables.get? customer.bytes = some found ∧ found.length ≠ 8)
      StoreError.corrupt? (record customer document totalValue now db) := by
  refine ErrorsMeet.bind (reports_encodeRow _) fun row _ => ?_
  dsimp only
  split
  · exact errorsMeet_ok _
  · exact ErrorsMeet.bind (reports_balance customer db) fun _ _ => errorsMeet_ok _

theorem reports_onSalePosted (d : Document) (now : Timestamp) (db : Database) :
    Reports (fun found => ∃ customer ∈ debtor? d,
        db.receivables.get? customer.bytes = some found ∧ found.length ≠ 8)
      StoreError.corrupt? (onSalePosted d now db) := by
  unfold onSalePosted
  split
  · rename_i customer hkind hcustomer
    have hdebtor : debtor? d = some customer := by rw [debtor?, if_pos hkind, hcustomer]
    refine ErrorsMeet.bind ?_ fun _ _ => errorsMeet_ok _
    exact (reports_record customer d.id d.totalValue now db).mono
      fun _ h => ⟨customer, hdebtor, h⟩
  · exact errorsMeet_ok _

end Receivables

namespace Service

/-- The check of a transfer reads stock, and nothing else of a new draft does. -/
theorem reports_checkAvailable (d : Document) (db : Database) :
    Reports (db.Unreadable .stock) ServiceError.corrupt? (checkAvailable d db) := by
  refine ErrorsMeet.forM fun m _ => ?_
  obtain ⟨key, delta⟩ := m
  dsimp only
  split
  · exact errorsMeet_ok ()
  · refine ErrorsMeet.bind ((Stock.reports_quantity key db).mapError fun _ => rfl) fun _ _ => ?_
    split
    · exact reports_error rfl
    · exact errorsMeet_ok ()

theorem reports_keep {Q : Bytes → Prop} (d : Document) (db : Database) :
    Reports Q ServiceError.corrupt? (keep d db) := by
  refine ErrorsMeet.bind (reports_mapError fun _ => rfl) fun _ _ => ?_
  refine ErrorsMeet.bind (ErrorsMeet.forM fun w _ => ?_) fun _ _ => ?_
  · exact ErrorsMeet.bind ((Catalog.reports_warehouse w db).mapError fun _ => rfl)
      fun _ _ => errorsMeet_ok _
  refine ErrorsMeet.bind (ErrorsMeet.forM fun line _ => ?_) fun _ _ => ?_
  · exact ErrorsMeet.bind ((Catalog.reports_product line.product db).mapError fun _ => rfl)
      fun _ _ => errorsMeet_ok _
  exact ErrorsMeet.bind ((Archive.reports_insert d db).mapError fun _ => rfl)
    fun _ _ => errorsMeet_ok _

theorem reports_create (id : DocumentId) (request : DraftRequest) (now : Timestamp)
    (db : Database) :
    Reports (db.Unreadable .stock) ServiceError.corrupt? (create id request now db) := by
  unfold create
  dsimp only
  split
  · refine ErrorsMeet.bind (reports_mapError fun _ => rfl) fun _ _ => ?_
    exact ErrorsMeet.bind (reports_checkAvailable _ db) fun _ _ => reports_keep _ db
  · exact reports_keep _ db

theorem reports_details {Q : Bytes → Prop} (id : DocumentId) (db : Database) :
    Reports Q ServiceError.corrupt? (details id db) := by
  have hwarehouse (w : Option WarehouseId) :
      Reports Q ServiceError.corrupt? (lookUpWarehouse w db) := by
    cases w with
    | none => exact errorsMeet_ok none
    | some w => exact Reports.mapError (Table.reports_record? db.warehouses w.bytes) fun _ => rfl
  refine ErrorsMeet.bind ((Archive.reports_load id db).mapError fun _ => rfl) fun d _ => ?_
  refine ErrorsMeet.bind (hwarehouse d.source) fun _ _ => ?_
  refine ErrorsMeet.bind (hwarehouse d.destination) fun _ _ => ?_
  refine ErrorsMeet.bind (ErrorsMeet.mapM fun line _ => ?_) fun _ _ => errorsMeet_ok _
  exact Reports.mapError (Table.reports_record? db.products line.product.bytes) fun _ => rfl

theorem reports_warehouseStock (id : WarehouseId) (db : Database) :
    Reports (db.Unreadable .stock) ServiceError.corrupt? (warehouseStock id db) :=
  ErrorsMeet.bind ((Catalog.reports_warehouse id db).mapError fun _ => rfl) fun _ _ =>
    (Stock.reports_warehouseLevels id db).mapError fun _ => rfl

end Service

/-! ## Operations -/

namespace Operation

/-- The tables whose quantities the operation may read. -/
def quantityTables : Operation → List TableName
  | .stock (.applyDelta ..) | .stock (.applyBatch _) | .posting (.post ..) | .service (.post ..) =>
    [.stock, .occupancy]
  | .stock _ | .service (.create ..) | .service (.stockQuantity _) | .service (.warehouseStock _)
  | .service (.productTotal _) => [.stock]
  | .catalog (.removeWarehouse _) => [.occupancy]
  | .receivables (.record ..) | .receivables (.balance _) | .receivables (.onSalePosted ..) =>
    [.receivables]
  | _ => []

/-- The customer whose balance the operation asks the ledger for. -/
def debtor? : Operation → Option CustomerId
  | .receivables (.record customer ..) | .receivables (.balance customer) => some customer
  | .receivables (.onSalePosted d _) => Receivables.debtor? d
  | _ => none

/-- What the bytes are that an operation reports of a row without a quantity. -/
structure Reported (op : Operation) (db : Database) (found : Bytes) : Prop where
  /-- The ledger reports what the customer's row holds. -/
  held : ∀ customer ∈ op.debtor?,
    db.receivables.get? customer.bytes = some found ∧ found.length ≠ 8
  /-- Any other operation reports the key of a broken row. -/
  key : op.debtor? = none → ∃ name ∈ op.quantityTables, db.Unreadable name found

section Reported

variable {σ : Type} {op : Operation} {db : Database} {step : Except ServiceError Answer}

theorem reported_of_silent (h : Reports (fun _ => False) ServiceError.corrupt? step) :
    Reports (op.Reported db) ServiceError.corrupt? step :=
  h.mono fun _ h => h.elim

theorem reported_of_table {name : TableName} (hname : name ∈ op.quantityTables)
    (hdebtor : op.debtor? = none) (h : Reports (db.Unreadable name) ServiceError.corrupt? step) :
    Reports (op.Reported db) ServiceError.corrupt? step :=
  h.mono fun _ h => ⟨by simp [hdebtor], fun _ => ⟨name, hname, h⟩⟩

theorem reported_of_batch (htables : op.quantityTables = [.stock, .occupancy])
    (hdebtor : op.debtor? = none) (h : Reports (Stock.Unreadable db) ServiceError.corrupt? step) :
    Reports (op.Reported db) ServiceError.corrupt? step :=
  h.mono fun _ h => ⟨by simp [hdebtor], fun _ => by simpa [htables] using h⟩

theorem reported_of_debtor {customer : CustomerId} (hdebtor : op.debtor? = some customer)
    (h : Reports (fun found => db.receivables.get? customer.bytes = some found ∧ found.length ≠ 8)
      ServiceError.corrupt? step) :
    Reports (op.Reported db) ServiceError.corrupt? step :=
  h.mono fun _ h => ⟨by simpa [hdebtor] using h, by simp [hdebtor]⟩

theorem reported_stock (op : StockOperation) (world : Database × σ) :
    Reports ((Operation.stock op).Reported world.1) ServiceError.corrupt? (op.run world).1 := by
  cases op with
  | applyDelta key delta =>
    exact reported_of_batch rfl rfl ((Stock.reports_applyDelta key delta _).update fun _ => rfl)
  | applyBatch batch =>
    exact reported_of_batch rfl rfl ((Stock.reports_applyBatch batch _).update fun _ => rfl)
  | quantity key =>
    exact reported_of_table (by simp [quantityTables]) rfl
      ((Stock.reports_quantity key _).query fun _ => rfl)
  | levels w =>
    exact reported_of_table (by simp [quantityTables]) rfl
      ((Stock.reports_warehouseLevels w _).query fun _ => rfl)
  | total p =>
    exact reported_of_table (by simp [quantityTables]) rfl
      ((Stock.reports_productTotal p _).query fun _ => rfl)

theorem reported_catalog (op : CatalogOperation) (world : Database × σ) :
    Reports ((Operation.catalog op).Reported world.1) ServiceError.corrupt? (op.run world).1 := by
  cases op with
  | addProduct id name unitPrice =>
    have hadd : Reports (fun _ => False) CatalogError.corrupt?
        (Catalog.addProduct id name unitPrice world.1) :=
      ErrorsMeet.bind (Catalog.reports_checkName name) fun _ _ => Catalog.reports_putProduct id _ _
    exact reported_of_silent (hadd.update fun _ => rfl)
  | product id =>
    exact reported_of_silent ((Catalog.reports_product id _).query fun _ => rfl)
  | updateProduct id name unitPrice =>
    exact reported_of_silent
      ((Catalog.reports_updateProduct id name unitPrice _).update fun _ => rfl)
  | addWarehouse id location =>
    have hadd : Reports (fun _ => False) CatalogError.corrupt?
        (Catalog.addWarehouse id location world.1) :=
      ErrorsMeet.bind (Catalog.reports_checkLocation location)
        fun _ _ => Catalog.reports_putWarehouse id _ _
    exact reported_of_silent (hadd.update fun _ => rfl)
  | warehouse id =>
    exact reported_of_silent ((Catalog.reports_warehouse id _).query fun _ => rfl)
  | warehouses =>
    have hlist : Reports (fun _ => False) CatalogError.corrupt? (Catalog.warehouses world.1) :=
      Reports.mapError (Table.reports_records _) fun _ => rfl
    exact reported_of_silent (hlist.query fun _ => rfl)
  | relabelWarehouse id location =>
    have hrelabel : Reports (fun _ => False) CatalogError.corrupt?
        (Catalog.relabelWarehouse id location world.1) :=
      ErrorsMeet.bind (Catalog.reports_checkLocation location) fun _ _ =>
        ErrorsMeet.bind (Catalog.reports_warehouse id _) fun _ _ =>
          Catalog.reports_putWarehouse id _ _
    exact reported_of_silent (hrelabel.update fun _ => rfl)
  | removeWarehouse id =>
    exact reported_of_table (by simp [quantityTables]) rfl
      ((Catalog.reports_removeWarehouse id _).update fun _ => rfl)

theorem reported_archive (op : ArchiveOperation) (world : Database × σ) :
    Reports ((Operation.archive op).Reported world.1) ServiceError.corrupt? (op.run world).1 := by
  refine reported_of_silent ?_
  cases op with
  | insert d => exact (Archive.reports_insert d _).update fun _ => rfl
  | load id => exact (Archive.reports_load id _).query fun _ => rfl
  | list => exact (Archive.reports_list _).query fun _ => rfl
  | listByStatus status => exact (Archive.reports_listByStatus status _).query fun _ => rfl
  | transition id source target s =>
    exact (Archive.reports_transition id source target s _).update fun _ => rfl

theorem reported_posting (hook : SaleHook σ) (op : PostingOperation) (world : Database × σ) :
    Reports ((Operation.posting op).Reported world.1) ServiceError.corrupt?
      (op.run hook world).1 := by
  cases op with
  | post id approver now =>
    refine reported_of_batch rfl rfl (ErrorsMeet.map (Reports.mapError ?_ fun _ => rfl) _)
    exact Posting.reports_post hook id approver now world
  | void id voidedBy reason now =>
    exact reported_of_silent ((Posting.reports_void id voidedBy reason now _).update fun _ => rfl)

theorem reported_receivables (op : ReceivablesOperation) (world : Database × σ) :
    Reports ((Operation.receivables op).Reported world.1) ServiceError.corrupt?
      (op.run world).1 := by
  cases op with
  | record customer document totalValue now =>
    exact reported_of_debtor rfl
      ((Receivables.reports_record customer document totalValue now _).update fun _ => rfl)
  | balance customer =>
    exact reported_of_debtor rfl ((Receivables.reports_balance customer _).query fun _ => rfl)
  | purchases customer =>
    have hlist : Reports (fun _ => False) StoreError.corrupt?
        (Receivables.purchases customer world.1) :=
      ErrorsMeet.mapM fun _ _ => reports_decodeRow _
    exact reported_of_silent (hlist.query fun _ => rfl)
  | onSalePosted d now =>
    have hposted : Reports ((Operation.receivables (.onSalePosted d now)).Reported world.1)
        StoreError.corrupt? (Receivables.onSalePosted d now world.1) := by
      refine (Receivables.reports_onSalePosted d now world.1).mono fun found h => ?_
      obtain ⟨customer, hcustomer, h⟩ := h
      have hdebtor : (Operation.receivables (.onSalePosted d now)).debtor? = some customer :=
        hcustomer
      exact ⟨by simpa [hdebtor] using h, by simp [hdebtor]⟩
    exact hposted.update fun _ => rfl

theorem reported_service (op : ServiceOperation) (world : Database × σ) :
    Reports ((Operation.service op).Reported world.1) ServiceError.corrupt? (op.run world).1 := by
  cases op with
  | create id request now =>
    exact reported_of_table (by simp [quantityTables]) rfl
      ((Service.reports_create id request now _).update fun _ => rfl)
  | post id approver now recordedAt =>
    refine reported_of_batch rfl rfl (ErrorsMeet.map (Reports.mapError ?_ fun _ => rfl) _)
    exact Posting.reports_post (Receivables.hook recordedAt) id approver now (world.1, ())
  | void id voidedBy reason now =>
    exact reported_of_silent (Reports.update
      ((Posting.reports_void id voidedBy reason now _).mapError fun _ => rfl) fun _ => rfl)
  | document id =>
    exact reported_of_silent
      (Reports.query ((Archive.reports_load id _).mapError fun _ => rfl) fun _ => rfl)
  | details id =>
    exact reported_of_silent ((Service.reports_details id _).query fun _ => rfl)
  | documentsByStatus status =>
    exact reported_of_silent
      (Reports.query ((Archive.reports_listByStatus status _).mapError fun _ => rfl) fun _ => rfl)
  | pendingDocuments =>
    exact reported_of_silent
      (Reports.query ((Archive.reports_listByStatus .draft _).mapError fun _ => rfl) fun _ => rfl)
  | stockQuantity key =>
    exact reported_of_table (by simp [quantityTables]) rfl
      (Reports.query ((Stock.reports_quantity key _).mapError fun _ => rfl) fun _ => rfl)
  | warehouseStock id =>
    exact reported_of_table (by simp [quantityTables]) rfl
      ((Service.reports_warehouseStock id _).query fun _ => rfl)
  | productTotal id =>
    exact reported_of_table (by simp [quantityTables]) rfl
      (Reports.query ((Stock.reports_productTotal id _).mapError fun _ => rfl) fun _ => rfl)

theorem reported_run (hook : SaleHook σ) (op : Operation) (world : Database × σ) :
    Reports (op.Reported world.1) ServiceError.corrupt? (op.run hook world).1 := by
  cases op with
  | stock op => exact reported_stock op world
  | catalog op => exact reported_catalog op world
  | archive op => exact reported_archive op world
  | posting op => exact reported_posting hook op world
  | receivables op => exact reported_receivables op world
  | service op => exact reported_service op world

/-- An operation that asks the ledger for a balance reads no other quantity. -/
theorem quantityTables_of_debtor {customer : CustomerId} (h : op.debtor? = some customer) :
    op.quantityTables = [.receivables] := by
  cases op with
  | receivables op =>
    cases op with
    | purchases => cases h
    | _ => rfl
  | _ => cases h

/-- The bytes are the key of a broken row of a table that was read, unless they are what the ledger
found, and no key of a broken balance by chance. -/
theorem Reported.key_iff {found : Bytes} (h : op.Reported db found) :
    (∃ name ∈ op.quantityTables, db.Unreadable name found) ↔
      op.debtor? = none ∨ db.Unreadable .receivables found := by
  cases hdebtor : op.debtor? with
  | none => exact iff_of_true (h.key hdebtor) (.inl rfl)
  | some customer => simp [quantityTables_of_debtor hdebtor]

end Reported

end Operation

/-- Whatever the tables hold, and whatever the hook does: an operation that reports a row without a
quantity reports the key of a broken row in a table that it reads, unless it asks the ledger for a
balance. The ledger reports what the customer's row holds; this is the key of a broken row only if
another balance is broken that has this key. -/
theorem corruption_told {σ : Type} (hook : SaleHook σ) (op : Operation) (world : Database × σ)
    {e : ServiceError} {found : Bytes} (he : (op.run hook world).1 = .error e)
    (hfound : e.corrupt? = some found) :
    op.Reported world.1 found ∧
      ((∃ name ∈ op.quantityTables, world.1.Unreadable name found) ↔
        op.debtor? = none ∨ world.1.Unreadable .receivables found) := by
  have hreported := op.reported_run hook world e he found hfound
  exact ⟨hreported, hreported.key_iff⟩

/-- The number of rows that a posting cannot read is reported by its key, the name of the
warehouse. -/
theorem corruption_told_brokenCount :
    let op : Operation := .posting (.post ⟨"d"⟩ "b" (.ofUnixNanos 1))
    let e : ServiceError := .posting (.store (.corruptQuantity (Bytes.ofText "w")))
    (op.run SaleHook.none (brokenCount, ())).1 = .error e ∧
      ∃ name ∈ op.quantityTables, brokenCount.Unreadable name (Bytes.ofText "w") := by
  intro op e
  have he : (op.run SaleHook.none (brokenCount, ())).1 = .error e := by decide +kernel
  have htold := corruption_told SaleHook.none op (brokenCount, ()) he rfl
  exact ⟨he, htold.1.key rfl⟩

/-- A balance that is held by a single byte. -/
def brokenBalance : Database :=
  { Database.empty with receivables := .insert ∅ (Bytes.ofText "a") [1] }

/-- What the ledger reports of this balance, to a query and to a sale that is recorded, is the key
of no row of any table. -/
theorem brokenBalance_unnamed :
    let found : Bytes := [1]
    Receivables.balance ⟨"a"⟩ brokenBalance = .error (.corruptQuantity found) ∧
      Receivables.record ⟨"a"⟩ ⟨"d"⟩ 1 (.ofUnixNanos 0) brokenBalance =
        .error (.corruptQuantity found) ∧
      brokenBalance.Unreadable .receivables (Bytes.ofText "a") ∧
      ∀ name, (brokenBalance.table name).get? found = none := by
  refine ⟨by decide +kernel, by decide +kernel, ⟨[1], by decide +kernel, .inl (by decide)⟩, ?_⟩
  intro name
  cases name <;> decide +kernel

end Depot
