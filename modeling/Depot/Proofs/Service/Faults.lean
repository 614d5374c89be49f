import Depot.Proofs.Archive
import Depot.Proofs.Catalog.Lookup
import Depot.Proofs.Posting
import Depot.Proofs.Stock.Rows
/-!
# The service never reports a fault of the system

An error of the service is an answer to what was asked, such as a document that is not there, or it
is a fault: of the medium, of a row that cannot be read, of a record that cannot be written
(`ServiceError.IsFault`). Whatever the layers were asked to do before, with any identifiers, texts
and times, no operation of the service reports a fault (`Service.no_fault`).

## How the proof goes

Every writer leaves rows that every reader accepts (`Database.Readable`): the rows of the archive
and the catalog are stored forms (`Database.Integrity`), and the keys of stock are those of
warehouses and products (`Reachable.stockKeys`). So no read reports a fault, and what is left are
the answers. A step is `Faultless` if it reports none, and so is a sequence of such steps.

The one record that the service writes of its own accord is a document, and that has a stored form
as soon as the time of the operation is in range.

## The side condition

It is about the operation at hand only. A time out of range in an earlier operation made that
operation fail, and an identifier given out twice is a conflict.
-/

namespace Depot

/-! ## Faults -/

/-- The error is a fault of the system or its medium. So is a sum that no 128 bits hold, though it
has the code of a refusal. -/
def ServiceError.IsFault (e : ServiceError) : Prop :=
  e.code = .internal ∨ e.code = .unavailable ∨
    ∃ key, e = .posting (.refused (.outOfRange key)) ∨ e = .stock (.refused (.outOfRange key))

namespace ServiceError

theorem not_isFault_iff {e : ServiceError} :
    ¬ e.IsFault ↔ e.code ≠ .internal ∧ e.code ≠ .unavailable ∧
      ∀ key, e ≠ .posting (.refused (.outOfRange key)) ∧
        e ≠ .stock (.refused (.outOfRange key)) := by
  simp only [IsFault, not_or, not_exists, ne_eq]

@[simp] theorem not_isFault_invalidDocument (found : List Violation) :
    ¬ (invalidDocument found).IsFault := by
  simp [IsFault, code]

@[simp] theorem isFault_catalog {e : CatalogError} :
    (catalog e).IsFault ↔ e.code = .internal ∨ e.code = .unavailable := by
  simp [IsFault, code]

@[simp] theorem isFault_archive {e : ArchiveError} :
    (archive e).IsFault ↔ e.code = .internal ∨ e.code = .unavailable := by
  simp [IsFault, code]

@[simp] theorem isFault_stock {e : StockError} :
    (stock e).IsFault ↔ e.code = .internal ∨ e.code = .unavailable ∨
      ∃ key, e = .refused (.outOfRange key) := by
  simp [IsFault, code]

@[simp] theorem isFault_posting {e : PostingError} :
    (posting e).IsFault ↔ e.code = .internal ∨ e.code = .unavailable ∨
      ∃ key, e = .refused (.outOfRange key) := by
  simp [IsFault, code]

end ServiceError

section Faultless

variable {ε ε' α β : Type}

/-- If the step fails, its error is no fault, once it is `wrap`ped as an error of the service. -/
def Faultless (wrap : ε → ServiceError) (step : Except ε α) : Prop :=
  ∀ e, step = .error e → ¬ (wrap e).IsFault

variable {wrap : ε → ServiceError}

theorem faultless_ok (x : α) : Faultless wrap (.ok x) := errorsMeet_ok x

theorem faultless_error {e : ε} (h : ¬ (wrap e).IsFault) : Faultless (α := α) wrap (.error e) :=
  errorsMeet_error h

theorem Faultless.bind {step : Except ε α} {next : α → Except ε β} (h : Faultless wrap step)
    (hnext : ∀ x, step = .ok x → Faultless wrap (next x)) : Faultless wrap (step >>= next) :=
  ErrorsMeet.bind h hnext

theorem Faultless.lift {step : Except ε α} (h : Faultless wrap step) :
    Faultless (·) (step.mapError wrap) :=
  ErrorsMeet.lift (P := fun e : ServiceError => ¬ e.IsFault) h

theorem Faultless.map {step : Except ε α} (h : Faultless wrap step) (f : α → β) :
    Faultless wrap (step.map f) :=
  ErrorsMeet.map h f

theorem Faultless.forM {f : α → Except ε Unit} {l : List α}
    (h : ∀ x ∈ l, Faultless wrap (f x)) : Faultless wrap (l.forM f) :=
  ErrorsMeet.forM h

theorem Faultless.mapM {f : α → Except ε β} {l : List α}
    (h : ∀ x ∈ l, Faultless wrap (f x)) : Faultless wrap (l.mapM f) :=
  ErrorsMeet.mapM h

theorem Faultless.update {σ : Type} {work : UnitOfWork ε α} {answer : α → Answer}
    {world : Database × σ} (h : Faultless wrap (work world.1)) :
    Faultless (·) (Depot.update work wrap answer world).1 :=
  ErrorsMeet.update (P := fun e => ¬ e.IsFault) h

theorem Faultless.query {σ : Type} {read : Database → Except ε α} {answer : α → Answer}
    {world : Database × σ} (h : Faultless wrap (read world.1)) :
    Faultless (·) (Depot.query read wrap answer world).1 :=
  ErrorsMeet.query (P := fun e => ¬ e.IsFault) h

end Faultless

/-! ## Rows -/

/-- Every row can be read: it is the stored form of a record, or holds a quantity, and a row of
stock has the key of a warehouse and a product. -/
structure Database.Readable (db : Database) : Prop where
  documents : db.documents.Every fun _ row => ∃ d : Document, decodeRow row = .ok d
  warehouses : db.warehouses.Every fun _ row => ∃ w : Warehouse, decodeRow row = .ok w
  products : db.products.Every fun _ row => ∃ p : Product, decodeRow row = .ok p
  stock : db.stock.Every fun key row => ∃ level, Stock.readLevel (key, row) = .ok level
  occupancy : db.occupancy.Every fun key row => ∃ count, readQuantity key row = .ok count

theorem Database.Integrity.readable {db : Database} (hdb : db.Integrity)
    (hkeys : db.stock.Every Stock.isStockKey) : db.Readable where
  documents := by
    intro key row hrow
    obtain ⟨d, -, hd⟩ := hdb.documents key row hrow
    exact ⟨d, hd.decodeRow⟩
  warehouses := by
    intro key row hrow
    obtain ⟨w, -, hfits, rfl⟩ := hdb.warehouses key row hrow
    exact ⟨w, Warehouse.decodeRow_bytes hfits⟩
  products := by
    intro key row hrow
    obtain ⟨p, -, hfits, rfl⟩ := hdb.products key row hrow
    exact ⟨p, Product.decodeRow_bytes hfits⟩
  stock := by
    intro key row hrow
    obtain ⟨k, hk⟩ := hkeys key row hrow
    obtain ⟨q, -, hq⟩ := hdb.stock key row hrow
    exact ⟨⟨k, q⟩, Stock.readLevel_of_row hk hq⟩
  occupancy := by
    intro key row hrow
    obtain ⟨count, -, rfl⟩ := hdb.occupancy key row hrow
    exact ⟨count, by simp only [readQuantity, Bytes.toUInt64?_ofUInt64]⟩

/-! ## Reading -/

section Reading

variable {db : Database}

theorem Catalog.faultless_warehouse (hdb : db.Integrity) (w : WarehouseId) :
    Faultless .catalog (warehouse w db) := by
  obtain ⟨found, hfound, -⟩ := hdb.warehouse?_eq w
  cases found with
  | none =>
    rw [warehouse_of_absent hfound]
    exact faultless_error (by simp [CatalogError.code])
  | some r =>
    rw [warehouse_of_known hfound]
    exact faultless_ok r

theorem Catalog.faultless_product (hdb : db.Integrity) (p : ProductId) :
    Faultless .catalog (product p db) := by
  obtain ⟨found, hfound, -⟩ := hdb.product?_eq p
  cases found with
  | none =>
    rw [product_of_absent hfound]
    exact faultless_error (by simp [CatalogError.code])
  | some r =>
    rw [product_of_known hfound]
    exact faultless_ok r

/-- There is no such document, or it is loaded. -/
theorem Archive.load_cases (hdb : db.Integrity) (id : DocumentId) :
    load id db = .error (.notFound id) ∨ ∃ d, load id db = .ok d := by
  cases hrow : db.documents.get? id.bytes with
  | none =>
    left
    unfold load Table.record?
    rw [hrow]
    rfl
  | some row =>
    obtain ⟨d, hload, -⟩ := hdb.load_eq hrow
    exact .inr ⟨d, hload⟩

theorem Archive.faultless_load (hdb : db.Integrity) (id : DocumentId) :
    Faultless .archive (load id db) := by
  rcases load_cases hdb id with hload | ⟨d, hload⟩ <;> rw [hload]
  · exact faultless_error (by simp [ArchiveError.code])
  · exact faultless_ok d

theorem Archive.faultless_listByStatus (hdb : db.Integrity) (status : DocumentStatus) :
    Faultless .archive (listByStatus status db) := by
  obtain ⟨docs, hdocs⟩ := exists_list hdb
  unfold listByStatus
  rw [hdocs]
  exact faultless_ok _

theorem Stock.faultless_keyTooLong {α : Type} (length : Nat) :
    Faultless (α := α) .stock (.error (.store (.keyTooLong length))) :=
  faultless_error (by simp [StockError.code, StoreError.code])

theorem Stock.faultless_quantity (hdb : db.Integrity) (key : StockKey) :
    Faultless .stock (quantity key db) := by
  rcases Nat.lt_or_ge StockKey.maxWarehouseLength key.warehouse.bytes.length with hlong | hshort
  · rw [quantity_eq_error hlong]
    exact faultless_keyTooLong _
  · rw [quantity_eq_onHand hdb.stock hshort]
    exact faultless_ok _

theorem Stock.faultless_warehouseLevels (hdb : db.Readable) (w : WarehouseId) :
    Faultless .stock (warehouseLevels w db) := by
  unfold warehouseLevels
  cases StockKey.rowStart? w with
  | none => exact faultless_keyTooLong _
  | some start =>
    obtain ⟨levels, hlevels⟩ := exists_mapM_eq_ok (f := readLevel)
      (l := db.stock.startingWith start) fun row hrow =>
        hdb.stock row.1 row.2 (SortedMap.mem_toList_iff.mp (List.mem_of_mem_filter hrow))
    dsimp only
    rw [hlevels]
    exact faultless_ok levels

/-- A row that can be read can be added to a total. -/
theorem Stock.exists_addRow {row : Bytes × Bytes} {level : StockLevel}
    (h : readLevel row = .ok level) (p : ProductId) (total : UInt64) :
    ∃ total', addRow p total row = .ok total' := by
  obtain ⟨q, hq, h⟩ := bind_eq_ok h
  unfold addRow
  cases hkey : StockKey.ofBytes? row.1 with
  | none =>
    rw [hkey] at h
    cases h
  | some k =>
    dsimp only
    split
    · exact ⟨_, bind_ok hq rfl⟩
    · exact ⟨total, rfl⟩

theorem Stock.faultless_productTotal (hdb : db.Readable) (p : ProductId) :
    Faultless .stock (productTotal p db) := by
  obtain ⟨total, htotal⟩ := exists_foldlM_eq_ok (f := addRow p) (l := db.stock.toList)
    (fun total row hrow =>
      let ⟨_, hlevel⟩ := hdb.stock row.1 row.2 (SortedMap.mem_toList_iff.mp hrow)
      exists_addRow hlevel p total) 0
  unfold productTotal
  rw [htotal]
  exact faultless_ok total

end Reading

/-! ## Posting and voiding -/

namespace Posting

variable {db : Database}

/-- There is no such document, or it is settled, or it is loaded as a draft. -/
theorem loadDraft_cases (hdb : db.Integrity) (id : DocumentId) :
    loadDraft id db = .error (.notFound id) ∨
      (∃ status, loadDraft id db = .error (.alreadyPosted id status)) ∨
        ∃ d, Archive.load id db = .ok d ∧ d.status = .draft := by
  rcases Archive.load_cases hdb id with hload | ⟨d, hload⟩
  · exact .inl (bind_error (by rw [hload]; rfl))
  · right
    by_cases hdraft : d.status = .draft
    · exact .inr ⟨d, hload, hdraft⟩
    · left
      obtain ⟨-, -, rfl, -⟩ := hdb.isRow_of_load hload
      refine ⟨d.status, bind_ok (by rw [hload]; rfl) ?_⟩
      simp only [ne_eq, hdraft, not_false_eq_true, if_true]
      rfl

theorem faultless_notFound {α : Type} (id : DocumentId) :
    Faultless (α := α) .posting (.error (.notFound id)) :=
  faultless_error (by simp [PostingError.code])

theorem faultless_alreadyPosted {α : Type} (id : DocumentId) (status : DocumentStatus) :
    Faultless (α := α) .posting (.error (.alreadyPosted id status)) :=
  faultless_error (by simp [PostingError.code])

/-- None of the ends of a posting is a fault. -/
theorem Ends.faultless {σ : Type} {hook : SaleHook σ} {id : DocumentId} {approver : String}
    {now : Timestamp} {world : Database × σ}
    {result : Except PostingError Document × (Database × σ)}
    (h : Ends hook id approver now world result) : Faultless .posting result.1 := by
  cases h with
  | posted => exact faultless_ok _
  | keyTooLong => exact faultless_error (by simp [PostingError.code, StoreError.code])
  | _ => exact faultless_error (by simp [PostingError.code])

theorem faultless_post (hdb : db.Integrity) {σ : Type} {hook : SaleHook σ} (s : σ)
    (id : DocumentId) {approver : String} (happrover : Cbor.TextFits approver) {now : Timestamp}
    (hnow : now.unixNanos?.isSome) :
    Faultless .posting (post hook id approver now (db, s)).1 := by
  rcases loadDraft_cases hdb id with hmissing | ⟨status, hsettled⟩ | ⟨d, hload, hdraft⟩
  · rw [post_of_error (bind_error hmissing)]
    exact faultless_notFound id
  · rw [post_of_error (bind_error hsettled)]
    exact faultless_alreadyPosted id status
  · have hends : Ends hook id approver now (db, s) (post hook id approver now (db, s)) :=
      ends_of_draft hdb hload hdraft happrover hnow
    exact hends.faultless

theorem faultless_void (hdb : db.Integrity) (id : DocumentId) (voidedBy : String)
    (reason : Option String) {now : Timestamp} (hnow : now.unixNanos?.isSome) :
    Faultless .posting (void id voidedBy reason now db) := by
  rcases loadDraft_cases hdb id with hmissing | ⟨status, hsettled⟩ | ⟨d, hload, hdraft⟩
  · rw [void, bind_error hmissing]
    exact faultless_notFound id
  · rw [void, bind_error hsettled]
    exact faultless_alreadyPosted id status
  · obtain ⟨_, -, -, hd⟩ := hdb.isRow_of_load hload
    obtain ⟨row, hrow⟩ := Document.encode_settle hd.encoded
      (s := .failure ⟨.voided voidedBy reason, now⟩) hnow
    have hsettle := transition_of_draft hload hdraft hrow
    have hvoid : void id voidedBy reason now db = .ok _ :=
      bind_ok (loadDraft_of_draft hload hdraft)
        (congrArg (Except.mapError PostingError.ofArchive) hsettle)
    rw [hvoid]
    exact faultless_ok _

end Posting

/-! ## The service -/

namespace Service

variable {db : Database}

/-- A draft has a stored form if the time it is made at is in range. -/
theorem DraftRequest.encode_document (r : DraftRequest) (id : DocumentId) {now : Timestamp}
    (hnow : now.unixNanos?.isSome) : ∃ row, encode (r.document id now) = .ok row := by
  have htimes : (r.document id now).times = [now] := by
    obtain ⟨route, lines, createdBy, note⟩ := r
    cases route <;> cases note <;> rfl
  rw [Document.encode_isOk_iff, htimes]
  simpa using hnow

theorem faultless_insert {d : Document} (hd : ∃ row, encode d = .ok row) (db : Database) :
    Faultless .archive (Archive.insert d db) := by
  obtain ⟨row, hrow⟩ := hd
  unfold Archive.insert
  rw [encodeRow_eq_ok.mpr hrow]
  by_cases hdraft : d.status = .draft
  · simp only [hdraft, ne_eq, not_true_eq_false, if_false]
    by_cases htaken : db.documents.contains d.id.bytes = true
    · simp only [htaken]
      exact faultless_error (by simp [ArchiveError.code])
    · simp only [htaken]
      exact faultless_ok _
  · simp only [hdraft, ne_eq, not_false_eq_true, if_true]
    exact faultless_error (by simp [ArchiveError.code])

theorem faultless_validate (d : Document) :
    Faultless (·) (d.validate.mapError ServiceError.invalidDocument) := by
  refine Faultless.lift fun found _ => ?_
  exact ServiceError.not_isFault_invalidDocument found

theorem faultless_checkAvailable (hdb : db.Integrity) (d : Document) :
    Faultless (·) (checkAvailable d db) := by
  refine Faultless.forM fun m _ => ?_
  obtain ⟨key, delta⟩ := m
  dsimp only
  split
  · exact faultless_ok ()
  · refine (Stock.faultless_quantity hdb key).lift.bind fun available _ => ?_
    split
    · exact faultless_error (by simp [StockError.code])
    · exact faultless_ok ()

theorem faultless_keep (hdb : db.Integrity) {d : Document} (hd : ∃ row, encode d = .ok row) :
    Faultless (·) (keep d db) := by
  refine (faultless_validate d).bind fun _ _ => ?_
  refine Faultless.bind (Faultless.forM fun w _ => ?_) fun _ _ => ?_
  · exact (Catalog.faultless_warehouse hdb w).lift.bind fun _ _ => faultless_ok ()
  refine Faultless.bind (Faultless.forM fun line _ => ?_) fun _ _ => ?_
  · exact (Catalog.faultless_product hdb line.product).lift.bind fun _ _ => faultless_ok ()
  exact (faultless_insert hd db).lift.bind fun _ _ => faultless_ok _

theorem faultless_create (hdb : db.Integrity) (id : DocumentId) (r : DraftRequest)
    {now : Timestamp} (hnow : now.unixNanos?.isSome) :
    Faultless (·) (create id r now db) := by
  have hkeep := faultless_keep hdb (r.encode_document id hnow)
  unfold create
  dsimp only
  split
  · refine (faultless_validate _).bind fun _ _ => ?_
    exact (faultless_checkAvailable hdb _).bind fun _ _ => hkeep
  · exact hkeep

theorem faultless_lookUpWarehouse (hdb : db.Integrity) (id : Option WarehouseId) :
    Faultless (·) (lookUpWarehouse id db) := by
  cases id with
  | none => exact faultless_ok none
  | some w =>
    obtain ⟨found, hfound, -⟩ := hdb.warehouse?_eq w
    rw [lookUpWarehouse, hfound]
    exact faultless_ok found

theorem faultless_details (hdb : db.Integrity) (id : DocumentId) :
    Faultless (·) (details id db) := by
  refine (Archive.faultless_load hdb id).lift.bind fun d _ => ?_
  refine (faultless_lookUpWarehouse hdb d.source).bind fun _ _ => ?_
  refine (faultless_lookUpWarehouse hdb d.destination).bind fun _ _ => ?_
  refine Faultless.bind (Faultless.mapM fun line _ => ?_) fun _ _ => faultless_ok _
  obtain ⟨found, hfound, -⟩ := hdb.product?_eq line.product
  rw [hfound]
  exact faultless_ok found

theorem faultless_warehouseStock (hdb : db.Integrity) (hread : db.Readable) (w : WarehouseId) :
    Faultless (·) (warehouseStock w db) :=
  (Catalog.faultless_warehouse hdb w).lift.bind fun _ _ =>
    (Stock.faultless_warehouseLevels hread w).lift

end Service

/-- The time at which the operation is carried out, if it asks for it. What the ledger reads behind
a posting is no part of it. -/
def ServiceOperation.clock? : ServiceOperation → Option Timestamp
  | create _ _ now | post _ _ now _ | void _ _ _ now => some now
  | _ => none

theorem ServiceOperation.faultless_run {σ : Type} {world : Database × σ}
    (hdb : world.1.Integrity) (hread : world.1.Readable) {op : ServiceOperation}
    (hfits : (Operation.service op).Fits) (hclock : ∀ now ∈ op.clock?, now.unixNanos?.isSome) :
    Faultless (·) (op.run world).1 := by
  cases op with
  | create id request now => exact (Service.faultless_create hdb id request (hclock now rfl)).update
  | post id approver now recordedAt =>
    exact (Posting.faultless_post hdb () id hfits (hclock now rfl)).lift.map _
  | void id voidedBy reason now =>
    exact (Posting.faultless_void hdb id voidedBy reason (hclock now rfl)).lift.update
  | document id => exact (Archive.faultless_load hdb id).lift.query
  | details id => exact (Service.faultless_details hdb id).query
  | documentsByStatus status => exact (Archive.faultless_listByStatus hdb status).lift.query
  | pendingDocuments => exact (Archive.faultless_listByStatus hdb .draft).lift.query
  | stockQuantity key => exact (Stock.faultless_quantity hdb key).lift.query
  | warehouseStock id => exact (Service.faultless_warehouseStock hdb hread id).query
  | productTotal id => exact (Stock.faultless_productTotal hread id).lift.query

/-- Whatever was asked of the layers before, every row can be read, and no operation of the service
reports an error of the codes for faults, or a sum that no 128 bits hold. -/
theorem Service.no_fault {σ : Type} {hook : LedgerHook σ} {world : Database × σ}
    (h : Reachable hook anyOperation world) :
    world.1.Readable ∧
      ∀ op : ServiceOperation, (Operation.service op).Fits →
        (∀ now ∈ op.clock?, now.unixNanos?.isSome) →
        ∀ e, ((Operation.service op).run hook.run world).1 = .error e →
          e.code ≠ .internal ∧ e.code ≠ .unavailable ∧
            ∀ key, e ≠ .posting (.refused (.outOfRange key)) ∧
              e ≠ .stock (.refused (.outOfRange key)) := by
  have hread := h.integrity.readable h.stockKeys
  refine ⟨hread, fun op hfits hclock e he => ?_⟩
  exact ServiceError.not_isFault_iff.mp
    (ServiceOperation.faultless_run h.integrity hread hfits hclock e he)

/-- A draft of a year that no row can hold. -/
def Service.lateDraft : Document :=
  { Stock.oneLine "g" .inbound none (some ⟨"w"⟩) 1 with createdAt := ⟨2 ^ 40, 0⟩ }

/-- The archive refuses a draft that cannot be stored, and reports a fault. The service is asked
later for nine units out of three, and answers that they are not there. -/
theorem Service.no_fault_history :
    ∃ world : Database × Unit, Reachable .silent anyOperation world ∧
      (∃ fault : EncodeFault, Archive.insert lateDraft world.1 =
        .error (.store (.encode fault.message))) ∧
      let op : ServiceOperation := .post ⟨"f"⟩ "b" (.ofUnixNanos 3) (.ofUnixNanos 4)
      let e : ServiceError := .posting (.refused (.insufficient ⟨⟨"w"⟩, ⟨"p"⟩, 3, 9⟩))
      (Operation.service op).Fits ∧ (∀ now ∈ op.clock?, now.unixNanos?.isSome) ∧
        ((Operation.service op).run SaleHook.none world).1 = .error e ∧
        e.code ≠ .internal ∧ e.code ≠ .unavailable := by
  have hlate : (Operation.archive (.insert lateDraft)).Fits := by
    have hfits : lateDraft.Fits := by decide
    exact hfits
  have hreach : Reachable (σ := Unit) .silent anyOperation
      (runAll LedgerHook.silent.run (.archive (.insert lateDraft) :: Stock.history.take 7)
        (∅, ())) := by
    refine .runAll (List.forall_mem_cons.mpr ⟨hlate, fun op hop => ?_⟩) (fun _ _ _ => trivial)
      (.start ())
    exact Stock.fits_history op (List.mem_of_mem_take hop)
  have hfits : (Operation.service (.post ⟨"f"⟩ "b" (.ofUnixNanos 3) (.ofUnixNanos 4))).Fits := by
    have hb : Cbor.TextFits "b" := by decide
    exact hb
  have hclock : ∀ now ∈ (ServiceOperation.post ⟨"f"⟩ "b" (.ofUnixNanos 3) (.ofUnixNanos 4)).clock?,
      now.unixNanos?.isSome := by decide
  have hshort : ((Operation.service (.post ⟨"f"⟩ "b" (.ofUnixNanos 3) (.ofUnixNanos 4))).run
      SaleHook.none
      (runAll LedgerHook.silent.run (.archive (.insert lateDraft) :: Stock.history.take 7)
        (∅, ()))).1 =
      .error (.posting (.refused (.insufficient ⟨⟨"w"⟩, ⟨"p"⟩, 3, 9⟩))) := by decide +kernel
  have hanswer := (Service.no_fault hreach).2 _ hfits hclock _ hshort
  exact ⟨_, hreach, ⟨.timeOutOfRange, by decide +kernel⟩, hfits, hclock, hshort, hanswer.1,
    hanswer.2.1⟩

end Depot
