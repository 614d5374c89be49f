import Depot.Proofs.Operation
import Depot.Proofs.Stock.Frame
/-!
# What an operation does to the database

An operation that writes does one of eight things (`Effect`), and says with it what it has checked
before. Whatever it is, the tables of receivables may change besides, by the ledger or a hook.

All operations are taken apart in `effect_quiet` and `effect_run` only; the first has those that
leave the tables of receivables alone. An invariant of the other tables follows from its
preservation by each of the effects (`Reachable.induction`).
-/

namespace Depot

/-! ## Units of work that succeed -/

theorem encodeRow_eq_ok {α : Type} [Stored α] {x : α} {row : Bytes} :
    encodeRow x = .ok row ↔ encode x = .ok row := by
  unfold encodeRow
  cases encode x <;> simp

theorem decodeRow_eq_ok {α : Type} [Stored α] {x : α} {row : Bytes} :
    decodeRow row = .ok x ↔ decode row = .ok x := by
  unfold decodeRow
  cases h : (decode row : Except Cbor.Fault α) <;> simp

/-- A row that is read back holds the value. -/
theorem decodeRow_of_reads {α : Type} [Stored α] {x : α} {row : Bytes}
    (h : Cbor.Reads Stored.read row x) : decodeRow row = .ok x := by
  have hread := h []
  rw [List.append_nil] at hread
  simp [decodeRow, decode, hread]

namespace Archive

theorem load_eq_ok {id : DocumentId} {db : Database} {d : Document} (h : load id db = .ok d) :
    ∃ row, db.documents.get? id.bytes = some row ∧ decodeRow row = .ok d := by
  obtain ⟨found, hfound, h⟩ := bind_eq_ok h
  have hfound := mapError_eq_ok hfound
  unfold Table.record? at hfound
  cases hrow : db.documents.get? id.bytes with
  | none =>
    rw [hrow] at hfound
    cases hfound
    cases h
  | some row =>
    rw [hrow] at hfound
    obtain ⟨d', hd', hfound⟩ := bind_eq_ok hfound
    cases hfound
    cases h
    exact ⟨row, rfl, hd'⟩

theorem load_congr {a b : Database} (h : b.documents = a.documents) (id : DocumentId) :
    load id b = load id a := by
  unfold load
  rw [h]

/-- What a row holds is loaded. -/
theorem load_of_row {id : DocumentId} {db : Database} {row : Bytes} {d : Document}
    (hrow : db.documents.get? id.bytes = some row) (hd : decodeRow row = .ok d) :
    load id db = .ok d := by
  have hrecord : db.documents.record? id.bytes = .ok (some d) := by
    unfold Table.record?
    rw [hrow]
    exact bind_ok hd rfl
  unfold load
  exact bind_ok (by rw [hrecord]; rfl) rfl

theorem insert_eq_ok {d : Document} {db db' : Database} {answer : Unit}
    (h : insert d db = .ok (answer, db')) :
    d.status = .draft ∧ ∃ row, encode d = .ok row ∧ db.documents.get? d.id.bytes = none ∧
      db' = { db with documents := db.documents.insert d.id.bytes row } := by
  unfold insert at h
  by_cases hs : d.status = .draft
  · simp only [hs, ne_eq, not_true_eq_false, if_false] at h
    obtain ⟨row, hrow, h⟩ := bind_eq_ok h
    by_cases hc : db.documents.contains d.id.bytes = true
    · simp only [hc, if_true] at h
      cases h
    · simp only [hc] at h
      cases h
      refine ⟨hs, row, encodeRow_eq_ok.mp (mapError_eq_ok hrow), ?_, rfl⟩
      simpa [SortedMap.contains] using hc
  · simp only [hs, ne_eq, not_false_eq_true, if_true] at h
    cases h

theorem put_of_encode {id : DocumentId} {d : Document} {db : Database} {row : Bytes}
    (h : encode d = .ok row) :
    put id d db = .ok (d, { db with documents := db.documents.insert id.bytes row }) :=
  bind_ok (by rw [encodeRow_eq_ok.mpr h]; rfl) rfl

theorem put_eq_ok {id : DocumentId} {d d' : Document} {db db' : Database}
    (h : put id d db = .ok (d', db')) :
    d' = d ∧ ∃ row, encode d = .ok row ∧
      db' = { db with documents := db.documents.insert id.bytes row } := by
  obtain ⟨row, hrow, h⟩ := bind_eq_ok h
  cases h
  exact ⟨rfl, row, encodeRow_eq_ok.mp (mapError_eq_ok hrow), rfl⟩

theorem transition_eq_ok {id : DocumentId} {source target : DocumentStatus} {s : Settlement}
    {db db' : Database} {d' : Document} (h : transition id source target s db = .ok (d', db')) :
    ∃ d row, load id db = .ok d ∧ d.status = .draft ∧ d' = d.settle s ∧
      encode (d.settle s) = .ok row ∧
      db' = { db with documents := db.documents.insert id.bytes row } := by
  unfold transition at h
  by_cases hlegal : (source.isTerminal || target != s.target) = true
  · simp only [hlegal, if_true] at h
    cases h
  · simp only [hlegal] at h
    obtain ⟨d, hd, h⟩ := bind_eq_ok h
    by_cases hs : d.status = source
    · simp only [hs, ne_eq, not_true_eq_false, if_false] at h
      obtain ⟨rfl, row, hrow, rfl⟩ := put_eq_ok h
      refine ⟨d, row, hd, ?_, rfl, hrow, rfl⟩
      simp only [Bool.or_eq_true, not_or, DocumentStatus.isTerminal, bne_iff_ne, ne_eq,
        Decidable.not_not] at hlegal
      rw [hs, hlegal.1]
    · simp only [ne_eq, hs, not_false_eq_true, if_true] at h
      cases h

end Archive

theorem Document.validateForPosting_eq_ok {d : Document} {approver : String} {u : Unit}
    (h : d.validateForPosting approver = .ok u) : d.postingViolations approver = [] := by
  unfold Document.validateForPosting at h
  split at h
  · rename_i hempty
    exact List.isEmpty_iff.mp hempty
  · cases h

namespace Posting

/-- What is checked of a document before it is posted. -/
structure Ready (id : DocumentId) (approver : String) (db : Database) (d : Document) : Prop where
  loaded : Archive.load id db = .ok d
  draft : d.status = .draft
  valid : d.postingViolations approver = []
  warehouses : ∀ w ∈ d.warehouses, ∃ r, Catalog.warehouse? w db = .ok (some r)
  products : ∀ line ∈ d.lines, ∃ p, Catalog.product? line.product db = .ok (some p)

theorem loadDraft_eq_ok {id : DocumentId} {db : Database} {d : Document}
    (h : loadDraft id db = .ok d) : Archive.load id db = .ok d ∧ d.status = .draft := by
  obtain ⟨d', hload, h⟩ := bind_eq_ok h
  by_cases hs : d'.status = .draft
  · simp only [hs, ne_eq, not_true_eq_false, if_false] at h
    cases h
    exact ⟨mapError_eq_ok hload, hs⟩
  · simp only [hs, ne_eq, not_false_eq_true, if_true] at h
    cases h

theorem checkWarehouse_eq_ok {db : Database} {id : WarehouseId} {u : Unit}
    (h : checkWarehouse db id = .ok u) : ∃ r, Catalog.warehouse? id db = .ok (some r) := by
  obtain ⟨found, hfound, h⟩ := bind_eq_ok h
  cases found with
  | none => cases h
  | some r => exact ⟨r, mapError_eq_ok hfound⟩

theorem checkProduct_eq_ok {db : Database} {line : DocumentLine} {u : Unit}
    (h : checkProduct db line = .ok u) : ∃ p, Catalog.product? line.product db = .ok (some p) := by
  obtain ⟨found, hfound, h⟩ := bind_eq_ok h
  cases found with
  | none => cases h
  | some p => exact ⟨p, mapError_eq_ok hfound⟩

/-- The record of a posting. -/
def recordOf (d : Document) (approver : String) (now : Timestamp) : Settlement :=
  .posting ⟨approver, now, d.contentHash⟩

/-- The record of a shortfall. -/
def shortfallRecord (s : Shortfall) (now : Timestamp) : Settlement :=
  .failure ⟨.insufficientStock s, now⟩

/-- How an attempt to post ended, if it was committed. -/
theorem attempt_eq_ok {id : DocumentId} {approver : String} {now : Timestamp} {db db' : Database}
    {outcome : Outcome} (h : attempt id approver now db = .ok (outcome, db')) :
    ∃ d, Ready id approver db d ∧
      ((∃ levels db₁ row, Stock.applyBatch d.batch db = .ok (levels, db₁) ∧
          encode (d.settle (recordOf d approver now)) = .ok row ∧
          outcome = .posted (d.settle (recordOf d approver now)) ∧
          db' = { db₁ with documents := db.documents.insert id.bytes row }) ∨
        (∃ s row, Stock.applyBatch d.batch db = .error (.refused (.insufficient s)) ∧
          encode (d.settle (shortfallRecord s now)) = .ok row ∧ outcome = .rejected s ∧
          db' = { db with documents := db.documents.insert id.bytes row })) := by
  obtain ⟨d, hd, h⟩ := bind_eq_ok h
  obtain ⟨⟨⟩, hvalid, h⟩ := bind_eq_ok h
  obtain ⟨⟨⟩, hwarehouses, h⟩ := bind_eq_ok h
  obtain ⟨⟨⟩, hproducts, h⟩ := bind_eq_ok h
  obtain ⟨hload, hdraft⟩ := loadDraft_eq_ok hd
  refine ⟨d, ⟨hload, hdraft, Document.validateForPosting_eq_ok (mapError_eq_ok hvalid),
    fun w hw => checkWarehouse_eq_ok (forM_eq_ok.mp hwarehouses w hw),
    fun line hl => checkProduct_eq_ok (forM_eq_ok.mp hproducts line hl)⟩, ?_⟩
  split at h
  · rename_i levels db₁ hbatch
    left
    obtain ⟨⟨posted, db₂⟩, htrans, h⟩ := bind_eq_ok h
    obtain ⟨d', row, hload', -, rfl, hrow, rfl⟩ :=
      Archive.transition_eq_ok (mapError_eq_ok htrans)
    have hframe := Stock.applyBatch_frame hbatch
    have hdocs : db₁.documents = db.documents := by rw [hframe]
    rw [Archive.load_congr hdocs, hload] at hload'
    cases hload'
    cases h
    exact ⟨levels, db₁, row, hbatch, hrow, rfl, by rw [hdocs]⟩
  · rename_i s hbatch
    right
    obtain ⟨⟨failed, db₂⟩, htrans, h⟩ := bind_eq_ok h
    obtain ⟨d', row, hload', -, rfl, hrow, rfl⟩ :=
      Archive.transition_eq_ok (mapError_eq_ok htrans)
    rw [hload] at hload'
    cases hload'
    cases h
    exact ⟨s, row, hbatch, hrow, rfl, rfl⟩
  · cases h

/-- What a posting answers and leaves: it fails and writes nothing, it records a shortfall, or it
posts the document and runs the hook if that is a sale. -/
inductive Concludes {σ : Type} (hook : SaleHook σ) (id : DocumentId) (approver : String)
    (now : Timestamp) (world : Database × σ) :
    Except PostingError Document × (Database × σ) → Prop
  | failed (e : PostingError) : Concludes hook id approver now world (.error e, world)
  | fellShort {d : Document} {s : Shortfall} {row : Bytes} (ready : Ready id approver world.1 d)
    (refused : Stock.applyBatch d.batch world.1 = .error (.refused (.insufficient s)))
    (encoded : encode (d.settle (shortfallRecord s now)) = .ok row) :
    Concludes hook id approver now world (.error (.refused (.insufficient s)),
      ({ world.1 with documents := world.1.documents.insert id.bytes row }, world.2))
  | posted {d : Document} {levels : List StockLevel} {moved db : Database} {row : Bytes}
    (ready : Ready id approver world.1 d)
    (applied : Stock.applyBatch d.batch world.1 = .ok (levels, moved))
    (encoded : encode (d.settle (recordOf d approver now)) = .ok row)
    (written : db = { moved with documents := world.1.documents.insert id.bytes row }) :
    Concludes hook id approver now world (.ok (d.settle (recordOf d approver now)),
      if d.kind = .sale then (hook (d.settle (recordOf d approver now)) (db, world.2)).2
      else (db, world.2))

theorem post_concludes {σ : Type} (hook : SaleHook σ) (id : DocumentId) (approver : String)
    (now : Timestamp) (world : Database × σ) :
    Concludes hook id approver now world (post hook id approver now world) := by
  unfold post UnitOfWork.commit
  cases hwork : attempt id approver now world.1 with
  | error e => exact .failed e
  | ok result =>
    obtain ⟨outcome, db⟩ := result
    obtain ⟨d, hready, hended⟩ := attempt_eq_ok hwork
    rcases hended with
      ⟨levels, moved, row, hbatch, hrow, rfl, rfl⟩ | ⟨s, row, hbatch, hrow, rfl, rfl⟩
    · exact .posted hready hbatch hrow rfl
    · exact .fellShort hready hbatch hrow

/-- Two postings end alike if their attempts do, and so do their hooks. -/
theorem post_alike {σ τ : Type} {hook : SaleHook σ} {hook' : SaleHook τ} {id : DocumentId}
    {approver : String} {now : Timestamp} {a b : Database} {s : σ} {t : τ}
    {R : Database → Database → Prop} {Q : Database × σ → Database × τ → Prop}
    (hattempt : Alike (fun x y => x.1 = y.1 ∧ R x.2 y.2) (attempt id approver now a)
      (attempt id approver now b))
    (hfailed : Q (a, s) (b, t)) (hdone : ∀ db db', R db db' → Q (db, s) (db', t))
    (hhook : ∀ d db db', R db db' → Q (hook d (db, s)).2 (hook' d (db', t)).2) :
    (post hook id approver now (a, s)).1 = (post hook' id approver now (b, t)).1 ∧
      Q (post hook id approver now (a, s)).2 (post hook' id approver now (b, t)).2 := by
  unfold post UnitOfWork.commit
  dsimp only
  generalize attempt id approver now a = x at hattempt
  generalize attempt id approver now b = y at hattempt
  cases hattempt with
  | error e => exact ⟨rfl, hfailed⟩
  | @ok x y hxy =>
    obtain ⟨outcome, db⟩ := x
    obtain ⟨outcome', db'⟩ := y
    obtain ⟨rfl, hdb⟩ := hxy
    cases outcome with
    | rejected shortfall => exact ⟨rfl, hdone db db' hdb⟩
    | posted d =>
      refine ⟨rfl, ?_⟩
      dsimp only [report]
      by_cases hsale : d.kind = .sale
      · rw [if_pos hsale, if_pos hsale]
        exact hhook d db db' hdb
      · rw [if_neg hsale, if_neg hsale]
        exact hdone db db' hdb

theorem void_eq_ok {id : DocumentId} {voidedBy : String} {reason : Option String}
    {now : Timestamp} {db db' : Database} {d' : Document}
    (h : void id voidedBy reason now db = .ok (d', db')) :
    ∃ d row, Archive.load id db = .ok d ∧ d.status = .draft ∧
      d' = d.settle (.failure ⟨.voided voidedBy reason, now⟩) ∧ encode d' = .ok row ∧
      db' = { db with documents := db.documents.insert id.bytes row } := by
  obtain ⟨-, -, h⟩ := bind_eq_ok h
  obtain ⟨d, row, hload, hdraft, rfl, hrow, rfl⟩ := Archive.transition_eq_ok (mapError_eq_ok h)
  exact ⟨d, row, hload, hdraft, rfl, hrow, rfl⟩

end Posting

namespace Service

variable {id : DocumentId} {r : DraftRequest} {now : Timestamp} {db db' : Database} {d : Document}

theorem DraftRequest.id_document (r : DraftRequest) (id : DocumentId) (now : Timestamp) :
    (r.document id now).id = id := by
  unfold document Document.ofRoute
  cases r.route <;> cases r.note <;> rfl

/-- A draft that was made was kept. -/
theorem keep_of_create (h : create id r now db = .ok (d, db')) :
    keep (r.document id now) db = .ok (d, db') := by
  unfold create at h
  dsimp only at h
  split at h
  · obtain ⟨-, -, h⟩ := bind_eq_ok h
    obtain ⟨-, -, h⟩ := bind_eq_ok h
    exact h
  · exact h

theorem create_eq_ok (h : create id r now db = .ok (d, db')) :
    Archive.insert (r.document id now) db = .ok ((), db') := by
  obtain ⟨-, -, h⟩ := bind_eq_ok (keep_of_create h)
  obtain ⟨-, -, h⟩ := bind_eq_ok h
  obtain ⟨-, -, h⟩ := bind_eq_ok h
  obtain ⟨⟨⟨⟩, db₁⟩, hinsert, h⟩ := bind_eq_ok h
  cases h
  exact mapError_eq_ok hinsert

end Service

namespace Catalog

theorem addProduct_eq_ok {id : ProductId} {name : String} {unitPrice : UInt64} {p : Product}
    {db db' : Database} (h : addProduct id name unitPrice db = .ok (p, db')) :
    db' = { db with
      products := db.products.insert id.bytes (Product.bytes ⟨id, name, unitPrice⟩) } := by
  obtain ⟨-, -, h⟩ := bind_eq_ok h
  cases h
  rfl

theorem updateProduct_eq_ok {id : ProductId} {name : Option String} {unitPrice : Option UInt64}
    {p' : Product} {db db' : Database} (h : updateProduct id name unitPrice db = .ok (p', db')) :
    ∃ p, product? id db = .ok (some p) ∧
      p' = { p with name := name.getD p.name, unitPrice := unitPrice.getD p.unitPrice } ∧
      db' = { db with products := db.products.insert id.bytes p'.bytes } := by
  obtain ⟨-, -, h⟩ := bind_eq_ok h
  obtain ⟨p, hp, h⟩ := bind_eq_ok h
  obtain ⟨found, hfound, hp⟩ := bind_eq_ok hp
  cases found with
  | none => cases hp
  | some q =>
    cases hp
    cases h
    exact ⟨p, mapError_eq_ok hfound, rfl, rfl⟩

theorem warehouse_eq_ok {id : WarehouseId} {w : Warehouse} {db : Database}
    (h : warehouse id db = .ok w) : warehouse? id db = .ok (some w) := by
  obtain ⟨found, hfound, h⟩ := bind_eq_ok h
  cases found with
  | none => cases h
  | some r =>
    cases h
    exact mapError_eq_ok hfound

theorem addWarehouse_eq_ok {id : WarehouseId} {location : String} {w : Warehouse}
    {db db' : Database} (h : addWarehouse id location db = .ok (w, db')) :
    db' = { db with
      warehouses := db.warehouses.insert id.bytes (Warehouse.bytes ⟨id, location⟩) } := by
  obtain ⟨-, -, h⟩ := bind_eq_ok h
  cases h
  rfl

theorem relabelWarehouse_eq_ok {id : WarehouseId} {location : String} {w' : Warehouse}
    {db db' : Database} (h : relabelWarehouse id location db = .ok (w', db')) :
    ∃ w, warehouse? id db = .ok (some w) ∧ w' = { w with location := location } ∧
      db' = { db with warehouses := db.warehouses.insert id.bytes w'.bytes } := by
  obtain ⟨-, -, h⟩ := bind_eq_ok h
  obtain ⟨w, hw, h⟩ := bind_eq_ok h
  cases h
  exact ⟨w, warehouse_eq_ok hw, rfl, rfl⟩

theorem removeWarehouse_eq_ok {id : WarehouseId} {u : Unit} {db db' : Database}
    (h : removeWarehouse id db = .ok (u, db')) :
    (∃ w, warehouse? id db = .ok (some w)) ∧ Stock.occupancy id db = .ok 0 ∧
      db' = { db with warehouses := db.warehouses.erase id.bytes } := by
  obtain ⟨w, hw, h⟩ := bind_eq_ok h
  obtain ⟨count, hcount, h⟩ := bind_eq_ok h
  by_cases hc : count = 0
  · subst hc
    cases h
    exact ⟨⟨w, warehouse_eq_ok hw⟩, mapError_eq_ok hcount, rfl⟩
  · simp only [ne_eq, hc, not_false_eq_true, if_true] at h
    cases h

end Catalog

/-! ## Receivables -/

theorem Database.SameCore.refl (db : Database) : Database.SameCore db db :=
  ⟨rfl, rfl, rfl, rfl, rfl⟩

theorem Database.SameCore.symm {a b : Database} (h : SameCore a b) : SameCore b a :=
  ⟨h.documents.symm, h.stock.symm, h.occupancy.symm, h.warehouses.symm, h.products.symm⟩

theorem Database.SameCore.trans {a b c : Database} (h : SameCore a b) (h' : SameCore b c) :
    SameCore a c :=
  ⟨h'.documents.trans h.documents, h'.stock.trans h.stock, h'.occupancy.trans h.occupancy,
    h'.warehouses.trans h.warehouses, h'.products.trans h.products⟩

theorem Receivables.record_sameCore {customer : CustomerId} {document : DocumentId}
    {totalValue : UInt64} {now : Timestamp} {fresh : Bool} {db db' : Database}
    (h : record customer document totalValue now db = .ok (fresh, db')) :
    Database.SameCore db db' := by
  obtain ⟨row, -, h⟩ := bind_eq_ok h
  dsimp only at h
  split at h
  · cases h
    exact .refl db
  · obtain ⟨owed, -, h⟩ := bind_eq_ok h
    cases h
    exact ⟨rfl, rfl, rfl, rfl, rfl⟩

theorem Receivables.onSalePosted_sameCore {d : Document} {now : Timestamp} {u : Unit}
    {db db' : Database} (h : onSalePosted d now db = .ok (u, db')) : Database.SameCore db db' := by
  unfold onSalePosted at h
  split at h
  · obtain ⟨⟨fresh, db₁⟩, hrecord, h⟩ := bind_eq_ok h
    cases h
    exact record_sameCore hrecord
  · cases h
    exact .refl db

/-- The hook that does nothing. -/
def LedgerHook.silent {σ : Type} : LedgerHook σ where
  run := SaleHook.none
  sameCore _ world := .refl world.1

/-- The service's hook, which records posted sales. -/
def LedgerHook.ledger {σ : Type} (now : Timestamp) : LedgerHook σ where
  run := Receivables.hook now
  sameCore d world := by
    simp only [Receivables.hook, UnitOfWork.commit]
    split
    · rename_i h
      exact Receivables.onSalePosted_sameCore h
    · exact .refl _

/-! ## Effects -/

/-- What an operation does to the tables other than those of receivables. -/
inductive Effect (op : Operation) (db : Database) : Database → Prop
  /-- Nothing, as of every query and every operation that fails. -/
  | none : Effect op db db
  /-- It applies a batch to stock. -/
  | moved {batch : Batch} {levels : List StockLevel} {db' : Database}
    (asked : op.batch? = some batch) (applied : Stock.applyBatch batch db = .ok (levels, db')) :
    Effect op db db'
  /-- It takes a draft into the archive. -/
  | drafted {d : Document} {row : Bytes} (asked : op.draft? = some d) (draft : d.status = .draft)
    (encoded : encode d = .ok row) (fresh : db.documents.get? d.id.bytes = Option.none) :
    Effect op db { db with documents := db.documents.insert d.id.bytes row }
  /-- It settles a draft without moving stock. -/
  | settled {id : DocumentId} {s : Settlement} {d : Document} {row : Bytes}
    (asked : op.settlement? = some (id, s)) (loaded : Archive.load id db = .ok d)
    (draft : d.status = .draft) (encoded : encode (d.settle s) = .ok row) :
    Effect op db { db with documents := db.documents.insert id.bytes row }
  /-- It posts a draft. -/
  | posted {id : DocumentId} {approver : String} {now : Timestamp} {d : Document}
    {levels : List StockLevel} {db' : Database} {row : Bytes}
    (asked : op.approval? = some (id, approver, now)) (ready : Posting.Ready id approver db d)
    (applied : Stock.applyBatch d.batch db = .ok (levels, db'))
    (encoded : encode (d.settle (Posting.recordOf d approver now)) = .ok row) :
    Effect op db { db' with documents := db.documents.insert id.bytes row }
  /-- It was to post a draft that the stock does not suffice for. -/
  | fellShort {id : DocumentId} {approver : String} {now : Timestamp} {d : Document}
    {s : Shortfall} {row : Bytes}
    (asked : op.approval? = some (id, approver, now)) (ready : Posting.Ready id approver db d)
    (refused : Stock.applyBatch d.batch db = .error (.refused (.insufficient s)))
    (encoded : encode (d.settle (Posting.shortfallRecord s now)) = .ok row) :
    Effect op db { db with documents := db.documents.insert id.bytes row }
  /-- It writes a product, a new one or one with another name or price. -/
  | product {id : ProductId} {p : Product}
    (source : op = .catalog (.addProduct id p.name p.unitPrice) ∧ p.id = id ∨
      ∃ q name unitPrice, op = .catalog (.updateProduct id name unitPrice) ∧
        Catalog.product? id db = .ok (some q) ∧
        p = { q with name := name.getD q.name, unitPrice := unitPrice.getD q.unitPrice }) :
    Effect op db { db with products := db.products.insert id.bytes p.bytes }
  /-- It writes a warehouse, a new one or one with another location. -/
  | warehouse {id : WarehouseId} {w : Warehouse}
    (source : op = .catalog (.addWarehouse id w.location) ∧ w.id = id ∨
      ∃ v location, op = .catalog (.relabelWarehouse id location) ∧
        Catalog.warehouse? id db = .ok (some v) ∧ w = { v with location := location }) :
    Effect op db { db with warehouses := db.warehouses.insert id.bytes w.bytes }
  /-- It removes a warehouse without stock. -/
  | removed {id : WarehouseId} (asked : op = .catalog (.removeWarehouse id))
    (known : ∃ w, Catalog.warehouse? id db = .ok (some w)) (bare : Stock.occupancy id db = .ok 0) :
    Effect op db { db with warehouses := db.warehouses.erase id.bytes }

variable {σ ε α : Type}

/-- A unit of work that fails has no effect. -/
theorem effect_update {op : Operation} {work : UnitOfWork ε α} {error : ε → ServiceError}
    {answer : α → Answer} {world : Database × σ}
    (h : ∀ x db', work world.1 = .ok (x, db') → Effect op world.1 db') :
    Effect op world.1 (update work error answer world).2.1 := by
  unfold update UnitOfWork.commit
  cases hwork : work world.1 with
  | error e => exact .none
  | ok result => exact h result.1 result.2 hwork

theorem sameCore_update {work : UnitOfWork ε α} {error : ε → ServiceError}
    {answer : α → Answer} {world : Database × σ}
    (h : ∀ x db', work world.1 = .ok (x, db') → Database.SameCore world.1 db') :
    Database.SameCore world.1 (update work error answer world).2.1 := by
  unfold update UnitOfWork.commit
  cases hwork : work world.1 with
  | error e => exact .refl _
  | ok result => exact h result.1 result.2 hwork

/-- A posting has the effect of its unit of work; then the hook may run. -/
theorem effect_post (hook : LedgerHook σ) (op : Operation) {id : DocumentId} {approver : String}
    {now : Timestamp} (asked : op.approval? = some (id, approver, now)) (world : Database × σ) :
    ∃ db', Effect op world.1 db' ∧
      Database.SameCore db' (Posting.post hook.run id approver now world).2.1 := by
  have hpost := Posting.post_concludes hook.run id approver now world
  generalize Posting.post hook.run id approver now world = ended at hpost ⊢
  cases hpost with
  | failed e => exact ⟨_, .none, .refl _⟩
  | fellShort ready refused encoded => exact ⟨_, .fellShort asked ready refused encoded, .refl _⟩
  | posted ready applied encoded written =>
    subst written
    refine ⟨_, .posted asked ready applied encoded, ?_⟩
    dsimp only
    split
    · exact hook.sameCore _ (_, world.2)
    · exact .refl _

/-- An operation that posts a document answers and leaves what the posting does, the service with
its own hook. -/
theorem Operation.run_of_approval (hook : LedgerHook σ) {op : Operation} {id : DocumentId}
    {approver : String} {now : Timestamp} (asked : op.approval? = some (id, approver, now))
    (world : Database × σ) :
    ∃ (τ : Type) (run : LedgerHook τ) (t : τ),
      (op.run hook.run world).1 =
        ((Posting.post run.run id approver now (world.1, t)).1.mapError .posting).map .document ∧
      (op.run hook.run world).2.1 = (Posting.post run.run id approver now (world.1, t)).2.1 := by
  cases op with
  | posting op =>
    cases op with
    | post =>
      cases asked
      exact ⟨σ, hook, world.2, rfl, rfl⟩
    | void => cases asked
  | service op =>
    cases op with
    | post =>
      cases asked
      exact ⟨Unit, .ledger _, (), rfl, rfl⟩
    | _ => cases asked
  | _ => cases asked

/-- An operation that writes what customers owe, or whose hook may do so. -/
def Operation.WritesReceivables : Operation → Prop
  | .posting (.post ..) | .service (.post ..) | .receivables _ => True
  | _ => False

/-- Any other operation posts nothing. -/
theorem Operation.approval?_of_quiet {op : Operation} (h : ¬ op.WritesReceivables) :
    op.approval? = none := by
  cases op with
  | posting op | service op =>
    cases op with
    | post => exact absurd trivial h
    | _ => rfl
  | _ => rfl

/-- Every other operation has one of the effects. -/
theorem effect_quiet {hook : SaleHook σ} {op : Operation} (hop : ¬ op.WritesReceivables)
    (world : Database × σ) : Effect op world.1 (op.run hook world).2.1 := by
  cases op with
  | stock op =>
    cases op with
    | applyDelta key delta =>
      exact effect_update fun _ _ h =>
        let ⟨_, hbatch⟩ := Stock.applyDelta_eq_ok h
        .moved rfl hbatch
    | applyBatch batch => exact effect_update fun _ _ h => .moved rfl h
    | _ => exact .none
  | catalog op =>
    cases op with
    | addProduct id name unitPrice =>
      refine effect_update fun p db' h => ?_
      rw [Catalog.addProduct_eq_ok h]
      exact .product (.inl ⟨rfl, rfl⟩)
    | updateProduct id name unitPrice =>
      refine effect_update fun p db' h => ?_
      obtain ⟨q, hq, rfl, rfl⟩ := Catalog.updateProduct_eq_ok h
      exact .product (.inr ⟨q, name, unitPrice, rfl, hq, rfl⟩)
    | addWarehouse id location =>
      refine effect_update fun w db' h => ?_
      rw [Catalog.addWarehouse_eq_ok h]
      exact .warehouse (.inl ⟨rfl, rfl⟩)
    | relabelWarehouse id location =>
      refine effect_update fun w db' h => ?_
      obtain ⟨v, hv, rfl, rfl⟩ := Catalog.relabelWarehouse_eq_ok h
      exact .warehouse (.inr ⟨v, location, rfl, hv, rfl⟩)
    | removeWarehouse id =>
      refine effect_update fun u db' h => ?_
      obtain ⟨hknown, hbare, rfl⟩ := Catalog.removeWarehouse_eq_ok h
      exact .removed rfl hknown hbare
    | _ => exact .none
  | archive op =>
    cases op with
    | insert d =>
      refine effect_update fun u db' h => ?_
      obtain ⟨hdraft, row, hrow, hfresh, rfl⟩ := Archive.insert_eq_ok h
      exact .drafted rfl hdraft hrow hfresh
    | transition id source target s =>
      refine effect_update fun d' db' h => ?_
      obtain ⟨d, row, hload, hdraft, -, hrow, rfl⟩ := Archive.transition_eq_ok h
      exact .settled rfl hload hdraft hrow
    | _ => exact .none
  | posting op =>
    cases op with
    | post => exact absurd trivial hop
    | void id voidedBy reason now =>
      refine effect_update fun d' db' h => ?_
      obtain ⟨d, row, hload, hdraft, rfl, hrow, rfl⟩ := Posting.void_eq_ok h
      exact .settled rfl hload hdraft hrow
  | receivables op => exact absurd trivial hop
  | service op =>
    cases op with
    | create id request now =>
      refine effect_update fun d db' h => ?_
      obtain ⟨hdraft, row, hrow, hfresh, rfl⟩ := Archive.insert_eq_ok (Service.create_eq_ok h)
      exact .drafted rfl hdraft hrow hfresh
    | post => exact absurd trivial hop
    | void id voidedBy reason now =>
      refine effect_update fun d' db' h => ?_
      obtain ⟨d, row, hload, hdraft, rfl, hrow, rfl⟩ := Posting.void_eq_ok (mapError_eq_ok h)
      exact .settled rfl hload hdraft hrow
    | _ => exact .none

/-- Every operation has one of the effects, and may write what customers owe besides. -/
theorem effect_run (hook : LedgerHook σ) (op : Operation) (world : Database × σ) :
    ∃ db', Effect op world.1 db' ∧ Database.SameCore db' (op.run hook.run world).2.1 := by
  by_cases hop : op.WritesReceivables
  · cases op with
    | posting op =>
      cases op with
      | post id approver now => exact effect_post hook (.posting (.post id approver now)) rfl world
      | void => cases hop
    | receivables op =>
      cases op with
      | record customer document totalValue now =>
        exact ⟨_, .none, sameCore_update fun _ _ h => Receivables.record_sameCore h⟩
      | onSalePosted d now =>
        exact ⟨_, .none, sameCore_update fun _ _ h => Receivables.onSalePosted_sameCore h⟩
      | _ => exact ⟨_, .none, .refl _⟩
    | service op =>
      cases op with
      | post id approver now recordedAt =>
        exact effect_post (.ledger recordedAt) (.service (.post id approver now recordedAt)) rfl
          (world.1, ())
      | _ => cases hop
    | _ => cases hop
  · exact ⟨_, effect_quiet hop world, .refl _⟩

/-- A property of the tables other than those of receivables holds in every reachable world if it
holds without rows and every effect of an allowed operation preserves it. -/
theorem Reachable.induction {hook : LedgerHook σ} {allowed : Database → Operation → Prop}
    {P : Database → Prop} (core : ∀ {a b}, Database.SameCore a b → P a → P b) (start : P ∅)
    (effect : ∀ {op db' world}, Reachable hook allowed world → op.Fits → allowed world.1 op →
      P world.1 → Effect op world.1 db' → P db')
    {world : Database × σ} (h : Reachable hook allowed world) : P world.1 := by
  induction h with
  | start s => exact start
  | step hreach hfits hallowed ih =>
    obtain ⟨db', heffect, hcore⟩ := effect_run hook _ _
    exact core hcore (effect hreach hfits hallowed ih heffect)

end Depot
