import Depot.Proofs.Document.Movements
import Depot.Proofs.Effect
import Depot.Proofs.Stock.Write
/-!
# Every row of a reachable database can be read

In a database that a history of operations leads to, every row of the archive and the catalog is
the stored form of a record with the identifier of its key, and stock and occupancy hold quantities
(`Database.Integrity`). So no operation ever meets a row it cannot read.

Main statements: `Reachable.integrity`, and `Integrity.load_eq` with its siblings for what is found
at an identifier.
-/

namespace Depot

/-! ## Rows of documents -/

theorem Timestamp.stored_stored (t : Timestamp) : t.stored.stored = t.stored := by
  have h := t.unixNanos?_stored
  unfold stored at h ⊢
  rw [h]
  cases t.unixNanos? <;> rfl

namespace Document

theorem stored_stored (d : Document) : d.stored.stored = d.stored := by
  have hp : ∀ r : PostingRecord, r.stored.stored = r.stored := fun r => by
    simp [PostingRecord.stored, Timestamp.stored_stored]
  have hf : ∀ r : FailureRecord, r.stored.stored = r.stored := fun r => by
    simp [FailureRecord.stored, Timestamp.stored_stored]
  cases h : d.posting <;> cases h' : d.failure <;>
    simp [stored, h, h', hp, hf, Timestamp.stored_stored]

/-- The row is the stored form of the document, and read back as this very document. -/
structure IsRow (d : Document) (row : Bytes) : Prop where
  fits : d.Fits
  stored : d.stored = d
  encoded : encode d = .ok row

theorem isRow_stored {d : Document} (h : d.Fits) {row : Bytes} (hrow : encode d = .ok row) :
    d.stored.IsRow row :=
  ⟨h.stored, d.stored_stored, by rw [encode_stored, hrow]⟩

theorem IsRow.decodeRow {d : Document} {row : Bytes} (h : d.IsRow row) :
    decodeRow row = .ok d := by
  have hread := reads_encode h.fits h.encoded
  rw [h.stored] at hread
  exact decodeRow_of_reads hread

end Document

theorem Product.decodeRow_bytes {p : Product} (h : p.Fits) : decodeRow p.bytes = .ok p :=
  decodeRow_of_reads (reads_bytes h)

theorem Warehouse.decodeRow_bytes {w : Warehouse} (h : w.Fits) : decodeRow w.bytes = .ok w :=
  decodeRow_of_reads (reads_bytes h)

theorem Product.fits_of_decodeRow {p : Product} {row : Bytes} (h : decodeRow row = .ok p) :
    p.Fits :=
  fits_of_decode (decodeRow_eq_ok.mp h)

theorem Warehouse.fits_of_decodeRow {w : Warehouse} {row : Bytes} (h : decodeRow row = .ok w) :
    w.Fits :=
  fits_of_decode (decodeRow_eq_ok.mp h)

/-! ## Integrity -/

/-- A row of the archive. -/
def isDocumentRow (key row : Bytes) : Prop := ∃ d : Document, d.id.bytes = key ∧ d.IsRow row

/-- A row of the warehouses. -/
def isWarehouseRow (key row : Bytes) : Prop :=
  ∃ w : Warehouse, w.id.bytes = key ∧ w.Fits ∧ row = w.bytes

/-- A row of the products. -/
def isProductRow (key row : Bytes) : Prop :=
  ∃ p : Product, p.id.bytes = key ∧ p.Fits ∧ row = p.bytes

/-- Every row of the archive, the catalog, stock and occupancy can be read. -/
structure Database.Integrity (db : Database) : Prop where
  documents : db.documents.Every isDocumentRow
  warehouses : db.warehouses.Every isWarehouseRow
  products : db.products.Every isProductRow
  stock : db.stock.HoldsQuantities
  occupancy : db.occupancy.HoldsQuantities

namespace Database

theorem integrity_empty : Integrity ∅ where
  documents := Table.every_empty
  warehouses := Table.every_empty
  products := Table.every_empty
  stock := Table.holdsQuantities_empty
  occupancy := Table.holdsQuantities_empty

theorem SameCore.integrity {a b : Database} (h : SameCore a b) (ha : a.Integrity) :
    b.Integrity where
  documents := by rw [h.documents]; exact ha.documents
  warehouses := by rw [h.warehouses]; exact ha.warehouses
  products := by rw [h.products]; exact ha.products
  stock := by rw [h.stock]; exact ha.stock
  occupancy := by rw [h.occupancy]; exact ha.occupancy

namespace Integrity

variable {db : Database}

theorem quantities (h : db.Integrity) : db.HoldsQuantities := ⟨h.stock, h.occupancy⟩

/-- What is loaded from the archive: the document of the row, which has the identifier asked for. -/
theorem load_eq (h : db.Integrity) {id : DocumentId} {row : Bytes}
    (hrow : db.documents.get? id.bytes = some row) :
    ∃ d, Archive.load id db = .ok d ∧ d.id = id ∧ d.IsRow row := by
  obtain ⟨d, hid, hd⟩ := h.documents _ _ hrow
  exact ⟨d, Archive.load_of_row hrow hd.decodeRow, Ident.bytes_injective hid, hd⟩

theorem isRow_of_load (h : db.Integrity) {id : DocumentId} {d : Document}
    (hload : Archive.load id db = .ok d) :
    ∃ row, db.documents.get? id.bytes = some row ∧ d.id = id ∧ d.IsRow row := by
  obtain ⟨row, hrow, -⟩ := Archive.load_eq_ok hload
  obtain ⟨d', hload', hid, hd'⟩ := h.load_eq hrow
  rw [hload] at hload'
  cases hload'
  exact ⟨row, hrow, hid, hd'⟩

theorem warehouse?_eq (h : db.Integrity) (id : WarehouseId) :
    ∃ found, Catalog.warehouse? id db = .ok found ∧ ∀ w ∈ found, w.id = id ∧ w.Fits := by
  unfold Catalog.warehouse? Table.record?
  cases hrow : db.warehouses.get? id.bytes with
  | none => exact ⟨none, rfl, by simp⟩
  | some row =>
    obtain ⟨w, hid, hfits, rfl⟩ := h.warehouses _ _ hrow
    refine ⟨some w, bind_ok (Warehouse.decodeRow_bytes hfits) rfl, ?_⟩
    intro w' hw'
    cases hw'
    exact ⟨Ident.bytes_injective hid, hfits⟩

theorem product?_eq (h : db.Integrity) (id : ProductId) :
    ∃ found, Catalog.product? id db = .ok found ∧ ∀ p ∈ found, p.id = id ∧ p.Fits := by
  unfold Catalog.product? Table.record?
  cases hrow : db.products.get? id.bytes with
  | none => exact ⟨none, rfl, by simp⟩
  | some row =>
    obtain ⟨p, hid, hfits, rfl⟩ := h.products _ _ hrow
    refine ⟨some p, bind_ok (Product.decodeRow_bytes hfits) rfl, ?_⟩
    intro p' hp'
    cases hp'
    exact ⟨Ident.bytes_injective hid, hfits⟩

end Integrity

end Database

/-! ## Texts of records -/

theorem length_utf8EncodeChar_le (c : Char) : (String.utf8EncodeChar c).length ≤ 4 := by
  fun_cases String.utf8EncodeChar with simp

theorem size_utf8Encode_le (l : List Char) : l.utf8Encode.size ≤ 4 * l.length := by
  induction l with
  | nil => simp
  | cons c l ih =>
    have hc := length_utf8EncodeChar_le c
    rw [List.utf8Encode_cons, List.utf8Encode_singleton, ByteArray.size_append,
      List.size_toByteArray, List.length_cons]
    omega

theorem length_hexDigits (b : Bytes) : (Bytes.hexDigits b).length = 2 * b.length := by
  unfold Bytes.hexDigits
  induction b with
  | nil => rfl
  | cons d b ih =>
    rw [List.flatMap_cons, List.length_append, ih]
    simp
    omega

theorem length_sha256 (message : Bytes) : (sha256 message).length = 32 := by
  simp [sha256, Sha256.State.bytes]

theorem textFits_hex {b : Bytes} (h : b.length ≤ 32) : Cbor.TextFits (Bytes.hex b) := by
  have hsize := size_utf8Encode_le (Bytes.hexDigits b)
  have hlength : (Bytes.ofText (Bytes.hex b)).length = (Bytes.hexDigits b).utf8Encode.size := by
    rw [Bytes.ofText, Bytes.hex, String.toByteArray_ofList, Array.length_toList]
    rfl
  have hmax : maxUInt64 = 0xFFFFFFFFFFFFFFFF := rfl
  rw [length_hexDigits] at hsize
  unfold Cbor.TextFits
  omega

theorem Posting.fits_recordOf (d : Document) {approver : String} (h : Cbor.TextFits approver)
    (now : Timestamp) : (Posting.recordOf d approver now).Fits :=
  ⟨h, textFits_hex (Nat.le_of_eq (length_sha256 _))⟩

theorem Operation.fits_settlement {op : Operation} (h : op.Fits) {id : DocumentId}
    {s : Settlement} (hs : op.settlement? = some (id, s)) : s.Fits := by
  cases op with
  | archive op =>
    cases op with
    | transition => cases hs; exact h
    | _ => cases hs
  | posting op =>
    cases op with
    | void => cases hs; exact h
    | _ => cases hs
  | service op =>
    cases op with
    | void => cases hs; exact h
    | _ => cases hs
  | _ => cases hs

theorem Operation.fits_draft {op : Operation} (h : op.Fits) {d : Document}
    (hd : op.draft? = some d) : d.Fits := by
  cases op with
  | archive op =>
    cases op with
    | insert => cases hd; exact h
    | _ => cases hd
  | service op =>
    cases op with
    | create => cases hd; exact h
    | _ => cases hd
  | _ => cases hd

theorem Operation.fits_approver {op : Operation} (h : op.Fits) {id : DocumentId}
    {approver : String} {now : Timestamp} (ha : op.approval? = some (id, approver, now)) :
    Cbor.TextFits approver := by
  cases op with
  | posting op =>
    cases op with
    | post => cases ha; exact h
    | _ => cases ha
  | service op =>
    cases op with
    | post => cases ha; exact h
    | _ => cases ha
  | _ => cases ha

/-! ## Effects -/

namespace Database.Integrity

variable {db : Database}

theorem put_document (h : db.Integrity) {d : Document} (hfits : d.Fits) {row : Bytes}
    (hrow : encode d = .ok row) :
    Integrity { db with documents := db.documents.insert d.id.bytes row } :=
  { h with documents := h.documents.insert ⟨d.stored, rfl, Document.isRow_stored hfits hrow⟩ }

theorem settle_document (h : db.Integrity) {id : DocumentId} {d : Document}
    (hload : Archive.load id db = .ok d) {s : Settlement} (hs : s.Fits) {row : Bytes}
    (hrow : encode (d.settle s) = .ok row) :
    Integrity { db with documents := db.documents.insert id.bytes row } := by
  obtain ⟨row', -, rfl, hd⟩ := h.isRow_of_load hload
  have hid : (d.settle s).id = d.id := by cases s <;> rfl
  have hput := h.put_document (hd.fits.settle hs) hrow
  rw [hid] at hput
  exact hput

theorem put_product (h : db.Integrity) {p : Product} (hp : p.Fits) :
    Integrity { db with products := db.products.insert p.id.bytes p.bytes } :=
  { h with products := h.products.insert ⟨p, rfl, hp, rfl⟩ }

theorem put_warehouse (h : db.Integrity) {w : Warehouse} (hw : w.Fits) :
    Integrity { db with warehouses := db.warehouses.insert w.id.bytes w.bytes } :=
  { h with warehouses := h.warehouses.insert ⟨w, rfl, hw, rfl⟩ }

theorem fits_shortfall (h : db.Integrity) {id : DocumentId} {d : Document}
    (hload : Archive.load id db = .ok d) {s : Shortfall}
    (hs : Stock.applyBatch d.batch db = .error (.refused (.insufficient s))) (now : Timestamp) :
    (Posting.shortfallRecord s now).Fits := by
  obtain ⟨row, -, -, hd⟩ := h.isRow_of_load hload
  obtain ⟨m, hm, hshort⟩ := Stock.fallsShort_of_applyBatch h.quantities hs
  have hfits := Document.fits_of_mem_batch hd.fits hm
  rw [hshort.told]
  exact hfits

theorem of_applyBatch (h : db.Integrity) {batch : Batch} {levels : List StockLevel}
    {db' : Database} (happlied : Stock.applyBatch batch db = .ok (levels, db')) :
    db'.Integrity := by
  have hframe := Stock.applyBatch_frame happlied
  obtain ⟨-, heq⟩ := Stock.applyBatch_inv h.quantities happlied
  have hquantities : db'.HoldsQuantities := by
    rw [heq]
    exact Stock.holdsQuantities_applied h.quantities batch
  exact
    { documents := by rw [hframe]; exact h.documents
      warehouses := by rw [hframe]; exact h.warehouses
      products := by rw [hframe]; exact h.products
      stock := hquantities.stock
      occupancy := hquantities.occupancy }

theorem of_effect (h : db.Integrity) {op : Operation} (hfits : op.Fits) {db' : Database}
    (heffect : Effect op db db') : db'.Integrity := by
  cases heffect with
  | none => exact h
  | moved asked applied => exact h.of_applyBatch applied
  | drafted asked draft encoded fresh =>
    exact h.put_document (Operation.fits_draft hfits asked) encoded
  | settled asked loaded draft encoded =>
    exact h.settle_document loaded (Operation.fits_settlement hfits asked) encoded
  | posted asked ready applied encoded =>
    have hsettled := h.settle_document ready.loaded
      (Posting.fits_recordOf _ (Operation.fits_approver hfits asked) _) encoded
    exact { h.of_applyBatch applied with documents := hsettled.documents }
  | fellShort asked ready refused encoded =>
    exact h.settle_document ready.loaded (h.fits_shortfall ready.loaded refused _) encoded
  | @product id p source =>
    rcases source with ⟨rfl, rfl⟩ | ⟨q, name, unitPrice, rfl, hq, rfl⟩
    · exact h.put_product hfits
    · obtain ⟨found, hfound, hknown⟩ := h.product?_eq id
      rw [hq] at hfound
      cases hfound
      obtain ⟨rfl, hid, hname⟩ := hknown q rfl
      refine h.put_product (p := { q with name := name.getD q.name, unitPrice := _ }) ⟨hid, ?_⟩
      cases name with
      | none => exact hname
      | some text => exact hfits text rfl
  | @warehouse id w source =>
    rcases source with ⟨rfl, rfl⟩ | ⟨v, location, rfl, hv, rfl⟩
    · exact h.put_warehouse hfits
    · obtain ⟨found, hfound, hknown⟩ := h.warehouse?_eq id
      rw [hv] at hfound
      cases hfound
      obtain ⟨rfl, hid, -⟩ := hknown v rfl
      exact h.put_warehouse (w := { v with location }) ⟨hid, hfits⟩
  | removed asked known bare => exact { h with warehouses := h.warehouses.erase _ }

end Database.Integrity

/-- Whatever operations were carried out, every row can be read. -/
theorem Reachable.integrity {σ : Type} {hook : LedgerHook σ}
    {allowed : Database → Operation → Prop} {world : Database × σ}
    (h : Reachable hook allowed world) : world.1.Integrity :=
  h.induction (fun hcore ha => hcore.integrity ha) Database.integrity_empty
    fun _ hfits _ hdb heffect => hdb.of_effect hfits heffect

end Depot
