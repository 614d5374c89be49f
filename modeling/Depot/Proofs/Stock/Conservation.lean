import Depot.Proofs.Archive
/-!
# Stock is the sum of what was posted

If stock is moved by posting documents only, the quantity of every product in every warehouse is
the exact sum of what the posted documents contribute to it (`quantity_eq_postedSum`). Drafts and
failed documents contribute nothing, however they came about.

## How the proof goes

Stock and archive are two tables, and a posting writes both. The invariant compares them key by
key: `Balanced` says that what is on hand is the sum of a number over all rows of the archive, the
contribution of a posted document and zero for any other. A sum over a table changes with an
update by the row put in less the row taken out (`SortedMap.sum_insert`), and in every effect both
are known: a draft was there, or nothing, and what replaces it is posted, failed or a draft. Only
a posting puts in a row that counts, and it moves stock by the same number (`Document.net_batch`).
-/

namespace Depot.Stock

/-! ## The share of a row -/

/-- What a document in the archive counts for a key. -/
def postedShare (key : StockKey) (d : Document) : Int :=
  if d.status = .posted then d.contribution key else 0

/-- What a row of the archive counts for a key. -/
def rowShare (key : StockKey) (row : Bytes × Bytes) : Int :=
  match (decodeRow row.2 : Except StoreError Document) with
  | .ok d => postedShare key d
  | .error _ => 0

/-- What is on hand of every key is what the rows of the archive count for it. -/
def Balanced (db : Database) : Prop :=
  ∀ key : StockKey, ((onHand db key).toNat : Int) = db.documents.sum (rowShare key)

theorem rowShare_eq (key : StockKey) {k row : Bytes} {d : Document} (h : decodeRow row = .ok d) :
    rowShare key (k, row) = postedShare key d := by
  unfold rowShare
  rw [h]

theorem rowShare_eq_rowValue (key : StockKey) :
    rowShare key = Archive.rowValue (postedShare key) := rfl

theorem postedShare_of_ne {key : StockKey} {d : Document} (h : d.status ≠ .posted) :
    postedShare key d = 0 := if_neg h

theorem contribution_settle (d : Document) (s : Settlement) (key : StockKey) :
    (d.settle s).contribution key = d.contribution key := by
  cases s <;> rfl

theorem onHand_empty (key : StockKey) : onHand ∅ key = 0 := by
  unfold onHand quantity rowOf
  cases key.bytes? <;> rfl

theorem onHand_congr {a b : Database} (h : b.stock = a.stock) (key : StockKey) :
    onHand b key = onHand a key := by
  unfold onHand quantity
  rw [h]

/-! ## Effects -/

section Effects

variable {db : Database} {op : Operation}

/-- A draft in the archive is replaced by a document that is settled: the sum changes by the share
of the new document. -/
theorem sum_settle (hdb : db.Integrity) {id : DocumentId} {d : Document}
    (hload : Archive.load id db = .ok d) (hdraft : d.status = .draft) {s : Settlement}
    (hs : s.Fits) {row : Bytes} (hrow : encode (d.settle s) = .ok row) (key : StockKey) :
    (db.documents.insert id.bytes row).sum (rowShare key) =
      db.documents.sum (rowShare key) + postedShare key (d.settle s) := by
  obtain ⟨hdecode, -⟩ := Archive.decodeRow_settle hdb hload hs hrow
  have hold : ∀ d', Archive.load id db = .ok d' → postedShare key d' = 0 := by
    intro d' hload'
    rw [hload] at hload'
    cases hload'
    exact postedShare_of_ne (by simp [hdraft])
  rw [rowShare_eq_rowValue, Archive.sum_insert hdb _ hold hdecode]
  cases s <;> rfl

theorem balanced_of_effect (hdb : db.Integrity) (hbalanced : Balanced db) (hfits : op.Fits)
    (hregular : op.IsRegular) {db' : Database} (heffect : Effect op db db') : Balanced db' := by
  intro key
  have hkey := hbalanced key
  cases heffect with
  | none => exact hkey
  | moved asked applied =>
    rw [hregular.batch?_eq_none] at asked
    cases asked
  | @drafted d row asked draft encoded fresh =>
    have hdecode := (Document.isRow_stored (Operation.fits_draft hfits asked) encoded).decodeRow
    have hshare : rowShare key (d.id.bytes, row) = 0 := by
      rw [rowShare_eq key hdecode]
      exact postedShare_of_ne (by simp [Document.stored, draft])
    show ((onHand db key).toNat : Int) = (db.documents.insert _ _).sum _
    rw [SortedMap.sum_insert, fresh, hshare, hkey]
    simp [SortedMap.part]
  | @settled id s d row asked loaded draft encoded =>
    have hs := Operation.fits_settlement hfits asked
    obtain ⟨r, rfl⟩ := hregular.voids asked
    have hfailed : (d.settle (.failure r)).status ≠ .posted := by simp [Document.settle]
    show ((onHand db key).toNat : Int) = (db.documents.insert _ _).sum _
    rw [sum_settle hdb loaded draft hs encoded, postedShare_of_ne hfailed, hkey, Int.add_zero]
  | @posted id approver now d levels db' row asked ready applied encoded =>
    obtain ⟨hadm, hdb'⟩ := applyBatch_inv hdb.quantities applied
    have hs := Posting.fits_recordOf d (Operation.fits_approver hfits asked) now
    have hshare : postedShare key (d.settle (Posting.recordOf d approver now)) =
        d.contribution key := by
      have hposted : (d.settle (Posting.recordOf d approver now)).status = .posted := rfl
      rw [postedShare, if_pos hposted, contribution_settle]
    have hmoved := onHand_applied hadm key
    show ((onHand db' key).toNat : Int) = (db.documents.insert _ _).sum _
    rw [sum_settle hdb ready.loaded ready.draft hs encoded, hshare, hdb', hmoved, hkey,
      Document.net_batch (Document.hasSides_of_valid ready.valid)]
  | @fellShort id approver now d s row asked ready refused encoded =>
    have hs := hdb.fits_shortfall ready.loaded refused now
    show ((onHand db key).toNat : Int) = (db.documents.insert _ _).sum _
    rw [sum_settle hdb ready.loaded ready.draft hs encoded,
      postedShare_of_ne (by simp [Document.settle, Posting.shortfallRecord]), hkey, Int.add_zero]
  | product => exact hkey
  | warehouse => exact hkey
  | removed => exact hkey

end Effects

/-! ## Listings -/

/-- What the posted ones among documents contribute to a key. -/
def postedSum (key : StockKey) (docs : List Document) : Int :=
  ((docs.filter fun d => d.status = .posted).map fun d => d.contribution key).sum

/-- Rows that can be read are listed, and the listing counts what the rows count. -/
theorem postedSum_listed (key : StockKey) (l : List (Bytes × Bytes))
    (h : ∀ row ∈ l, ∃ d : Document, decodeRow row.2 = .ok d) :
    ∃ docs : List Document, l.mapM (fun row => decodeRow row.2) = .ok docs ∧
      postedSum key docs = (l.map (rowShare key)).sum := by
  obtain ⟨docs, hdocs⟩ := exists_mapM_eq_ok h
  have hshares : docs.map (postedShare key) = l.map (rowShare key) :=
    map_of_mapM_eq_ok hdocs fun row _ d hd => (rowShare_eq key hd).symm
  refine ⟨docs, hdocs, ?_⟩
  rw [← hshares, postedSum]
  unfold postedShare
  rw [List.sum_map_ite, List.sum_map_zero, add_zero]

variable {σ : Type} {hook : LedgerHook σ} {world : Database × σ}

theorem balanced_of_reachable (h : Reachable hook regularOperation world) :
    Balanced world.1 := by
  refine h.induction (fun hcore ha key => ?_) (fun key => ?_) ?_
  · rw [hcore.documents, onHand_congr hcore.stock]
    exact ha key
  · rw [onHand_empty]
    rfl
  · intro op db' world' hreach hfits hregular hbalanced heffect
    exact balanced_of_effect hreach.integrity hbalanced hfits hregular heffect

/-- Whatever was inserted, posted and voided, in any order and with any failures: the quantity of
a product in a warehouse is the sum of what the posted documents contribute, which is therefore a
number of 64 bits. -/
theorem quantity_eq_postedSum (h : Reachable hook regularOperation world) (key : StockKey)
    (hshort : key.warehouse.bytes.length ≤ StockKey.maxWarehouseLength) :
    ∃ docs q, Archive.list world.1 = .ok docs ∧ quantity key world.1 = .ok q ∧
      (q.toNat : Int) = postedSum key docs ∧
      0 ≤ postedSum key docs ∧ postedSum key docs ≤ maxUInt64 := by
  have hdb := h.integrity
  have hrows : ∀ row ∈ world.1.documents.toList, ∃ d : Document, decodeRow row.2 = .ok d := by
    intro row hrow
    obtain ⟨d, -, hd⟩ := hdb.documents row.1 row.2 (SortedMap.mem_toList_iff.mp hrow)
    exact ⟨d, hd.decodeRow⟩
  obtain ⟨docs, hdocs, hsum⟩ := postedSum_listed key world.1.documents.toList hrows
  have hkey : ((onHand world.1 key).toNat : Int) = postedSum key docs := by
    rw [hsum]
    exact balanced_of_reachable h key
  have hmax : maxUInt64 = 0xFFFFFFFFFFFFFFFF := rfl
  have hlt := (onHand world.1 key).toNat_lt
  refine ⟨docs, onHand world.1 key, ?_, quantity_eq_onHand hdb.stock hshort, hkey, ?_⟩
  · unfold Archive.list Table.records
    rw [hdocs]
    rfl
  · rw [← hkey]
    omega

/-- The draft of a document with one line. -/
def oneLine (id : String) (kind : DocumentKind) (source destination : Option WarehouseId)
    (quantity : UInt64) : Document :=
  { Document.draft ⟨id⟩ kind "a" (.ofUnixNanos 0) with
    source := source, destination := destination, lines := [⟨⟨"p"⟩, quantity, some 1⟩] }

/-- Five units come in, two go out, and nine more cannot. -/
def history : List Operation :=
  [.catalog (.addWarehouse ⟨"w"⟩ "l"), .catalog (.addProduct ⟨"p"⟩ "n" 1),
    .archive (.insert (oneLine "d" .inbound none (some ⟨"w"⟩) 5)),
    .archive (.insert (oneLine "e" .outbound (some ⟨"w"⟩) none 2)),
    .archive (.insert (oneLine "f" .outbound (some ⟨"w"⟩) none 9)),
    .posting (.post ⟨"d"⟩ "b" (.ofUnixNanos 1)), .posting (.post ⟨"e"⟩ "b" (.ofUnixNanos 2)),
    .posting (.post ⟨"f"⟩ "b" (.ofUnixNanos 3))]

theorem fits_history : ∀ op ∈ history, op.Fits := by
  have hb : Cbor.TextFits "b" := by decide
  have hdraft : ∀ d ∈ [oneLine "d" .inbound none (some ⟨"w"⟩) 5,
      oneLine "e" .outbound (some ⟨"w"⟩) none 2,
      oneLine "f" .outbound (some ⟨"w"⟩) none 9], d.Fits := by decide
  simp only [List.forall_mem_cons] at hdraft
  simp only [history, List.forall_mem_cons, Operation.Fits]
  exact ⟨⟨by decide, by decide⟩, ⟨by decide, by decide⟩, hdraft.1, hdraft.2.1, hdraft.2.2.1,
    hb, hb, hb, by simp⟩

/-- The history can be stopped anywhere. -/
theorem reachable_history (n : Nat) : Reachable .silent regularOperation
    (runAll LedgerHook.silent.run (history.take n) (∅, ())) := by
  have hregular : ∀ op ∈ history, ∀ db, regularOperation db op := by
    simp [history, regularOperation, Operation.IsRegular]
  exact .runAll (fun op h => fits_history op (List.mem_of_mem_take h))
    (fun op h => hregular op (List.mem_of_mem_take h)) (.start ())

/-- Of these, three units are left. -/
theorem quantity_eq_postedSum_history :
    ∃ world : Database × Unit, Reachable .silent regularOperation world ∧
      quantity ⟨⟨"w"⟩, ⟨"p"⟩⟩ world.1 = .ok 3 ∧
      ∃ docs, Archive.list world.1 = .ok docs ∧ postedSum ⟨⟨"w"⟩, ⟨"p"⟩⟩ docs = 3 := by
  have hshort : (⟨"w"⟩ : WarehouseId).bytes.length ≤ StockKey.maxWarehouseLength := by decide
  obtain ⟨docs, q, hdocs, hq, hsum, -⟩ :=
    quantity_eq_postedSum (reachable_history 8) ⟨⟨"w"⟩, ⟨"p"⟩⟩ hshort
  have hthree : onHand (runAll LedgerHook.silent.run (history.take 8) (∅, ())).1
      ⟨⟨"w"⟩, ⟨"p"⟩⟩ = 3 := by decide +kernel
  have hq' := quantity_eq_onHand (reachable_history 8).integrity.stock
    (show (StockKey.mk ⟨"w"⟩ ⟨"p"⟩).warehouse.bytes.length ≤ _ from hshort)
  rw [hthree] at hq'
  rw [hq'] at hq
  cases hq
  exact ⟨_, reachable_history 8, hq', docs, hdocs, hsum.symm⟩

end Depot.Stock
