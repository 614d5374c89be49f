import Depot.Proofs.Stock.Conservation
import Depot.Proofs.Stock.Refinement
/-!
# How a posting ends

A posting has nine ends, and `Ends` lists them in the order in which they are decided: each case
names what was found before it was reached, so no two of them apply to one database. `post_ends`
says that one of them applies, in every database that a history leads to, for every document
identifier, approver and time. A row that cannot be read, a conflict with another writer and a sum
out of range are not among them.

Two cases write. A posting that succeeds moves stock by the batch of the document and records who
approved it; then the hook runs if it is a sale. A shortfall is recorded in the row of the document,
and nothing else is touched.

## How the proof goes

In a reachable database every row can be read (`Database.Integrity`), so a look-up either finds a
record or finds nothing, and each check reduces to that. A document that was read has a stored
form, and has one still when it is settled at a time in range (`Document.encode_settle`). The
batch of a valid document has room (`Document.hasRoom_batch`), so it is applied or refused for one
of three reasons.

## The side conditions

The time has to fit 64 bits in nanoseconds, or the record cannot be written. The approver is a
text in memory.
-/

namespace Depot.Posting

variable {σ : Type}

/-- The ends of a posting: the answer, and the world behind it. -/
inductive Ends (hook : SaleHook σ) (id : DocumentId) (approver : String) (now : Timestamp)
    (world : Database × σ) : Except PostingError Document × (Database × σ) → Prop
  /-- There is no such document. -/
  | notFound (missing : world.1.documents.get? id.bytes = none) :
    Ends hook id approver now world (.error (.notFound id), world)
  /-- The document is no draft. -/
  | alreadyPosted {d : Document} (loaded : Archive.load id world.1 = .ok d)
    (settled : d.status ≠ .draft) :
    Ends hook id approver now world (.error (.alreadyPosted id d.status), world)
  /-- The document breaks rules, all of which are reported. -/
  | invalid {d : Document} (loaded : Archive.load id world.1 = .ok d) (draft : d.status = .draft)
    (broken : d.postingViolations approver ≠ []) :
    Ends hook id approver now world
      (.error (.invalidDocument (d.postingViolations approver)), world)
  /-- The first warehouse that is not in the catalog is reported, the source first. -/
  | warehouseNotFound {d : Document} {before behind : List WarehouseId} {w : WarehouseId}
    (loaded : Archive.load id world.1 = .ok d) (draft : d.status = .draft)
    (valid : d.postingViolations approver = []) (warehouses : d.warehouses = before ++ w :: behind)
    (known : ∀ v ∈ before, ∃ r, Catalog.warehouse? v world.1 = .ok (some r))
    (absent : Catalog.warehouse? w world.1 = .ok none) :
    Ends hook id approver now world (.error (.warehouseNotFound w), world)
  /-- The product of the first line whose product is not in the catalog is reported. -/
  | productNotFound {d : Document} {before behind : List DocumentLine} {line : DocumentLine}
    (loaded : Archive.load id world.1 = .ok d) (draft : d.status = .draft)
    (valid : d.postingViolations approver = [])
    (warehouses : ∀ w ∈ d.warehouses, ∃ r, Catalog.warehouse? w world.1 = .ok (some r))
    (lines : d.lines = before ++ line :: behind)
    (known : ∀ l ∈ before, ∃ p, Catalog.product? l.product world.1 = .ok (some p))
    (absent : Catalog.product? line.product world.1 = .ok none) :
    Ends hook id approver now world (.error (.productNotFound line.product), world)
  /-- A warehouse identifier fits no key. -/
  | keyTooLong {d : Document} {length : Nat} (ready : Ready id approver world.1 d)
    (refused : Stock.applyBatch d.batch world.1 = .error (.store (.keyTooLong length))) :
    Ends hook id approver now world (.error (.store (.keyTooLong length)), world)
  /-- A quantity would not fit 64 bits. -/
  | overflow {d : Document} {key : StockKey} (ready : Ready id approver world.1 d)
    (refused : Stock.applyBatch d.batch world.1 = .error (.refused (.overflow key))) :
    Ends hook id approver now world (.error (.refused (.overflow key)), world)
  /-- The stock does not suffice: the document has failed, for the reason that is reported. -/
  | insufficient {d : Document} {s : Shortfall} {row : Bytes} {db : Database}
    (ready : Ready id approver world.1 d)
    (refused : Stock.applyBatch d.batch world.1 = .error (.refused (.insufficient s)))
    (encoded : encode (d.settle (shortfallRecord s now)) = .ok row)
    (written : db = { world.1 with documents := world.1.documents.insert id.bytes row })
    (loads : Archive.load id db = .ok (d.settle (shortfallRecord s now.stored))) :
    Ends hook id approver now world (.error (.refused (.insufficient s)), (db, world.2))
  /-- The document is posted, and the hook has run if it is a sale. -/
  | posted {d : Document} {levels : List StockLevel} {moved db : Database} {row : Bytes}
    (ready : Ready id approver world.1 d)
    (applied : Stock.applyBatch d.batch world.1 = .ok (levels, moved))
    (carriedOut : Stock.Applied world.1 moved d.batch levels)
    (encoded : encode (d.settle (recordOf d approver now)) = .ok row)
    (written : db = { moved with documents := world.1.documents.insert id.bytes row })
    (loads : Archive.load id db = .ok (d.settle (recordOf d approver now.stored))) :
    Ends hook id approver now world
      (.ok (d.settle (recordOf d approver now)),
        if d.kind = .sale then (hook (d.settle (recordOf d approver now)) (db, world.2)).2
        else (db, world.2))

/-! ## Look-ups over a list -/

/-- Of a list of look-ups every one finds something, or the first that finds nothing is reported. -/
theorem lookUps_cases {α β : Type} (lookUp : α → Except StoreError (Option β))
    {check : α → Except PostingError Unit} {fault : α → PostingError}
    (hread : ∀ a, ∃ found, lookUp a = .ok found)
    (hknown : ∀ a r, lookUp a = .ok (some r) → check a = .ok ())
    (habsent : ∀ a, lookUp a = .ok none → check a = .error (fault a)) (l : List α) :
    ((∀ a ∈ l, ∃ r, lookUp a = .ok (some r)) ∧ l.forM check = .ok ()) ∨
      ∃ before a behind, l = before ++ a :: behind ∧
        (∀ b ∈ before, ∃ r, lookUp b = .ok (some r)) ∧ lookUp a = .ok none ∧
        l.forM check = .error (fault a) := by
  induction l with
  | nil => exact .inl ⟨by simp, rfl⟩
  | cons a l ih =>
    have hstep : (a :: l).forM check = (check a >>= fun _ => l.forM check) := rfl
    rw [hstep]
    obtain ⟨found, hfound⟩ := hread a
    cases found with
    | none => exact .inr ⟨[], a, l, rfl, by simp, hfound, bind_error (habsent a hfound)⟩
    | some r =>
      have hone : ∃ r, lookUp a = .ok (some r) := ⟨r, hfound⟩
      rcases ih with ⟨hall, hl⟩ | ⟨before, b, behind, rfl, hbefore, hb, hl⟩
      · exact .inl ⟨List.forall_mem_cons.mpr ⟨hone, hall⟩, bind_ok (hknown a r hfound) hl⟩
      · exact .inr ⟨a :: before, b, behind, rfl, List.forall_mem_cons.mpr ⟨hone, hbefore⟩, hb,
          bind_ok (hknown a r hfound) hl⟩

theorem checkWarehouse_of_known {db : Database} {w : WarehouseId} {r : Warehouse}
    (h : Catalog.warehouse? w db = .ok (some r)) : checkWarehouse db w = .ok () :=
  bind_ok (by rw [h]; rfl) rfl

theorem checkWarehouse_of_absent {db : Database} {w : WarehouseId}
    (h : Catalog.warehouse? w db = .ok none) :
    checkWarehouse db w = .error (.warehouseNotFound w) :=
  bind_ok (by rw [h]; rfl) rfl

theorem checkProduct_of_known {db : Database} {line : DocumentLine} {p : Product}
    (h : Catalog.product? line.product db = .ok (some p)) : checkProduct db line = .ok () :=
  bind_ok (by rw [h]; rfl) rfl

theorem checkProduct_of_absent {db : Database} {line : DocumentLine}
    (h : Catalog.product? line.product db = .ok none) :
    checkProduct db line = .error (.productNotFound line.product) :=
  bind_ok (by rw [h]; rfl) rfl

/-! ## Settling -/

theorem transition_of_draft {db : Database} {id : DocumentId} {d : Document}
    (hload : Archive.load id db = .ok d) (hdraft : d.status = .draft) {s : Settlement}
    {row : Bytes} (hrow : encode (d.settle s) = .ok row) :
    Archive.transition id .draft s.target s db =
      .ok (d.settle s, { db with documents := db.documents.insert id.bytes row }) := by
  unfold Archive.transition
  simp only [DocumentStatus.isTerminal, bne_self_eq_false, Bool.or_self, Bool.false_eq_true,
    if_false]
  refine bind_ok hload ?_
  simp only [hdraft, ne_eq, not_true_eq_false, if_false]
  exact Archive.put_of_encode hrow

/-- What is loaded once a stored document was settled. -/
theorem load_settled {d : Document} {oldRow : Bytes} (hd : d.IsRow oldRow) {s : Settlement}
    (hs : s.Fits) {row : Bytes} (hrow : encode (d.settle s) = .ok row) {db : Database} {t : Table}
    (hdocuments : db.documents = t.insert d.id.bytes row) :
    Archive.load d.id db = .ok (d.settle s.stored) := by
  have hread := (Document.isRow_stored (hd.fits.settle hs) hrow).decodeRow
  rw [Document.stored_settle hd.stored] at hread
  exact Archive.load_of_row (by rw [hdocuments, SortedMap.get?_insert_self]) hread

/-! ## Attempts -/

section Attempts

variable {db : Database} {id : DocumentId} {approver : String} {now : Timestamp} {d : Document}

theorem loadDraft_of_draft (hload : Archive.load id db = .ok d) (hdraft : d.status = .draft) :
    loadDraft id db = .ok d := by
  refine bind_ok (by rw [hload]; rfl) ?_
  simp only [hdraft, ne_eq, not_true_eq_false, if_false]
  rfl

theorem validateForPosting_of_valid (h : d.postingViolations approver = []) :
    d.validateForPosting approver = .ok () := by
  simp [Document.validateForPosting, h]

/-- What is checked of a document that is ready succeeds. -/
theorem Ready.checks (h : Ready id approver db d) :
    loadDraft id db = .ok d ∧
      (d.validateForPosting approver).mapError .invalidDocument =
        (.ok () : Except PostingError Unit) ∧
      d.warehouses.forM (checkWarehouse db) = .ok () ∧ d.lines.forM (checkProduct db) = .ok () :=
  ⟨loadDraft_of_draft h.loaded h.draft, by rw [validateForPosting_of_valid h.valid]; rfl,
    forM_eq_ok.mpr fun w hw =>
      let ⟨_, hr⟩ := h.warehouses w hw
      checkWarehouse_of_known hr,
    forM_eq_ok.mpr fun line hl =>
      let ⟨_, hp⟩ := h.products line hl
      checkProduct_of_known hp⟩

theorem attempt_of_posted (h : Ready id approver db d) {levels : List StockLevel}
    {moved : Database} (happlied : Stock.applyBatch d.batch db = .ok (levels, moved)) {row : Bytes}
    (hrow : encode (d.settle (recordOf d approver now)) = .ok row) :
    attempt id approver now db = .ok (.posted (d.settle (recordOf d approver now)),
      { moved with documents := db.documents.insert id.bytes row }) := by
  obtain ⟨hload, hvalid, hwarehouses, hproducts⟩ := h.checks
  have hdocuments : moved.documents = db.documents := by rw [Stock.applyBatch_frame happlied]
  have hmoved : Archive.load id moved = .ok d := by
    rw [Archive.load_congr hdocuments, h.loaded]
  have htransition := transition_of_draft hmoved h.draft hrow
  rw [hdocuments] at htransition
  refine bind_ok hload (bind_ok hvalid (bind_ok hwarehouses (bind_ok hproducts ?_)))
  rw [happlied]
  exact bind_ok (congrArg (Except.mapError PostingError.ofArchive) htransition) rfl

theorem attempt_of_shortfall (h : Ready id approver db d) {s : Shortfall}
    (hrefused : Stock.applyBatch d.batch db = .error (.refused (.insufficient s))) {row : Bytes}
    (hrow : encode (d.settle (shortfallRecord s now)) = .ok row) :
    attempt id approver now db =
      .ok (.rejected s, { db with documents := db.documents.insert id.bytes row }) := by
  obtain ⟨hload, hvalid, hwarehouses, hproducts⟩ := h.checks
  have htransition := transition_of_draft h.loaded h.draft hrow
  refine bind_ok hload (bind_ok hvalid (bind_ok hwarehouses (bind_ok hproducts ?_)))
  rw [hrefused]
  exact bind_ok (congrArg (Except.mapError PostingError.ofArchive) htransition) rfl

theorem attempt_of_refused (h : Ready id approver db d) {e : StockError}
    (hrefused : Stock.applyBatch d.batch db = .error e)
    (hother : ∀ s, e ≠ .refused (.insufficient s)) :
    attempt id approver now db = .error (.ofStock e) := by
  obtain ⟨hload, hvalid, hwarehouses, hproducts⟩ := h.checks
  refine bind_ok hload (bind_ok hvalid (bind_ok hwarehouses (bind_ok hproducts ?_)))
  rw [hrefused]
  split
  · rename_i heq
    cases heq
  · rename_i heq
    cases heq
    exact absurd rfl (hother _)
  · rename_i heq
    cases heq
    rfl

end Attempts

theorem post_of_error {hook : SaleHook σ} {id : DocumentId} {approver : String} {now : Timestamp}
    {world : Database × σ} {e : PostingError} (h : attempt id approver now world.1 = .error e) :
    post hook id approver now world = (.error e, world) := by
  simp [post, report, UnitOfWork.commit, h]

theorem post_of_rejected {hook : SaleHook σ} {id : DocumentId} {approver : String}
    {now : Timestamp} {world : Database × σ} {s : Shortfall} {db : Database}
    (h : attempt id approver now world.1 = .ok (.rejected s, db)) :
    post hook id approver now world = (.error (.refused (.insufficient s)), (db, world.2)) := by
  simp [post, report, UnitOfWork.commit, h]

theorem post_of_posted {hook : SaleHook σ} {id : DocumentId} {approver : String} {now : Timestamp}
    {world : Database × σ} {p : Document} {db : Database}
    (h : attempt id approver now world.1 = .ok (.posted p, db)) :
    post hook id approver now world =
      (.ok p, if p.kind = .sale then (hook p (db, world.2)).2 else (db, world.2)) := by
  simp [post, report, UnitOfWork.commit, h]

/-- The answer to the posting of a document that is ready is that of its batch. -/
theorem post_of_ready {hook : SaleHook σ} {id : DocumentId} {approver : String} {now : Timestamp}
    {world : Database × σ} {d : Document} (h : Ready id approver world.1 d) {row : Bytes}
    (hrow : encode d = .ok row) (hnow : now.unixNanos?.isSome) :
    (post hook id approver now world).1 =
      ((Stock.applyBatch d.batch world.1).mapError .ofStock).map
        fun _ => d.settle (recordOf d approver now) := by
  cases hbatch : Stock.applyBatch d.batch world.1 with
  | ok result =>
    obtain ⟨row', hrow'⟩ := Document.encode_settle hrow (s := recordOf d approver now) hnow
    rw [post_of_posted (attempt_of_posted h hbatch hrow')]
    rfl
  | error e =>
    by_cases hshort : ∃ s, e = .refused (.insufficient s)
    · obtain ⟨s, rfl⟩ := hshort
      obtain ⟨row', hrow'⟩ := Document.encode_settle hrow (s := shortfallRecord s now) hnow
      rw [post_of_rejected (attempt_of_shortfall h hbatch hrow')]
      rfl
    · rw [post_of_error (attempt_of_refused h hbatch (not_exists.mp hshort))]
      rfl

/-! ## The end of a posting -/

section Ends

variable {hook : SaleHook σ} {id : DocumentId} {approver : String} {now : Timestamp}
  {world : Database × σ} {d : Document}

/-- A document that is ready is posted, or its batch is refused. -/
theorem ends_of_ready (hdb : world.1.Integrity) (hready : Ready id approver world.1 d)
    (happrover : Cbor.TextFits approver) (hnow : now.unixNanos?.isSome) :
    Ends hook id approver now world (post hook id approver now world) := by
  obtain ⟨old, -, rfl, hd⟩ := hdb.isRow_of_load hready.loaded
  by_cases hall : ∀ m ∈ d.batch.toList, Stock.Admissible (Stock.onHand world.1 m.1) m
  · obtain ⟨levels, moved, happlied, hcarried⟩ :=
      Stock.applied_of_admissible hdb.quantities hall
    have hs := fits_recordOf d happrover now
    obtain ⟨row, hrow⟩ := Document.encode_settle hd.encoded (s := recordOf d approver now) hnow
    rw [post_of_posted (attempt_of_posted hready happlied hrow)]
    exact .posted hready happlied hcarried hrow rfl (load_settled hd hs hrow rfl)
  · have hroom := Document.hasRoom_batch hd.fits hready.valid
    obtain ⟨m, -, hrefused⟩ := Stock.refused_of_not_admissible hdb.quantities hroom hall
    unfold Stock.fault at hrefused
    split at hrefused
    · rw [post_of_error (attempt_of_refused hready hrefused (by simp))]
      exact .keyTooLong hready hrefused
    · split at hrefused
      · have hs := hdb.fits_shortfall hready.loaded hrefused now
        obtain ⟨row, hrow⟩ := Document.encode_settle hd.encoded (s := shortfallRecord _ now) hnow
        rw [post_of_rejected (attempt_of_shortfall hready hrefused hrow)]
        exact .insufficient hready hrefused hrow rfl (load_settled hd hs hrow rfl)
      · rw [post_of_error (attempt_of_refused hready hrefused (by simp))]
        exact .overflow hready hrefused

/-- A draft breaks rules, or lacks an entry of the catalog, or is ready. -/
theorem ends_of_draft (hdb : world.1.Integrity) (hload : Archive.load id world.1 = .ok d)
    (hdraft : d.status = .draft) (happrover : Cbor.TextFits approver)
    (hnow : now.unixNanos?.isSome) :
    Ends hook id approver now world (post hook id approver now world) := by
  have hloaded := loadDraft_of_draft hload hdraft
  by_cases hvalid : d.postingViolations approver = []
  · have hvalidated : (d.validateForPosting approver).mapError .invalidDocument =
        (.ok () : Except PostingError Unit) := by
      rw [validateForPosting_of_valid hvalid]
      rfl
    rcases lookUps_cases (fun w => Catalog.warehouse? w world.1)
        (fun w => let ⟨found, hfound, _⟩ := hdb.warehouse?_eq w; ⟨found, hfound⟩)
        (fun _ _ => checkWarehouse_of_known) (fun _ => checkWarehouse_of_absent) d.warehouses with
      ⟨hwarehouses, hchecked⟩ | ⟨before, w, behind, hsplit, hknown, habsent, hrefused⟩
    · rcases lookUps_cases (fun line => Catalog.product? line.product world.1)
          (fun line => let ⟨found, hfound, _⟩ := hdb.product?_eq line.product; ⟨found, hfound⟩)
          (fun _ _ => checkProduct_of_known) (fun _ => checkProduct_of_absent) d.lines with
        ⟨hproducts, -⟩ | ⟨before, line, behind, hsplit, hknown, habsent, hrefused⟩
      · exact ends_of_ready hdb ⟨hload, hdraft, hvalid, hwarehouses, hproducts⟩ happrover hnow
      · have hattempt : attempt id approver now world.1 = .error (.productNotFound line.product) :=
          bind_ok hloaded (bind_ok hvalidated (bind_ok hchecked (bind_error hrefused)))
        rw [post_of_error hattempt]
        exact .productNotFound hload hdraft hvalid hwarehouses hsplit hknown habsent
    · have hattempt : attempt id approver now world.1 = .error (.warehouseNotFound w) :=
        bind_ok hloaded (bind_ok hvalidated (bind_error hrefused))
      rw [post_of_error hattempt]
      exact .warehouseNotFound hload hdraft hvalid hsplit hknown habsent
  · have hbroken : (d.validateForPosting approver).mapError .invalidDocument =
        .error (PostingError.invalidDocument (d.postingViolations approver)) := by
      simp [Document.validateForPosting, hvalid]
    have hattempt : attempt id approver now world.1 =
        .error (.invalidDocument (d.postingViolations approver)) :=
      bind_ok hloaded (bind_error hbroken)
    rw [post_of_error hattempt]
    exact .invalid hload hdraft hvalid

/-- Where every row can be read, a posting has one of nine ends, whatever its hook does. -/
theorem ends_of_integrity (hdb : world.1.Integrity) (id : DocumentId)
    (happrover : Cbor.TextFits approver) (hnow : now.unixNanos?.isSome) :
    Ends hook id approver now world (post hook id approver now world) := by
  cases hrow : world.1.documents.get? id.bytes with
  | none =>
    have hload : Archive.load id world.1 = .error (.notFound id) := by
      unfold Archive.load Table.record?
      rw [hrow]
      rfl
    have hattempt : attempt id approver now world.1 = .error (.notFound id) :=
      bind_error (bind_error (by rw [hload]; rfl))
    rw [post_of_error hattempt]
    exact .notFound hrow
  | some row =>
    obtain ⟨d, hload, rfl, -⟩ := hdb.load_eq hrow
    by_cases hdraft : d.status = .draft
    · exact ends_of_draft hdb hload hdraft happrover hnow
    · have hdone : loadDraft d.id world.1 = .error (.alreadyPosted d.id d.status) := by
        refine bind_ok (by rw [hload]; rfl) ?_
        simp only [ne_eq, hdraft, not_false_eq_true, if_true]
        rfl
      rw [post_of_error (e := .alreadyPosted d.id d.status) (bind_error hdone)]
      exact .alreadyPosted hload hdraft

end Ends

/-- In every reachable database a posting has one of nine ends, decided in their order. -/
theorem post_ends {hook : LedgerHook σ} {world : Database × σ}
    (h : Reachable hook anyOperation world) (id : DocumentId) {approver : String}
    (happrover : Cbor.TextFits approver) {now : Timestamp} (hnow : now.unixNanos?.isSome) :
    Ends hook.run id approver now world (post hook.run id approver now world) :=
  ends_of_integrity h.integrity id happrover hnow

/-- Nine units are to go out of three. -/
theorem post_ends_history :
    ∃ world : Database × Unit, Reachable .silent anyOperation world ∧
      Stock.onHand world.1 ⟨⟨"w"⟩, ⟨"p"⟩⟩ = 3 ∧ Cbor.TextFits "b" ∧
      (Timestamp.ofUnixNanos 3).unixNanos?.isSome ∧
      Ends SaleHook.none ⟨"f"⟩ "b" (.ofUnixNanos 3) world
        (post SaleHook.none ⟨"f"⟩ "b" (.ofUnixNanos 3) world) := by
  have hreach : Reachable .silent anyOperation
      (runAll LedgerHook.silent.run (Stock.history.take 7) (∅, ())) :=
    (Stock.reachable_history 7).mono fun _ _ _ => trivial
  have happrover : Cbor.TextFits "b" := by decide
  have hnow : (Timestamp.ofUnixNanos 3).unixNanos?.isSome := by decide
  exact ⟨_, hreach, by decide +kernel, happrover, hnow, post_ends hreach ⟨"f"⟩ happrover hnow⟩

end Depot.Posting
