import Depot.Proofs.Service.Availability
/-!
# What is said of unknown references

A new draft that refers to a warehouse or product which is not in the catalog is not kept, and
nothing is written. Of the references that are missing the first is reported, the source before the
destination, warehouses before products, in the order in which a posting of the same draft would
find it.

A transfer is checked against the stock of its source before. Where the stock does not cover it, a
shortfall is reported instead, also in warehouses that do not exist (`unknown_warehouse_unsaid`).
Everywhere else the missing reference is reported (`Service.unknown_reference_told`).

## How the proof goes

`Document.Missing` is the first missing reference, with what is known of those before it. That is
all that the keeping of a draft looks at (`keep_of_missing`), and all that its posting looks at once
it was loaded (`attempt_of_missing`).
-/

namespace Depot

/-! ## References -/

/-- An entry of the catalog that a document refers to. -/
inductive Reference where
  | warehouse (id : WarehouseId)
  | product (id : ProductId)
  deriving DecidableEq, Repr

/-- The catalog does not have the entry. -/
def Reference.catalogError : Reference → CatalogError
  | warehouse id => .warehouseNotFound id
  | product id => .productNotFound id

/-- A posting does not find the entry. -/
def Reference.postingError : Reference → PostingError
  | warehouse id => .warehouseNotFound id
  | product id => .productNotFound id

theorem Reference.code_catalogError (r : Reference) : r.catalogError.code = .notFound := by
  cases r <;> rfl

namespace Document

/-- The first reference of the document that is not in the catalog: warehouses before products, the
source first, the products line by line. -/
inductive Missing (d : Document) (db : Database) : Reference → Prop
  | warehouse {before behind : List WarehouseId} {w : WarehouseId}
    (warehouses : d.warehouses = before ++ w :: behind)
    (known : ∀ v ∈ before, ∃ r, Catalog.warehouse? v db = .ok (some r))
    (absent : Catalog.warehouse? w db = .ok none) : Missing d db (.warehouse w)
  | product {before behind : List DocumentLine} {line : DocumentLine}
    (warehouses : ∀ w ∈ d.warehouses, ∃ r, Catalog.warehouse? w db = .ok (some r))
    (lines : d.lines = before ++ line :: behind)
    (known : ∀ l ∈ before, ∃ p, Catalog.product? l.product db = .ok (some p))
    (absent : Catalog.product? line.product db = .ok none) : Missing d db (.product line.product)

/-- A document with an unknown reference has a first one. -/
theorem exists_missing {d : Document} {db : Database} (hdb : db.Integrity)
    (h : (∃ w ∈ d.warehouses, Catalog.warehouse? w db = .ok none) ∨
      ∃ line ∈ d.lines, Catalog.product? line.product db = .ok none) :
    ∃ r, d.Missing db r := by
  rcases Posting.lookUps_cases (fun w => Catalog.warehouse? w db)
      (fun w => let ⟨found, hfound, _⟩ := hdb.warehouse?_eq w; ⟨found, hfound⟩)
      (fun _ _ => Posting.checkWarehouse_of_known) (fun _ => Posting.checkWarehouse_of_absent)
      d.warehouses with
    ⟨hwarehouses, -⟩ | ⟨before, w, behind, hsplit, hknown, habsent, -⟩
  · rcases Posting.lookUps_cases (fun line => Catalog.product? line.product db)
        (fun line => let ⟨found, hfound, _⟩ := hdb.product?_eq line.product; ⟨found, hfound⟩)
        (fun _ _ => Posting.checkProduct_of_known) (fun _ => Posting.checkProduct_of_absent)
        d.lines with
      ⟨hproducts, -⟩ | ⟨before, line, behind, hsplit, hknown, habsent, -⟩
    · -- every reference is known, against the hypothesis
      rcases h with ⟨w, hw, hnone⟩ | ⟨line, hline, hnone⟩
      · obtain ⟨r, hr⟩ := hwarehouses w hw
        rw [hnone] at hr
        cases hr
      · obtain ⟨p, hp⟩ := hproducts line hline
        rw [hnone] at hp
        cases hp
    · exact ⟨_, .product hwarehouses hsplit hknown habsent⟩
  · exact ⟨_, .warehouse hsplit hknown habsent⟩

/-- What is missing depends on the order and the catalog. -/
theorem Missing.of_sameOrder {d d' : Document} {db db' : Database} {r : Reference}
    (h : d.Missing db r) (hd : d'.SameOrder d) (hwarehouses : db'.warehouses = db.warehouses)
    (hproducts : db'.products = db.products) : d'.Missing db' r := by
  have hw (w : WarehouseId) : Catalog.warehouse? w db' = Catalog.warehouse? w db := by
    unfold Catalog.warehouse?
    rw [hwarehouses]
  have hp (p : ProductId) : Catalog.product? p db' = Catalog.product? p db := by
    unfold Catalog.product?
    rw [hproducts]
  have hsides : d'.warehouses = d.warehouses := by
    unfold Document.warehouses
    rw [hd.source, hd.destination]
  cases h with
  | warehouse warehouses known absent =>
    exact .warehouse (hsides.trans warehouses) (by simpa only [hw] using known)
      ((hw _).trans absent)
  | product warehouses lines known absent =>
    exact .product (by simpa only [hw, hsides] using warehouses) (hd.lines.trans lines)
      (by simpa only [hp] using known) ((hp _).trans absent)

end Document

/-! ## The first error -/

/-- The posting of a draft reports its first missing reference. -/
theorem Posting.attempt_of_missing {d : Document} {id : DocumentId} {approver : String}
    {now : Timestamp} {db : Database} {r : Reference} (hload : Archive.load id db = .ok d)
    (hdraft : d.status = .draft) (hvalid : d.postingViolations approver = [])
    (h : d.Missing db r) : attempt id approver now db = .error r.postingError := by
  have hvalidated : (d.validateForPosting approver).mapError .invalidDocument =
      (.ok () : Except PostingError Unit) := by
    rw [validateForPosting_of_valid hvalid]
    rfl
  refine bind_ok (loadDraft_of_draft hload hdraft) (bind_ok hvalidated ?_)
  cases h with
  | warehouse warehouses known absent =>
    refine bind_error ?_
    rw [warehouses]
    exact forM_append_cons_eq_error
      (fun v hv => let ⟨_, hr⟩ := known v hv; checkWarehouse_of_known hr)
      (checkWarehouse_of_absent absent)
  | product warehouses lines known absent =>
    refine bind_ok (forM_eq_ok.mpr fun w hw => ?_) (bind_error ?_)
    · obtain ⟨r, hr⟩ := warehouses w hw
      exact checkWarehouse_of_known hr
    · rw [lines]
      exact forM_append_cons_eq_error
        (fun l hl => let ⟨_, hp⟩ := known l hl; checkProduct_of_known hp)
        (checkProduct_of_absent absent)

namespace Service

variable {d : Document} {db : Database} {r : Reference}

/-- The keeping of a draft reports its first missing reference. -/
theorem keep_of_missing (hvalid : d.validate = .ok ()) (h : d.Missing db r) :
    keep d db = .error (.catalog r.catalogError) := by
  refine bind_ok (by rw [hvalid]; rfl) ?_
  cases h with
  | warehouse warehouses known absent =>
    refine bind_error ?_
    rw [warehouses]
    refine forM_append_cons_eq_error (fun v hv => ?_) (bind_error ?_)
    · obtain ⟨r, hr⟩ := known v hv
      exact bind_ok (by rw [Catalog.warehouse_of_known hr]; rfl) rfl
    · rw [Catalog.warehouse_of_absent absent]
      rfl
  | product warehouses lines known absent =>
    refine bind_ok (forM_eq_ok.mpr fun w hw => ?_) (bind_error ?_)
    · obtain ⟨r, hr⟩ := warehouses w hw
      exact bind_ok (by rw [Catalog.warehouse_of_known hr]; rfl) rfl
    · rw [lines]
      refine forM_append_cons_eq_error (fun l hl => ?_) (bind_error ?_)
      · obtain ⟨p, hp⟩ := known l hl
        exact bind_ok (by rw [Catalog.product_of_known hp]; rfl) rfl
      · rw [Catalog.product_of_absent absent]
        rfl

section Create

variable {id : DocumentId} {request : DraftRequest} {now : Timestamp}

/-- A transfer is checked against the stock before it is kept. -/
theorem create_of_transfer (hkind : (request.document id now).kind = .transfer)
    (hvalid : (request.document id now).validate = .ok ()) :
    create id request now db = (do
      checkAvailable (request.document id now) db
      keep (request.document id now) db) := by
  unfold create
  dsimp only
  rw [if_pos hkind]
  exact bind_ok (by rw [hvalid]; rfl) rfl

/-- Another document is kept at once. -/
theorem create_of_other (hkind : (request.document id now).kind ≠ .transfer) :
    create id request now db = keep (request.document id now) db := by
  unfold create
  dsimp only
  rw [if_neg hkind]

theorem run_create_of_error {σ : Type} {hook : SaleHook σ} {world : Database × σ}
    {e : ServiceError} (h : create id request now world.1 = .error e) :
    (Operation.service (.create id request now)).run hook world = (.error e, world) := by
  simp only [Operation.run, ServiceOperation.run, update, UnitOfWork.commit, h]
  rfl

/-- What the making of a valid draft with a missing reference answers: the reference, or for a
transfer that the stock does not cover the first shortfall. -/
theorem create_of_missing (hstock : db.stock.HoldsQuantities)
    (hvalid : (request.document id now).validate = .ok ())
    (hshort : ∀ w ∈ (request.document id now).warehouses,
      w.bytes.length ≤ StockKey.maxWarehouseLength)
    (h : (request.document id now).Missing db r) :
    (((request.document id now).kind = .transfer →
        Stock.Covers db (request.document id now).batch) ∧
      create id request now db = .error (.catalog r.catalogError)) ∨
    ((request.document id now).kind = .transfer ∧
      ∃ m, Stock.FirstShort db (request.document id now).batch m ∧
        create id request now db =
          .error (.stock (.refused (.insufficient (Stock.shortfallOf db m))))) := by
  have hkeep := keep_of_missing hvalid h
  have hkeys : ∀ m ∈ (request.document id now).batch.toList,
      m.1.warehouse.bytes.length ≤ StockKey.maxWarehouseLength :=
    fun m hm => hshort _ (Document.key_of_mem_batch hm).2
  by_cases hkind : (request.document id now).kind = .transfer
  · rw [create_of_transfer hkind hvalid]
    by_cases hcovers : Stock.Covers db (request.document id now).batch
    · exact .inl ⟨fun _ => hcovers,
        bind_ok (checkAvailable_of_covers hstock hkeys hcovers) hkeep⟩
    · obtain ⟨m, hm⟩ := Stock.exists_firstShort hcovers
      exact .inr ⟨hkind, m, hm, bind_error (checkAvailable_of_firstShort hstock hkeys hm)⟩
  · rw [create_of_other hkind]
    exact .inl ⟨fun htransfer => absurd htransfer hkind, hkeep⟩

end Create

section Told

variable {σ : Type} {hook : LedgerHook σ} {world : Database × σ}

/-- A draft that was taken in is not posted while a reference is missing: the first is reported. -/
theorem answer_of_missing (hook : LedgerHook σ) {world' : Database × σ} (hvalid : d.violations = [])
    (h : d.Missing world.1 r) (hentered : d.Entered world world') {op : Operation}
    {approver : String} {now : Timestamp} (hop : op.Posts d.id approver now) :
    (op.run hook.run world').1 = .error (.posting r.postingError) := by
  have hmissing : d.stored.Missing world'.1 r :=
    h.of_sameOrder d.sameOrder_stored (by rw [hentered.frame]) (by rw [hentered.frame])
  have hrules : d.stored.postingViolations approver = [] := by
    rw [Document.postingViolations, Document.violations_stored, hvalid, hop.named]
    rfl
  obtain ⟨τ, run, t, hanswer, -⟩ := Operation.run_of_approval hook hop.asked world'
  have hattempt : Posting.attempt d.id approver now (world'.1, t).1 = .error r.postingError :=
    Posting.attempt_of_missing hentered.loads hentered.draft hrules hmissing
  rw [hanswer, Posting.post_of_error hattempt]
  rfl

/-- In every reachable database, for a draft that keeps the rules and refers to something that is
not in the catalog: nothing is written, and the first missing reference is reported as not found, in
the order in which the posting of a draft for the same order finds it. The one exception is a
transfer that the stock does not cover. For it the first shortfall is reported. -/
theorem unknown_reference_told (h : Reachable hook anyOperation world) {id : DocumentId}
    {request : DraftRequest} {now : Timestamp}
    (hvalid : (request.document id now).validate = .ok ())
    (hshort : ∀ w ∈ (request.document id now).warehouses,
      w.bytes.length ≤ StockKey.maxWarehouseLength)
    (hunknown : (∃ w ∈ (request.document id now).warehouses,
        Catalog.warehouse? w world.1 = .ok none) ∨
      ∃ line ∈ (request.document id now).lines, Catalog.product? line.product world.1 = .ok none) :
    let d := request.document id now
    let create : Operation := .service (.create id request now)
    ∃ reference, d.Missing world.1 reference ∧ reference.catalogError.code = .notFound ∧
      (create.run hook.run world = (.error (.catalog reference.catalogError), world) ↔
        (d.kind = .transfer → Stock.Covers world.1 d.batch)) ∧
      (¬ (d.kind = .transfer → Stock.Covers world.1 d.batch) →
        ∃ m, Stock.FirstShort world.1 d.batch m ∧
          create.run hook.run world =
            (.error (.stock (.refused (.insufficient (Stock.shortfallOf world.1 m)))), world)) ∧
      ∀ other : Document, other.SameOrder d → other.Fits →
        let insert : Operation := .archive (.insert other)
        (insert.run hook.run world).1 = .ok .done →
          ∀ op approver later, Operation.Posts op other.id approver later →
            (op.run hook.run (insert.run hook.run world).2).1 =
              .error (.posting reference.postingError) := by
  intro d create
  have hdb := h.integrity
  obtain ⟨r, hr⟩ := Document.exists_missing hdb hunknown
  have hposting : ∀ other : Document, other.SameOrder d → other.Fits →
      let insert : Operation := .archive (.insert other)
      (insert.run hook.run world).1 = .ok .done →
        ∀ op approver later, Operation.Posts op other.id approver later →
          (op.run hook.run (insert.run hook.run world).2).1 = .error (.posting r.postingError) := by
    intro other hsame hfits insert hinserted op approver later hop
    have hrules : other.violations = [] := hsame.violations.trans (Document.validate_eq_ok hvalid)
    have hmissing : other.Missing world.1 r := hr.of_sameOrder hsame rfl rfl
    exact answer_of_missing hook hrules hmissing (Operation.entered hfits rfl hinserted) hop
  rcases create_of_missing hdb.stock hvalid hshort hr with
    ⟨hcovers, hcreate⟩ | ⟨hkind, m, hm, hcreate⟩
  · have hrun : create.run hook.run world = (.error (.catalog r.catalogError), world) :=
      run_create_of_error hcreate
    exact ⟨r, hr, r.code_catalogError, iff_of_true hrun hcovers, fun hnot => absurd hcovers hnot,
      hposting⟩
  · have hrun : create.run hook.run world =
        (.error (.stock (.refused (.insufficient (Stock.shortfallOf world.1 m)))), world) :=
      run_create_of_error hcreate
    have hlacks : ¬ (d.kind = .transfer → Stock.Covers world.1 d.batch) :=
      fun hcovers => absurd (hcovers hkind m hm.mem) (Int.not_le.mpr hm.lacks)
    refine ⟨r, hr, r.code_catalogError, iff_of_false ?_ hlacks, fun _ => ⟨m, hm, hrun⟩, hposting⟩
    rw [hrun]
    nofun

end Told

/-- All five pieces, and no more, are asked for in a warehouse that does not exist. -/
def strayRequest : DraftRequest :=
  ⟨.transfer ⟨"v"⟩ ⟨"x"⟩, [⟨⟨"p"⟩, 5, none⟩], "a", none⟩

/-- The stock covers the transfer, so its destination is reported. -/
theorem unknown_reference_told_supply :
    ∃ world : Database × Unit, Reachable .silent anyOperation world ∧
      let d := strayRequest.document ⟨"d"⟩ (.ofUnixNanos 0)
      let create : Operation := .service (.create ⟨"d"⟩ strayRequest (.ofUnixNanos 0))
      d.validate = .ok () ∧ (∀ w ∈ d.warehouses, w.bytes.length ≤ StockKey.maxWarehouseLength) ∧
        (∃ w ∈ d.warehouses, Catalog.warehouse? w world.1 = .ok none) ∧
        Stock.Covers world.1 d.batch ∧
        create.run SaleHook.none world = (.error (.catalog (.warehouseNotFound ⟨"x"⟩)), world) := by
  have hvalid : (strayRequest.document ⟨"d"⟩ (.ofUnixNanos 0)).validate = .ok () := by
    decide +kernel
  have hshort : ∀ w ∈ (strayRequest.document ⟨"d"⟩ (.ofUnixNanos 0)).warehouses,
      w.bytes.length ≤ StockKey.maxWarehouseLength := by decide +kernel
  have habsent : ∃ w ∈ (strayRequest.document ⟨"d"⟩ (.ofUnixNanos 0)).warehouses,
      Catalog.warehouse? w (runAll SaleHook.none supply ((∅, ()) : Database × Unit)).1 =
        .ok none := ⟨⟨"x"⟩, by decide +kernel, by decide +kernel⟩
  have hcovers : Stock.Covers (runAll SaleHook.none supply ((∅, ()) : Database × Unit)).1
      (strayRequest.document ⟨"d"⟩ (.ofUnixNanos 0)).batch := by
    unfold Stock.Covers
    decide +kernel
  obtain ⟨reference, -, -, htold, -⟩ :=
    unknown_reference_told reachable_supply hvalid hshort (.inl habsent)
  have hrun := htold.mpr fun _ => hcovers
  have hanswer : ((Operation.service (.create ⟨"d"⟩ strayRequest (.ofUnixNanos 0))).run
      SaleHook.none (runAll SaleHook.none supply ((∅, ()) : Database × Unit))).1 =
        .error (.catalog (.warehouseNotFound ⟨"x"⟩)) := by decide +kernel
  have hreference : reference.catalogError = .warehouseNotFound ⟨"x"⟩ :=
    ServiceError.catalog.inj (Except.error.inj ((congrArg Prod.fst hrun).symm.trans hanswer))
  rw [hreference] at hrun
  exact ⟨_, reachable_supply, hvalid, hshort, habsent, hcovers, hrun⟩

/-- With nothing in the catalog, a transfer of one piece is answered by a shortfall in a warehouse
that does not exist, though an export out of it is answered as not found. -/
theorem unknown_warehouse_unsaid :
    let request (route : Document.Route) : DraftRequest := ⟨route, [⟨⟨"p"⟩, 1, none⟩], "a", none⟩
    let create (route : Document.Route) : Operation :=
      .service (.create ⟨"d"⟩ (request route) (.ofUnixNanos 0))
    let d := (request (.transfer ⟨"w"⟩ ⟨"v"⟩)).document ⟨"d"⟩ (.ofUnixNanos 0)
    let world : Database × Unit := (∅, ())
    let e : ServiceError := .stock (.refused (.insufficient ⟨⟨"w"⟩, ⟨"p"⟩, 0, 1⟩))
    Reachable .silent anyOperation world ∧ d.validate = .ok () ∧
      d.Missing world.1 (.warehouse ⟨"w"⟩) ∧
      ((create (.transfer ⟨"w"⟩ ⟨"v"⟩)).run SaleHook.none world).1 = .error e ∧
      e.code = .unprocessable ∧
      ((create (.outbound ⟨"w"⟩)).run SaleHook.none world).1 =
        .error (.catalog (.warehouseNotFound ⟨"w"⟩)) := by
  intro request create d world e
  have hsides : d.warehouses = [] ++ ⟨"w"⟩ :: [⟨"v"⟩] := rfl
  have hmissing : d.Missing world.1 (.warehouse ⟨"w"⟩) :=
    .warehouse hsides (by simp) (by decide +kernel)
  exact ⟨.start (), by decide +kernel, hmissing, by decide +kernel, rfl, by decide +kernel⟩

end Service

end Depot
