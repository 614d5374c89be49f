import Depot.Proofs.Catalog.Lookup
import Depot.Proofs.Document.Lifecycle
import Mathlib.Data.Nat.Order.Lemmas
/-!
# A draft made by the service stays postable

Posting a draft checks again what making it has checked: the rules, and that its warehouses and
products are in the catalog. If only the catalog and the service are used, little of this can have
changed in between, and `DraftEnd` lists the five ends that are left of the nine that a posting has
(`Posting.Ends`). `Service.draft_postable` says that one of these applies to every draft in the
archive, and that every document there still keeps the rules.

## How the proof goes

Every document in the archive was made at some place of the run, by an operation of the service that
succeeded (`exists_made`). What its maker fixed has not changed since (`Course.kept`), so it keeps
the rules that were checked then. Its products are in the catalog still, because no operation takes
one away. A warehouse that is missing was there when the draft was made, so it was removed at a
later place of the run (`exists_removed`).

The warehouses of the catalog have identifiers that fit keys of stock, and a posting moves no other
warehouses. This is the only fact about the catalog that is proved state by state.

## The side conditions

Warehouses are registered under identifiers that fit a key of stock, and the draft is posted at a
time in range. Nothing is asked of earlier times, and no identifier has to be fresh: a document
keeps its row whatever fails, and whoever is given its identifier again.
-/

namespace Depot

variable {σ : Type}

/-! ## Operations of the catalog and the service -/

/-- The operation is one of the catalog or the service. -/
def Operation.IsOuter : Operation → Prop
  | .catalog _ | .service _ => True
  | _ => False

/-- The operation is one of the catalog or the service, and registers no warehouse under an
identifier that fits no key of stock. -/
def Operation.IsFront : Operation → Prop
  | .catalog (.addWarehouse id _) => id.bytes.length ≤ StockKey.maxWarehouseLength
  | .catalog _ | .service _ => True
  | _ => False

theorem Operation.IsFront.isOuter {op : Operation} (h : op.IsFront) : op.IsOuter := by
  cases op with
  | catalog | service => trivial
  | _ => cases h

/-- One of them that posts a document is that of the service. -/
theorem Operation.IsOuter.posts {op : Operation} (h : op.IsOuter) {id : DocumentId}
    {approver : String} {now : Timestamp} (hop : op.approval? = some (id, approver, now)) :
    ∃ recordedAt, op = .service (.post id approver now recordedAt) := by
  cases op with
  | service op =>
    cases op with
    | post =>
      cases hop
      exact ⟨_, rfl⟩
    | _ => cases hop
  | catalog => cases hop
  | _ => cases h

/-- One of them that settles a document without moving stock voids it. -/
theorem Operation.IsOuter.voids {op : Operation} (h : op.IsOuter) {id : DocumentId}
    {s : Settlement} (hop : op.settlement? = some (id, s)) :
    ∃ voidedBy reason now, op = .service (.void id voidedBy reason now) ∧
      s = .failure ⟨.voided voidedBy reason, now⟩ := by
  cases op with
  | service op =>
    cases op with
    | void voided voidedBy reason now =>
      cases hop
      exact ⟨voidedBy, reason, now, rfl, rfl⟩
    | _ => cases hop
  | catalog => cases hop
  | _ => cases h

/-- Operations of the other layers are not allowed. -/
def frontOperation (_ : Database) (op : Operation) : Prop := op.IsFront

/-- The operation at a place of the run is this one, and succeeds with this answer. -/
def AnsweredAt (hook : SaleHook σ) (ops : List Operation) (world : Database × σ) (n : Nat)
    (op : Operation) (answer : Answer) : Prop :=
  ops[n]? = some op ∧ (op.run hook (worldAfter hook ops world n)).1 = .ok answer

/-- What holds at a place of the run and does not hold at its end is ended by one of the operations
in between. -/
theorem exists_turn (hook : SaleHook σ) (ops : List Operation) (world : Database × σ)
    {P : Database × σ → Prop} {m : Nat} (hm : P (worldAfter hook ops world m))
    (hend : ¬ P (runAll hook ops world)) :
    ∃ n op, m ≤ n ∧ ops[n]? = some op ∧ P (worldAfter hook ops world n) ∧
      ¬ P (op.run hook (worldAfter hook ops world n)).2 := by
  have hlater : ∃ k, ¬ P (worldAfter hook ops world (m + k)) := by
    refine ⟨ops.length, ?_⟩
    rw [worldAfter_of_length_le (Nat.le_add_left _ _)]
    exact hend
  obtain ⟨k, hk, hnext⟩ := Nat.exists_not_and_succ_of_not_zero_of_exists
    (p := fun k => ¬ P (worldAfter hook ops world (m + k))) (by simpa using hm) hlater
  have hk : P (worldAfter hook ops world (m + k)) := not_not.mp hk
  cases hop : ops[m + k]? with
  | none =>
    -- behind the last operation nothing changes
    have hlength := List.getElem?_eq_none_iff.mp hop
    rw [worldAfter_of_length_le hlength] at hk
    exact absurd hk hend
  | some op =>
    refine ⟨m + k, op, Nat.le_add_right m k, hop, hk, ?_⟩
    rw [← worldAfter_succ hop]
    exact hnext

/-! ## Single operations -/

section Single

variable {hook : LedgerHook σ} {world : Database × σ} {op : Operation}

/-- A document that was not there before was made by the service. -/
theorem Operation.IsOuter.creates (houter : op.IsOuter) {id : DocumentId} {row : Bytes}
    (hbefore : world.1.documents.get? id.bytes = none)
    (hafter : (op.run hook.run world).2.1.documents.get? id.bytes = some row) :
    ∃ request now made, op = .service (.create id request now) ∧
      (op.run hook.run world).1 = .ok (.document made) ∧
      Service.create id request now world.1 = .ok (made, (op.run hook.run world).2.1) := by
  obtain ⟨d, answer, hd, hid, hok⟩ := Operation.takes_in hbefore hafter
  cases op with
  | service op =>
    cases op with
    | create id' request now =>
      cases hd
      rw [Service.DraftRequest.id_document] at hid
      subst hid
      simp only [Operation.run, ServiceOperation.run, update, UnitOfWork.commit] at hok ⊢
      cases hcreate : Service.create id' request now world.1 with
      | error e =>
        rw [hcreate] at hok
        cases hok
      | ok result => exact ⟨request, now, result.1, rfl, rfl, hcreate⟩
    | _ => cases hd
  | archive => cases houter
  | _ => cases hd

theorem catalog_of_applyBatch {batch : Batch} {levels : List StockLevel} {db db' : Database}
    (h : Stock.applyBatch batch db = .ok (levels, db')) :
    db'.warehouses = db.warehouses ∧ db'.products = db.products := by
  rw [Stock.applyBatch_frame h]
  exact ⟨rfl, rfl⟩

/-- A warehouse that is not there any more was removed. -/
theorem Operation.removes {w : WarehouseId} (hbefore : world.1.warehouses.contains w.bytes = true)
    (hafter : ¬ (op.run hook.run world).2.1.warehouses.contains w.bytes = true) :
    op = .catalog (.removeWarehouse w) ∧ (op.run hook.run world).1 = .ok .done := by
  obtain ⟨db', heffect, hcore⟩ := effect_run hook op world
  have hafter' := hafter
  rw [hcore.warehouses] at hafter'
  cases heffect with
  | moved asked applied | posted asked ready applied =>
    rw [← (catalog_of_applyBatch applied).1] at hbefore
    exact absurd hbefore hafter'
  | warehouse source =>
    rw [Table.contains_insert, hbefore, Bool.or_true] at hafter'
    exact absurd rfl hafter'
  | @removed id asked known bare =>
    subst asked
    have hid : w = id := by
      by_contra hne
      have hbytes : w.bytes ≠ id.bytes := fun h => hne (Ident.bytes_injective h)
      rw [Table.contains_erase, hbefore] at hafter'
      simp [hbytes] at hafter'
    subst hid
    refine ⟨rfl, ?_⟩
    simp only [Operation.run, CatalogOperation.run, update, UnitOfWork.commit] at hafter ⊢
    cases hremove : Catalog.removeWarehouse w world.1 with
    | error e =>
      rw [hremove] at hafter
      exact absurd hbefore hafter
    | ok result => rfl
  | _ => exact absurd hbefore hafter'

/-- A product that is there stays. -/
theorem Operation.keeps_product {key : Bytes} (h : world.1.products.contains key = true) :
    (op.run hook.run world).2.1.products.contains key = true := by
  obtain ⟨db', heffect, hcore⟩ := effect_run hook op world
  rw [hcore.products]
  cases heffect with
  | moved asked applied | posted asked ready applied =>
    rw [← (catalog_of_applyBatch applied).2] at h
    exact h
  | product source => rw [Table.contains_insert, h, Bool.or_true]
  | _ => exact h

/-- The warehouses of the catalog have identifiers that fit keys of stock. -/
theorem Reachable.shortWarehouses (h : Reachable hook frontOperation world) :
    world.1.warehouses.Every fun key _ => key.length ≤ StockKey.maxWarehouseLength := by
  refine h.induction (P := fun db => db.warehouses.Every fun key _ =>
    key.length ≤ StockKey.maxWarehouseLength) (fun hcore ha => ?_) Table.every_empty ?_
  · rw [hcore.warehouses]
    exact ha
  · intro op db' world' hreach _ hfront hshort heffect
    cases heffect with
    | moved asked applied | posted asked ready applied =>
      rw [← (catalog_of_applyBatch applied).1] at hshort
      exact hshort
    | warehouse source =>
      refine hshort.insert ?_
      rcases source with ⟨rfl, -⟩ | ⟨v, location, rfl, hv, -⟩
      · exact hfront
      · obtain ⟨row, hrow⟩ := Table.contains_iff.mp (Table.record?_eq_ok hv)
        exact hshort _ row hrow
    | removed => exact hshort.erase _
    | _ => exact hshort

end Single

/-! ## Making drafts -/

/-- What was checked of a draft that was made. -/
theorem Service.create_checked {id : DocumentId} {request : DraftRequest} {now : Timestamp}
    {db db' : Database} {made : Document} (h : create id request now db = .ok (made, db')) :
    made = request.document id now ∧ made.violations = [] ∧
      (∀ w ∈ made.warehouses, db.warehouses.contains w.bytes = true) ∧
      ∀ line ∈ made.lines, db.products.contains line.product.bytes = true := by
  obtain ⟨⟨⟩, hvalid, h⟩ := bind_eq_ok (keep_of_create h)
  obtain ⟨⟨⟩, hwarehouses, h⟩ := bind_eq_ok h
  obtain ⟨⟨⟩, hproducts, h⟩ := bind_eq_ok h
  obtain ⟨⟨⟨⟩, db₁⟩, -, h⟩ := bind_eq_ok h
  cases h
  refine ⟨rfl, ?_, fun w hw => ?_, fun line hline => ?_⟩
  · exact Document.validate_eq_ok (mapError_eq_ok hvalid)
  · obtain ⟨r, hr, -⟩ := bind_eq_ok (forM_eq_ok.mp hwarehouses w hw)
    exact Table.record?_eq_ok (Catalog.warehouse_eq_ok (mapError_eq_ok hr))
  · obtain ⟨r, hr, -⟩ := bind_eq_ok (forM_eq_ok.mp hproducts line hline)
    exact Table.record?_eq_ok (Catalog.product_eq_ok (mapError_eq_ok hr))

/-- The rules are about the order. -/
theorem Document.SameOrder.violations {a b : Document} (h : a.SameOrder b) :
    a.violations = b.violations := by
  unfold Document.violations warehouseViolations
  rw [h.createdBy, h.kind, h.source, h.destination, h.customer, h.lines]

theorem Document.violations_stored (d : Document) : d.stored.violations = d.violations := rfl

section Run

variable {hook : LedgerHook σ} {ops : List Operation} {s : σ}

/-- The draft with this identifier was made at a place of the run, and has kept its content. -/
structure MadeAt (hook : LedgerHook σ) (ops : List Operation) (s : σ) (n : Nat)
    (request : Service.DraftRequest) (now : Timestamp) (made d : Document) : Prop where
  answered : AnsweredAt hook.run ops (∅, s) n (.service (.create d.id request now)) (.document made)
  valid : made.violations = []
  warehouses : ∀ w ∈ made.warehouses,
    (worldAfter hook.run ops (∅, s) n).1.warehouses.contains w.bytes = true
  products : ∀ line ∈ made.lines,
    (worldAfter hook.run ops (∅, s) n).1.products.contains line.product.bytes = true
  kept : d.SameContent made.stored

theorem reachable_worldAfter {allowed : Database → Operation → Prop}
    (hfits : ∀ op ∈ ops, op.Fits) (hallowed : ∀ op ∈ ops, ∀ db, allowed db op) (s : σ) (n : Nat) :
    Reachable hook allowed (worldAfter hook.run ops (∅, s) n) :=
  .runAll (fun op h => hfits op (List.mem_of_mem_take h))
    (fun op h => hallowed op (List.mem_of_mem_take h)) (.start s)

/-- Every document of the archive was made at some place of the run, and took its course from
there. -/
theorem exists_course (hfits : ∀ op ∈ ops, op.Fits) (houter : ∀ op ∈ ops, op.IsOuter)
    {d : Document} (hload : Archive.load d.id (runAll hook.run ops (∅, s)).1 = .ok d) :
    ∃ n request now made db,
      AnsweredAt hook.run ops (∅, s) n (.service (.create d.id request now)) (.document made) ∧
      Service.create d.id request now (worldAfter hook.run ops (∅, s) n).1 = .ok (made, db) ∧
      Course made.stored (ops.drop (n + 1))
        (fun k => (worldAfter hook.run ops (∅, s) (n + 1 + k)).1.documents.get? d.id.bytes)
        fun k => Archive.load d.id (worldAfter hook.run ops (∅, s) (n + 1 + k)).1 := by
  have hreach (n : Nat) : Reachable hook anyOperation (worldAfter hook.run ops (∅, s) n) :=
    reachable_worldAfter hfits (fun _ _ _ => trivial) s n
  obtain ⟨n, op, -, hop, hbefore, hafter⟩ := exists_turn hook.run ops (∅, s) (m := 0)
    (P := fun world => world.1.documents.get? d.id.bytes = none) rfl (by
      obtain ⟨row, hrow, -⟩ := Archive.load_eq_ok hload
      rw [hrow]
      nofun)
  obtain ⟨row, hrow⟩ := Option.ne_none_iff_exists'.mp hafter
  have hmem := List.mem_of_getElem? hop
  obtain ⟨request, now, made, rfl, hanswer, hcreate⟩ :=
    (houter op hmem).creates hbefore hrow
  refine ⟨n, request, now, made, _, ⟨hop, hanswer⟩, hcreate, ?_⟩
  obtain ⟨rfl, -⟩ := Service.create_checked hcreate
  have hrest : ∀ op ∈ ops.drop (n + 1), op.Fits := fun op h => hfits op (List.mem_of_mem_drop h)
  obtain ⟨-, hcourse⟩ := Operation.course_of_draft (hreach n) (hfits _ hmem) rfl hanswer hrest
  simp only [request.id_document d.id now, ← worldAfter_succ hop, ← worldAfter_add] at hcourse
  exact hcourse

/-- Every document of the archive was made at some place of the run. -/
theorem exists_made (hfits : ∀ op ∈ ops, op.Fits) (houter : ∀ op ∈ ops, op.IsOuter)
    {d : Document} (hload : Archive.load d.id (runAll hook.run ops (∅, s)).1 = .ok d) :
    ∃ n request now made, MadeAt hook ops s n request now made d := by
  obtain ⟨n, request, now, made, db, hanswered, hcreate, hcourse⟩ :=
    exists_course hfits houter hload
  obtain ⟨-, hvalid, hwarehouses, hproducts⟩ := Service.create_checked hcreate
  refine ⟨n, request, now, made, hanswered, hvalid, hwarehouses, hproducts, ?_⟩
  obtain ⟨-, d', -, hload', hkept⟩ := hcourse.kept ops.length
  rw [worldAfter_of_length_le (Nat.le_add_left _ _), hload] at hload'
  cases hload'
  exact hkept

/-- The warehouse was removed at a place of the run behind the one where the document was made. -/
def RemovedSince (hook : SaleHook σ) (ops : List Operation) (world : Database × σ) (d : Document)
    (w : WarehouseId) : Prop :=
  ∃ m n request now made, m < n ∧ d.SameContent made.stored ∧
    AnsweredAt hook ops world m (.service (.create d.id request now)) (.document made) ∧
    AnsweredAt hook ops world n (.catalog (.removeWarehouse w)) .done

/-- A warehouse of a document that is not in the catalog was removed since. -/
theorem exists_removed {n : Nat} {request : Service.DraftRequest} {now : Timestamp}
    {made d : Document} (h : MadeAt hook ops s n request now made d) {w : WarehouseId}
    (hw : w ∈ d.warehouses)
    (habsent : Catalog.warehouse? w (runAll hook.run ops (∅, s)).1 = .ok none) :
    RemovedSince hook.run ops (∅, s) d w := by
  have hmade : w ∈ made.warehouses := by
    unfold Document.warehouses at hw ⊢
    rw [h.kept.source, h.kept.destination] at hw
    exact hw
  have hgone := Table.record?_eq_ok habsent
  obtain ⟨k, op, hle, hop, hbefore, hafter⟩ := exists_turn hook.run ops (∅, s)
    (P := fun world => world.1.warehouses.contains w.bytes = true) (h.warehouses w hmade)
    (by rw [hgone]; nofun)
  obtain ⟨rfl, hanswer⟩ := Operation.removes hbefore hafter
  have hne : n ≠ k := by
    rintro rfl
    rw [h.answered.1] at hop
    cases hop
  exact ⟨n, k, request, now, made, Nat.lt_of_le_of_ne hle hne, h.kept, h.answered, hop, hanswer⟩

/-- The products of a document are in the catalog. -/
theorem MadeAt.product {n : Nat} {request : Service.DraftRequest} {now : Timestamp}
    {made d : Document} (h : MadeAt hook ops s n request now made d) {line : DocumentLine}
    (hline : line ∈ d.lines) :
    (runAll hook.run ops (∅, s)).1.products.contains line.product.bytes = true := by
  rw [h.kept.lines] at hline
  by_contra hgone
  obtain ⟨k, op, -, -, hbefore, hafter⟩ := exists_turn hook.run ops (∅, s)
    (P := fun world => world.1.products.contains line.product.bytes = true)
    (h.products line hline) hgone
  exact hafter (Operation.keeps_product hbefore)

end Run

/-! ## Posting drafts -/

/-- Where the catalog has short identifiers only, no posting meets one that fits no key. -/
theorem Posting.Ready.not_keyTooLong {db : Database} {id : DocumentId} {approver : String}
    {d : Document} (h : Ready id approver db d) (hdb : db.Integrity)
    (hshort : db.warehouses.Every fun key _ => key.length ≤ StockKey.maxWarehouseLength)
    (length : Nat) : Stock.applyBatch d.batch db ≠ .error (.store (.keyTooLong length)) := by
  intro hrefused
  obtain ⟨_, -, -, hd⟩ := hdb.isRow_of_load h.loaded
  by_cases hall : ∀ m ∈ d.batch.toList, Stock.Admissible (Stock.onHand db m.1) m
  · obtain ⟨levels, moved, happlied, -⟩ := Stock.applied_of_admissible hdb.quantities hall
    rw [happlied] at hrefused
    cases hrefused
  · have hroom := Document.hasRoom_batch hd.fits h.valid
    obtain ⟨m, hm, hfault⟩ := Stock.refused_of_not_admissible hdb.quantities hroom hall
    obtain ⟨-, hwarehouse⟩ := Document.key_of_mem_batch hm.mem
    obtain ⟨r, hr⟩ := h.warehouses _ hwarehouse
    obtain ⟨row, hrow⟩ := Table.contains_iff.mp (Table.record?_eq_ok hr)
    have hle : m.1.warehouse.bytes.length ≤ StockKey.maxWarehouseLength := hshort _ row hrow
    rw [hfault, Stock.fault, if_neg (Nat.not_lt.mpr hle)] at hrefused
    split at hrefused <;> cases hrefused

theorem Document.named_of_valid {d : Document} {approver : String}
    (h : d.postingViolations approver = []) : isBlank approver = false :=
  check_eq_nil (List.append_eq_nil_iff.mp h).2

/-- The ends of the posting of a draft that keeps the rules, where `gone` are the warehouses that
may be missing. The posting ends in the first way exactly if the approver is blank. -/
inductive DraftEnd (d : Document) (approver : String) (now : Timestamp)
    (gone : WarehouseId → Prop) : Except ServiceError Document → Prop
  /-- The approver is missing, and no other rule is broken. -/
  | missingApprover (blank : isBlank approver = true) :
    DraftEnd d approver now gone (.error (.posting (.invalidDocument [.missingApprover])))
  /-- A warehouse of the document is missing. -/
  | warehouseNotFound {w : WarehouseId} (named : isBlank approver = false)
    (asked : w ∈ d.warehouses) (missing : gone w) :
    DraftEnd d approver now gone (.error (.posting (.warehouseNotFound w)))
  /-- The stock does not suffice. -/
  | insufficient (shortfall : Shortfall) (named : isBlank approver = false) :
    DraftEnd d approver now gone (.error (.posting (.refused (.insufficient shortfall))))
  /-- A quantity would not fit 64 bits. -/
  | overflow (key : StockKey) (named : isBlank approver = false) :
    DraftEnd d approver now gone (.error (.posting (.refused (.overflow key))))
  /-- The document is posted. -/
  | posted (named : isBlank approver = false) :
    DraftEnd d approver now gone (.ok (d.settle (Posting.recordOf d approver now)))

/-- Four of the nine ends of a posting are not for a draft that keeps the rules and whose products
are known. -/
theorem draftEnd_of_ends {hook : SaleHook σ} {world : Database × σ} {d : Document}
    {approver : String} {now : Timestamp} {gone : WarehouseId → Prop}
    {result : Except PostingError Document × (Database × σ)}
    (h : Posting.Ends hook d.id approver now world result) (hdb : world.1.Integrity)
    (hshort : world.1.warehouses.Every fun key _ => key.length ≤ StockKey.maxWarehouseLength)
    (hload : Archive.load d.id world.1 = .ok d) (hdraft : d.status = .draft)
    (hvalid : d.violations = [])
    (hgone : ∀ w ∈ d.warehouses, Catalog.warehouse? w world.1 = .ok none → gone w)
    (hproducts : ∀ line ∈ d.lines, world.1.products.contains line.product.bytes = true) :
    DraftEnd d approver now gone (result.1.mapError .posting) := by
  have same {d' : Document} (h : Archive.load d.id world.1 = .ok d') : d' = d := by
    rw [hload] at h
    exact (Except.ok.inj h).symm
  cases h with
  | notFound missing =>
    obtain ⟨row, hrow, -⟩ := Archive.load_eq_ok hload
    rw [missing] at hrow
    cases hrow
  | alreadyPosted loaded settled =>
    cases same loaded
    exact absurd hdraft settled
  | invalid loaded draft broken =>
    cases same loaded
    have hrules : d.postingViolations approver =
        Violation.check (isBlank approver) .missingApprover := by
      rw [Document.postingViolations, hvalid, List.nil_append]
    cases hblank : isBlank approver with
    | false =>
      rw [hrules, hblank] at broken
      exact absurd rfl broken
    | true =>
      rw [hrules, hblank]
      exact .missingApprover hblank
  | @warehouseNotFound _ _ _ w loaded draft valid warehouses known absent =>
    cases same loaded
    have hw : w ∈ d.warehouses := by simp [warehouses]
    exact .warehouseNotFound (Document.named_of_valid valid) hw (hgone w hw absent)
  | @productNotFound _ _ _ line loaded draft valid warehouses lines known absent =>
    cases same loaded
    have hknown := hproducts line (by simp [lines])
    rw [Table.record?_eq_ok absent] at hknown
    cases hknown
  | keyTooLong ready refused =>
    cases same ready.loaded
    exact absurd refused (ready.not_keyTooLong hdb hshort _)
  | overflow ready refused =>
    cases same ready.loaded
    exact .overflow _ (Document.named_of_valid ready.valid)
  | insufficient ready refused =>
    cases same ready.loaded
    exact .insufficient _ (Document.named_of_valid ready.valid)
  | posted ready applied =>
    cases same ready.loaded
    exact .posted (Document.named_of_valid ready.valid)

/-- Whatever was asked of the catalog and the service, every document in the archive keeps the
rules, and the posting of a draft ends in one of five ways. A warehouse that it does not find was
removed after the draft was made. What is behind the posting is what its end says
(`Posting.Ends`). -/
theorem Service.draft_postable {hook : LedgerHook σ} {ops : List Operation}
    (hfits : ∀ op ∈ ops, op.Fits) (hfront : ∀ op ∈ ops, op.IsFront) (s : σ) :
    let db := (runAll hook.run ops (∅, s)).1
    (∀ key row, db.documents.get? key = some row →
      ∃ d : Document, decodeRow row = .ok d ∧ d.id.bytes = key ∧ d.validate = .ok ()) ∧
    ∀ id d, Archive.load id db = .ok d → d.status = .draft →
      ∀ approver, Cbor.TextFits approver → ∀ now : Timestamp, now.unixNanos?.isSome →
        ∀ recordedAt,
          DraftEnd d approver now (RemovedSince hook.run ops (∅, s) d)
              (Service.post id approver now db recordedAt).1 ∧
            ∃ result, Posting.Ends (Receivables.hook recordedAt) id approver now (db, ()) result ∧
              Service.post id approver now db recordedAt =
                (result.1.mapError .posting, result.2.1) := by
  intro db
  have hreach : Reachable hook frontOperation (runAll hook.run ops (∅, s)) :=
    .runAll hfits (fun op hop _ => hfront op hop) (.start s)
  have hdb : db.Integrity := hreach.integrity
  have houter : ∀ op ∈ ops, op.IsOuter := fun op hop => (hfront op hop).isOuter
  have valid {d : Document} (hload : Archive.load d.id db = .ok d) : d.violations = [] := by
    obtain ⟨_, _, _, made, hmade⟩ := exists_made hfits houter hload
    rw [hmade.kept.sameOrder.violations, Document.violations_stored, hmade.valid]
  constructor
  · intro key row hrow
    obtain ⟨d, rfl, hd⟩ := hdb.documents key row hrow
    have hvalid := valid (Archive.load_of_row hrow hd.decodeRow)
    exact ⟨d, hd.decodeRow, rfl, by simp [Document.validate, hvalid]⟩
  · intro id d hload hdraft approver happrover now hnow recordedAt
    obtain ⟨_, -, rfl, -⟩ := hdb.isRow_of_load hload
    obtain ⟨_, _, _, _, hmade⟩ := exists_made hfits houter hload
    have hends : Posting.Ends (Receivables.hook recordedAt) d.id approver now (db, ())
        (Posting.post (Receivables.hook recordedAt) d.id approver now (db, ())) :=
      Posting.ends_of_draft hdb hload hdraft happrover hnow
    refine ⟨?_, _, hends, rfl⟩
    exact draftEnd_of_ends hends hdb hreach.shortWarehouses hload hdraft (valid hload)
      (fun w hw habsent => exists_removed hmade hw habsent) fun line hline => hmade.product hline

/-- A draft is made for a warehouse, which is removed then. -/
def Service.removal : List Operation :=
  [.catalog (.addWarehouse ⟨"w"⟩ "l"), .catalog (.addProduct ⟨"p"⟩ "n" 1),
    .service (.create ⟨"d"⟩ ⟨.inbound ⟨"w"⟩, [⟨⟨"p"⟩, 5, some 1⟩], "a", none⟩ (.ofUnixNanos 0)),
    .catalog (.removeWarehouse ⟨"w"⟩)]

/-- The draft cannot be posted, because the warehouse was removed, and stays as it is. -/
theorem Service.draft_postable_removal :
    (∀ op ∈ removal, op.Fits) ∧ (∀ op ∈ removal, op.IsFront) ∧
      let db := (runAll SaleHook.none removal ((∅, ()) : Database × Unit)).1
      ∃ d, Archive.load ⟨"d"⟩ db = .ok d ∧ d.status = .draft ∧ d.validate = .ok () ∧
        Cbor.TextFits "b" ∧ (Timestamp.ofUnixNanos 1).unixNanos?.isSome ∧
        post ⟨"d"⟩ "b" (.ofUnixNanos 1) db (.ofUnixNanos 2) =
          (.error (.posting (.warehouseNotFound ⟨"w"⟩)), db) ∧
        RemovedSince SaleHook.none removal ((∅, ()) : Database × Unit) d ⟨"w"⟩ := by
  have hfits : ∀ op ∈ removal, op.Fits := by
    have hdraft : (DraftRequest.document ⟨.inbound ⟨"w"⟩, [⟨⟨"p"⟩, 5, some 1⟩], "a", none⟩ ⟨"d"⟩
        (.ofUnixNanos 0)).Fits := by decide
    simp only [removal, List.forall_mem_cons, Operation.Fits]
    exact ⟨⟨by decide, by decide⟩, ⟨by decide, by decide⟩, hdraft, trivial, by simp⟩
  have hfront : ∀ op ∈ removal, op.IsFront := by
    simp only [removal, List.forall_mem_cons, Operation.IsFront]
    exact ⟨by decide, trivial, trivial, trivial, by simp⟩
  obtain ⟨-, hends⟩ := @draft_postable Unit .silent removal hfits hfront ()
  have hload : Archive.load ⟨"d"⟩ (runAll SaleHook.none removal ((∅, ()) : Database × Unit)).1 =
      .ok (Stock.oneLine "d" .inbound none (some ⟨"w"⟩) 5) := by decide +kernel
  have hpost : post ⟨"d"⟩ "b" (.ofUnixNanos 1)
      (runAll LedgerHook.silent.run removal ((∅, ()) : Database × Unit)).1 (.ofUnixNanos 2) =
      (.error (.posting (.warehouseNotFound ⟨"w"⟩)),
        (runAll LedgerHook.silent.run removal ((∅, ()) : Database × Unit)).1) := by decide +kernel
  have happrover : Cbor.TextFits "b" := by decide
  have hnow : (Timestamp.ofUnixNanos 1).unixNanos?.isSome := by decide
  obtain ⟨hend, -⟩ := hends _ _ hload rfl "b" happrover _ hnow (.ofUnixNanos 2)
  refine ⟨hfits, hfront, _, hload, rfl, by decide, happrover, hnow, hpost, ?_⟩
  rw [hpost] at hend
  cases hend with
  | warehouseNotFound named asked missing => exact missing

end Depot
