import Depot.Proofs.Catalog.Lookup
/-!
# Databases whose catalogs have the same entries

Two databases have the same references (`Database.SameReferences`) if they agree in everything but
the contents of the catalog: whoever looks an entry up finds one in both or in none, but its name,
price or location may be another one.

Every function of every layer ends alike in two such databases. It reports the same error, or
succeeds with the same answer and leaves two such databases behind (`Behind Eq`). The exceptions are
the functions that hand out an entry of the catalog: of these only the entries differ.

## How the proof goes

There is one lemma for each function, and it follows the steps of the function (`Alike.bind`). A
step that reads no entry reads tables that are equal. A step that looks an entry up either finds one
in both databases or reports the same error, and what follows does not use it.

An entry that is changed is written back with texts that were read, so it fits, and its row can be
decoded again.
-/

namespace Depot

/-! ## Tables of entries -/

/-- The tables have the same keys, and every row of either can be decoded. -/
structure Table.SameKeys (α : Type) [Stored α] (a b : Table) : Prop where
  keys : ∀ key, b.contains key = a.contains key
  left : a.Every fun _ row => ∃ x : α, decodeRow row = .ok x
  right : b.Every fun _ row => ∃ x : α, decodeRow row = .ok x

/-- Nothing was found in both tables, or a row that could be decoded in both. -/
inductive BothFound {α : Type} [Stored α] : Option α → Option α → Prop
  | none : BothFound none none
  | some {x y : α} {row row' : Bytes} (left : decodeRow row = .ok x)
    (right : decodeRow row' = .ok y) : BothFound (some x) (some y)

namespace Table.SameKeys

variable {α : Type} [Stored α] {a b c : Table}

theorem refl (h : a.Every fun _ row => ∃ x : α, decodeRow row = .ok x) : SameKeys α a a :=
  ⟨fun _ => rfl, h, h⟩

theorem symm (h : SameKeys α a b) : SameKeys α b a :=
  ⟨fun key => (h.keys key).symm, h.right, h.left⟩

theorem trans (h : SameKeys α a b) (h' : SameKeys α b c) : SameKeys α a c :=
  ⟨fun key => (h'.keys key).trans (h.keys key), h.left, h'.right⟩

theorem insert (h : SameKeys α a b) (key : Bytes) {row row' : Bytes} {x y : α}
    (hx : decodeRow row = .ok x) (hy : decodeRow row' = .ok y) :
    SameKeys α (a.insert key row) (b.insert key row') where
  keys key' := by rw [contains_insert, contains_insert, h.keys]
  left := h.left.insert ⟨x, hx⟩
  right := h.right.insert ⟨y, hy⟩

theorem erase (h : SameKeys α a b) (key : Bytes) : SameKeys α (a.erase key) (b.erase key) where
  keys key' := by rw [contains_erase, contains_erase, h.keys]
  left := h.left.erase key
  right := h.right.erase key

/-- A row that is written over another one makes no key. -/
theorem overwrite (h : SameKeys α a a) {key row : Bytes} (hkey : a.contains key = true) {x : α}
    (hx : decodeRow row = .ok x) : SameKeys α a (a.insert key row) where
  keys key' := by
    rw [contains_insert]
    by_cases heq : key' = key <;> simp [heq, hkey]
  left := h.left
  right := h.left.insert ⟨x, hx⟩

theorem record? (h : SameKeys α a b) (key : Bytes) :
    Alike BothFound (a.record? key : Except StoreError (Option α)) (b.record? key) := by
  cases ha : a.get? key with
  | none =>
    have habsent : a.contains key = false := contains_eq_false_iff.mpr ha
    rw [record?_of_absent habsent, record?_of_absent ((h.keys key).trans habsent)]
    exact .ok .none
  | some row =>
    obtain ⟨row', hb⟩ := contains_iff.mp ((h.keys key).trans (contains_of_get? ha))
    obtain ⟨x, hx⟩ := h.left key row ha
    obtain ⟨y, hy⟩ := h.right key row' hb
    rw [record?_of_row ha hx, record?_of_row hb hy]
    exact .ok (.some hx hy)

/-- Tables with the same keys have equally many rows. -/
theorem length_eq (h : SameKeys α a b) : b.toList.length = a.toList.length := by
  have hperm : (b.toList.map Prod.fst).Perm (a.toList.map Prod.fst) := by
    refine (List.perm_ext_iff_of_nodup b.nodup_keys a.nodup_keys).mpr fun key => ?_
    have hmem (t : Table) : key ∈ t.toList.map Prod.fst ↔ t.contains key = true := by
      simp [contains_iff, SortedMap.mem_toList_iff]
    rw [hmem, hmem, h.keys]
  simpa using hperm.length_eq

theorem exists_records {t : Table} (h : t.Every fun _ row => ∃ x : α, decodeRow row = .ok x) :
    ∃ xs : List α, t.records = .ok xs ∧ xs.length = t.toList.length := by
  obtain ⟨xs, hxs⟩ := exists_mapM_eq_ok (l := t.toList)
    (f := fun row => (decodeRow row.2 : Except StoreError α)) fun row hrow =>
      h row.1 row.2 (SortedMap.mem_toList_iff.mp hrow)
  have hunits : xs.map (fun _ => ()) = t.toList.map fun _ => () :=
    map_of_mapM_eq_ok hxs fun _ _ _ _ => rfl
  exact ⟨xs, hxs, by simpa using congrArg List.length hunits⟩

theorem records (h : SameKeys α a b) :
    Alike (fun xs ys : List α => xs.length = ys.length) a.records b.records := by
  obtain ⟨xs, hxs, hlength⟩ := exists_records h.left
  obtain ⟨ys, hys, hlength'⟩ := exists_records h.right
  rw [hxs, hys]
  exact .ok (by rw [hlength, hlength', h.length_eq])

end Table.SameKeys

/-! ## Databases -/

/-- The databases agree but for the contents of the catalog. -/
structure Database.SameReferences (a b : Database) : Prop where
  documents : b.documents = a.documents
  stock : b.stock = a.stock
  occupancy : b.occupancy = a.occupancy
  receivables : b.receivables = a.receivables
  purchases : b.purchases = a.purchases
  warehouses : Table.SameKeys Warehouse a.warehouses b.warehouses
  products : Table.SameKeys Product a.products b.products

/-- The results are related, and the databases behind them have the same references. -/
def Behind {α β : Type} (R : α → β → Prop) (x : α × Database) (y : β × Database) : Prop :=
  R x.1 y.1 ∧ x.2.SameReferences y.2

namespace Database.SameReferences

variable {a b c : Database}

theorem symm (h : SameReferences a b) : SameReferences b a where
  documents := h.documents.symm
  stock := h.stock.symm
  occupancy := h.occupancy.symm
  receivables := h.receivables.symm
  purchases := h.purchases.symm
  warehouses := h.warehouses.symm
  products := h.products.symm

theorem trans (h : SameReferences a b) (h' : SameReferences b c) : SameReferences a c where
  documents := h'.documents.trans h.documents
  stock := h'.stock.trans h.stock
  occupancy := h'.occupancy.trans h.occupancy
  receivables := h'.receivables.trans h.receivables
  purchases := h'.purchases.trans h.purchases
  warehouses := h.warehouses.trans h'.warehouses
  products := h.products.trans h'.products

/-- A database with these references has its own. -/
theorem refl_left (h : SameReferences a b) : SameReferences a a := h.trans h.symm

/-- The catalog of a database that operations have led to can be decoded. -/
theorem of_integrity (h : a.Integrity) : SameReferences a a where
  documents := rfl
  stock := rfl
  occupancy := rfl
  receivables := rfl
  purchases := rfl
  warehouses := .refl fun key row hrow => by
    obtain ⟨w, -, hfits, rfl⟩ := h.warehouses key row hrow
    exact ⟨w, Warehouse.decodeRow_bytes hfits⟩
  products := .refl fun key row hrow => by
    obtain ⟨p, -, hfits, rfl⟩ := h.products key row hrow
    exact ⟨p, Product.decodeRow_bytes hfits⟩

/-! ### Stock -/

variable (h : SameReferences a b)

include h

theorem quantity (key : StockKey) : Stock.quantity key b = Stock.quantity key a := by
  unfold Stock.quantity
  rw [h.stock]

theorem levels (w : WarehouseId) : Stock.warehouseLevels w b = Stock.warehouseLevels w a := by
  unfold Stock.warehouseLevels
  rw [h.stock]

theorem total (p : ProductId) : Stock.productTotal p b = Stock.productTotal p a := by
  unfold Stock.productTotal
  rw [h.stock]

theorem write (change : Stock.Change) :
    Alike SameReferences (change.write a) (change.write b) := by
  unfold Stock.Change.write
  rw [h.stock, h.occupancy]
  dsimp only
  split
  · refine (alike_of_eq rfl).bind fun count _ hcount => ?_
    subst hcount
    exact .ok { h with stock := rfl, occupancy := rfl }
  · exact .ok { h with stock := rfl, occupancy := rfl }

theorem applyBatch (batch : Batch) :
    Alike (Behind Eq) (Stock.applyBatch batch a) (Stock.applyBatch batch b) := by
  unfold Stock.applyBatch
  rw [h.stock]
  refine (alike_of_eq rfl).bind fun changes _ hchanges => ?_
  subst hchanges
  have hwritten := alike_foldlM (l := changes) (fun x y hxy change _ => write hxy change) h
  exact (hwritten.mapError _).bind fun _ _ hdb => .ok ⟨rfl, hdb⟩

theorem applyDelta (key : StockKey) (delta : Int) :
    Alike (Behind Eq) (Stock.applyDelta key delta a) (Stock.applyDelta key delta b) := by
  refine (h.applyBatch _).bind fun x y hxy => ?_
  obtain ⟨levels, db⟩ := x
  obtain ⟨levels', db'⟩ := y
  obtain ⟨rfl, hdb⟩ := hxy
  exact .ok ⟨rfl, hdb⟩

/-! ### The catalog -/

theorem product? (id : ProductId) :
    Alike BothFound (Catalog.product? id a) (Catalog.product? id b) :=
  h.products.record? id.bytes

theorem warehouse? (id : WarehouseId) :
    Alike BothFound (Catalog.warehouse? id a) (Catalog.warehouse? id b) :=
  h.warehouses.record? id.bytes

theorem product (id : ProductId) :
    Alike (fun p q => p.Fits ∧ q.Fits) (Catalog.product id a) (Catalog.product id b) := by
  refine ((h.product? id).mapError _).bind fun p q hpq => ?_
  cases hpq with
  | none => exact .error _
  | some hp hq => exact .ok ⟨Product.fits_of_decodeRow hp, Product.fits_of_decodeRow hq⟩

theorem warehouse (id : WarehouseId) :
    Alike (fun v w => v.Fits ∧ w.Fits) (Catalog.warehouse id a) (Catalog.warehouse id b) := by
  refine ((h.warehouse? id).mapError _).bind fun v w hvw => ?_
  cases hvw with
  | none => exact .error _
  | some hv hw => exact .ok ⟨Warehouse.fits_of_decodeRow hv, Warehouse.fits_of_decodeRow hw⟩

theorem warehousesListed :
    Alike (fun vs ws => vs.length = ws.length) (Catalog.warehouses a) (Catalog.warehouses b) :=
  h.warehouses.records.mapError _

theorem putProduct (id : ProductId) {R : Product → Product → Prop} {p q : Product} (hpq : R p q)
    (hp : p.Fits) (hq : q.Fits) :
    Alike (Behind R) (Catalog.putProduct id p a) (Catalog.putProduct id q b) := by
  have hproducts := h.products.insert id.bytes (Product.decodeRow_bytes hp)
    (Product.decodeRow_bytes hq)
  exact .ok ⟨hpq, { h with products := hproducts }⟩

theorem putWarehouse (id : WarehouseId) {R : Warehouse → Warehouse → Prop} {v w : Warehouse}
    (hvw : R v w) (hv : v.Fits) (hw : w.Fits) :
    Alike (Behind R) (Catalog.putWarehouse id v a) (Catalog.putWarehouse id w b) := by
  have hwarehouses := h.warehouses.insert id.bytes (Warehouse.decodeRow_bytes hv)
    (Warehouse.decodeRow_bytes hw)
  exact .ok ⟨hvw, { h with warehouses := hwarehouses }⟩

theorem addProduct {id : ProductId} {name : String} (unitPrice : UInt64)
    (hid : Cbor.TextFits id.text) (hname : Cbor.TextFits name) :
    Alike (Behind Eq) (Catalog.addProduct id name unitPrice a)
      (Catalog.addProduct id name unitPrice b) := by
  refine (alike_of_eq rfl).bind fun _ _ _ => ?_
  exact h.putProduct id rfl ⟨hid, hname⟩ ⟨hid, hname⟩

theorem addWarehouse {id : WarehouseId} {location : String} (hid : Cbor.TextFits id.text)
    (hlocation : Cbor.TextFits location) :
    Alike (Behind Eq) (Catalog.addWarehouse id location a)
      (Catalog.addWarehouse id location b) := by
  refine (alike_of_eq rfl).bind fun _ _ _ => ?_
  exact h.putWarehouse id rfl ⟨hid, hlocation⟩ ⟨hid, hlocation⟩

theorem updateProduct (id : ProductId) {name : Option String} (unitPrice : Option UInt64)
    (hname : ∀ text ∈ name, Cbor.TextFits text) :
    Alike (Behind fun _ _ => True) (Catalog.updateProduct id name unitPrice a)
      (Catalog.updateProduct id name unitPrice b) := by
  have renamed {p : Product} (hp : p.Fits) : Cbor.TextFits (name.getD p.name) := by
    cases name with
    | none => exact hp.2
    | some text => exact hname text rfl
  refine (alike_of_eq rfl).bind fun _ _ _ => ?_
  refine (h.product id).bind fun p q hpq => ?_
  exact h.putProduct id trivial ⟨hpq.1.1, renamed hpq.1⟩ ⟨hpq.2.1, renamed hpq.2⟩

theorem relabelWarehouse (id : WarehouseId) {location : String}
    (hlocation : Cbor.TextFits location) :
    Alike (Behind fun _ _ => True) (Catalog.relabelWarehouse id location a)
      (Catalog.relabelWarehouse id location b) := by
  refine (alike_of_eq rfl).bind fun _ _ _ => ?_
  refine (h.warehouse id).bind fun v w hvw => ?_
  exact h.putWarehouse id trivial ⟨hvw.1.1, hlocation⟩ ⟨hvw.2.1, hlocation⟩

/-- A product that is changed keeps its references. -/
theorem updateProduct_self {id : ProductId} {name : Option String} {unitPrice : Option UInt64}
    (hname : ∀ text ∈ name, Cbor.TextFits text) {p : Product} {a' : Database}
    (hwork : Catalog.updateProduct id name unitPrice a = .ok (p, a')) : SameReferences a a' := by
  obtain ⟨q, hq, rfl, rfl⟩ := Catalog.updateProduct_eq_ok hwork
  have hproducts := h.refl_left.products
  have hread := hproducts.record? id.bytes
  rw [show a.products.record? id.bytes = _ from hq] at hread
  cases hread with
  | ok hfound =>
    cases hfound with
    | some hrow _ =>
      obtain ⟨hid, holdName⟩ := Product.fits_of_decodeRow hrow
      have hfits : Cbor.TextFits (name.getD q.name) := by
        cases name with
        | none => exact holdName
        | some text => exact hname text rfl
      exact { h.refl_left with
        products := hproducts.overwrite (Table.record?_eq_ok hq)
          (Product.decodeRow_bytes ⟨hid, hfits⟩) }

/-- A warehouse that is relabelled keeps its references. -/
theorem relabelWarehouse_self {id : WarehouseId} {location : String}
    (hlocation : Cbor.TextFits location) {w : Warehouse} {a' : Database}
    (hwork : Catalog.relabelWarehouse id location a = .ok (w, a')) : SameReferences a a' := by
  obtain ⟨v, hv, rfl, rfl⟩ := Catalog.relabelWarehouse_eq_ok hwork
  have hwarehouses := h.refl_left.warehouses
  have hread := hwarehouses.record? id.bytes
  rw [show a.warehouses.record? id.bytes = _ from hv] at hread
  cases hread with
  | ok hfound =>
    cases hfound with
    | some hrow _ =>
      exact { h.refl_left with
        warehouses := hwarehouses.overwrite (Table.record?_eq_ok hv)
          (Warehouse.decodeRow_bytes ⟨(Warehouse.fits_of_decodeRow hrow).1, hlocation⟩) }

theorem removeWarehouse (id : WarehouseId) :
    Alike (Behind Eq) (Catalog.removeWarehouse id a) (Catalog.removeWarehouse id b) := by
  refine (h.warehouse id).bind fun _ _ _ => ?_
  unfold Stock.occupancy
  rw [h.occupancy]
  refine (alike_of_eq rfl).bind fun count _ hcount => ?_
  subst hcount
  by_cases hzero : count = 0
  · simp only [hzero, ne_eq, not_true_eq_false, if_false]
    exact .ok ⟨rfl, { h with occupancy := rfl, warehouses := h.warehouses.erase id.bytes }⟩
  · simp only [hzero, ne_eq, not_false_eq_true, if_true]
    exact .error _

/-! ### The archive -/

theorem load (id : DocumentId) : Archive.load id b = Archive.load id a :=
  Archive.load_congr h.documents id

theorem list : Archive.list b = Archive.list a := by
  unfold Archive.list
  rw [h.documents]

theorem listByStatus (status : DocumentStatus) :
    Archive.listByStatus status b = Archive.listByStatus status a := by
  unfold Archive.listByStatus
  rw [h.list]

theorem put (id : DocumentId) (d : Document) :
    Alike (Behind Eq) (Archive.put id d a) (Archive.put id d b) := by
  refine (alike_of_eq rfl).bind fun row _ hrow => ?_
  subst hrow
  exact .ok ⟨rfl, { h with documents := by rw [h.documents] }⟩

theorem insert (d : Document) : Alike (Behind Eq) (Archive.insert d a) (Archive.insert d b) := by
  unfold Archive.insert
  by_cases hdraft : d.status = .draft
  · simp only [hdraft, ne_eq, not_true_eq_false, if_false]
    refine (alike_of_eq rfl).bind fun row _ hrow => ?_
    subst hrow
    rw [h.documents]
    by_cases htaken : a.documents.contains d.id.bytes = true
    · simp only [htaken, if_true]
      exact .error _
    · simp only [htaken]
      exact .ok ⟨rfl, { h with documents := rfl }⟩
  · simp only [hdraft, ne_eq, not_false_eq_true, if_true]
    exact .error _

theorem transition (id : DocumentId) (source target : DocumentStatus) (s : Settlement) :
    Alike (Behind Eq) (Archive.transition id source target s a)
      (Archive.transition id source target s b) := by
  unfold Archive.transition
  by_cases hlegal : (source.isTerminal || target != s.target) = true
  · simp only [hlegal, if_true]
    exact .error _
  · simp only [hlegal]
    rw [h.load]
    refine (alike_of_eq rfl).bind fun d _ hd => ?_
    subst hd
    by_cases hsource : d.status = source
    · simp only [hsource, ne_eq, not_true_eq_false, if_false]
      exact h.put id _
    · simp only [hsource, ne_eq, not_false_eq_true, if_true]
      exact .error _

/-! ### Posting and voiding -/

theorem loadDraft (id : DocumentId) : Posting.loadDraft id b = Posting.loadDraft id a := by
  unfold Posting.loadDraft
  rw [h.load]

theorem checkWarehouse (w : WarehouseId) :
    Alike Eq (Posting.checkWarehouse a w) (Posting.checkWarehouse b w) := by
  refine ((h.warehouse? w).mapError _).bind fun v v' hv => ?_
  cases hv with
  | none => exact .error _
  | some => exact .ok rfl

theorem checkProduct (line : DocumentLine) :
    Alike Eq (Posting.checkProduct a line) (Posting.checkProduct b line) := by
  refine ((h.product? line.product).mapError _).bind fun p p' hp => ?_
  cases hp with
  | none => exact .error _
  | some => exact .ok rfl

theorem attempt (id : DocumentId) (approver : String) (now : Timestamp) :
    Alike (Behind Eq) (Posting.attempt id approver now a) (Posting.attempt id approver now b) := by
  unfold Posting.attempt
  rw [h.loadDraft]
  refine (alike_of_eq rfl).bind fun d _ hd => ?_
  subst hd
  refine (alike_of_eq rfl).bind fun _ _ _ => ?_
  refine (alike_forM fun w _ => h.checkWarehouse w).bind fun _ _ _ => ?_
  refine (alike_forM fun line _ => h.checkProduct line).bind fun _ _ _ => ?_
  have hbatch := h.applyBatch d.batch
  generalize Stock.applyBatch d.batch a = x at hbatch
  generalize Stock.applyBatch d.batch b = y at hbatch
  cases hbatch with
  | @ok moved moved' hmoved =>
    obtain ⟨levels, db⟩ := moved
    obtain ⟨levels', db'⟩ := moved'
    refine ((transition hmoved.2 id _ _ _).mapError _).bind fun x y hxy => ?_
    obtain ⟨posted, db₁⟩ := x
    obtain ⟨posted', db₂⟩ := y
    obtain ⟨rfl, hdb⟩ := hxy
    exact .ok ⟨rfl, hdb⟩
  | error e =>
    cases e with
    | store => exact .error _
    | refused refusal =>
      cases refusal with
      | insufficient shortfall =>
        refine ((h.transition id _ _ _).mapError _).bind fun x y hxy => ?_
        exact .ok ⟨rfl, hxy.2⟩
      | _ => exact .error _

theorem void (id : DocumentId) (voidedBy : String) (reason : Option String) (now : Timestamp) :
    Alike (Behind Eq) (Posting.void id voidedBy reason now a)
      (Posting.void id voidedBy reason now b) := by
  unfold Posting.void
  rw [h.loadDraft]
  refine (alike_of_eq rfl).bind fun _ _ _ => ?_
  exact (h.transition id _ _ _).mapError _

/-! ### Receivables -/

theorem balance (customer : CustomerId) :
    Receivables.balance customer b = Receivables.balance customer a := by
  unfold Receivables.balance
  rw [h.receivables]

theorem purchasesOf (customer : CustomerId) :
    Receivables.purchases customer b = Receivables.purchases customer a := by
  unfold Receivables.purchases
  rw [h.purchases]

theorem record (customer : CustomerId) (document : DocumentId) (totalValue : UInt64)
    (now : Timestamp) :
    Alike (Behind Eq) (Receivables.record customer document totalValue now a)
      (Receivables.record customer document totalValue now b) := by
  refine (alike_of_eq rfl).bind fun row _ hrow => ?_
  subst hrow
  dsimp only
  rw [h.balance, h.purchases, h.receivables]
  split
  · exact .ok ⟨rfl, h⟩
  · refine (alike_of_eq rfl).bind fun owed _ howed => ?_
    subst howed
    exact .ok ⟨rfl, { h with receivables := rfl, purchases := rfl }⟩

theorem onSalePosted (d : Document) (now : Timestamp) :
    Alike (Behind Eq) (Receivables.onSalePosted d now a) (Receivables.onSalePosted d now b) := by
  unfold Receivables.onSalePosted
  cases d.kind with
  | sale =>
    cases d.customer with
    | none => exact .ok ⟨rfl, h⟩
    | some customer =>
      refine (h.record customer d.id d.totalValue now).bind fun x y hxy => ?_
      exact .ok ⟨rfl, hxy.2⟩
  | _ => exact .ok ⟨rfl, h⟩

end Database.SameReferences

/-! ## Hooks -/

/-- The hook does not look at what the entries of the catalog say. -/
def SaleHook.Blind {σ : Type} (hook : SaleHook σ) : Prop :=
  ∀ (d : Document) (a b : Database) (s : σ), a.SameReferences b →
    (hook d (a, s)).2.1.SameReferences (hook d (b, s)).2.1 ∧
      (hook d (a, s)).2.2 = (hook d (b, s)).2.2

theorem SaleHook.blind_none {σ : Type} : (SaleHook.none : SaleHook σ).Blind :=
  fun _ _ _ _ h => ⟨h, rfl⟩

/-- Units of work that end alike leave databases with the same references. -/
theorem Alike.commit {ε α β : Type} {R : α → β → Prop} {work : UnitOfWork ε α}
    {work' : UnitOfWork ε β} {a b : Database} (hab : a.SameReferences b)
    (h : Alike (Behind R) (work a) (work' b)) :
    Alike R (UnitOfWork.commit work a).1 (UnitOfWork.commit work' b).1 ∧
      (UnitOfWork.commit work a).2.SameReferences (UnitOfWork.commit work' b).2 := by
  unfold UnitOfWork.commit
  generalize work a = x at h
  generalize work' b = y at h
  cases h with
  | error e => exact ⟨.error e, hab⟩
  | ok h => exact ⟨.ok h.1, h.2⟩

theorem Receivables.blind_hook {σ : Type} (now : Timestamp) :
    (Receivables.hook now : SaleHook σ).Blind := by
  intro d a b s h
  exact ⟨((h.onSalePosted d now).commit h).2, rfl⟩

/-- A posting with such a hook ends alike. -/
theorem Database.SameReferences.post {σ : Type} {hook : SaleHook σ} (hblind : hook.Blind)
    {a b : Database} (h : a.SameReferences b) (id : DocumentId) (approver : String)
    (now : Timestamp) (s : σ) :
    let x := Posting.post hook id approver now (a, s)
    let y := Posting.post hook id approver now (b, s)
    x.1 = y.1 ∧ x.2.1.SameReferences y.2.1 ∧ x.2.2 = y.2.2 :=
  Posting.post_alike (Q := fun x y => x.1.SameReferences y.1 ∧ x.2 = y.2)
    (h.attempt id approver now) ⟨h, rfl⟩ (fun _ _ hdb => ⟨hdb, rfl⟩)
    fun d db db' hdb => hblind d db db' s hdb

/-! ## The service -/

/-- A product of which nothing is said. -/
def Product.blank : Product := ⟨⟨""⟩, "", 0⟩

/-- A warehouse of which nothing is said. -/
def Warehouse.blank : Warehouse := ⟨⟨""⟩, ""⟩

/-- The details without what the entries of the catalog say: which of them were found is left. -/
def Service.Details.redacted (x : Service.Details) : Service.Details :=
  { x with
    source := x.source.map fun _ => .blank
    destination := x.destination.map fun _ => .blank
    products := x.products.map fun p => p.map fun _ => .blank }

theorem BothFound.map_eq {α β : Type} [Stored α] {x y : Option α} (h : BothFound x y) (z : β) :
    x.map (fun _ => z) = y.map fun _ => z := by
  cases h <;> rfl

namespace Database.SameReferences

variable {a b : Database} (h : SameReferences a b)

include h

theorem checkAvailable (d : Document) :
    Service.checkAvailable d b = Service.checkAvailable d a := by
  unfold Service.checkAvailable
  simp only [h.quantity]

theorem keep (d : Document) : Alike (Behind Eq) (Service.keep d a) (Service.keep d b) := by
  refine (alike_of_eq rfl).bind fun _ _ _ => ?_
  refine Alike.bind (alike_forM fun w _ => ?_) fun _ _ _ => ?_
  · exact ((h.warehouse w).mapError _).bind fun _ _ _ => .ok rfl
  refine Alike.bind (alike_forM fun line _ => ?_) fun _ _ _ => ?_
  · exact ((h.product line.product).mapError _).bind fun _ _ _ => .ok rfl
  exact ((h.insert d).mapError _).bind fun _ _ hxy => .ok ⟨rfl, hxy.2⟩

theorem create (id : DocumentId) (r : Service.DraftRequest) (now : Timestamp) :
    Alike (Behind Eq) (Service.create id r now a) (Service.create id r now b) := by
  unfold Service.create
  dsimp only
  rw [h.checkAvailable]
  by_cases htransfer : (r.document id now).kind = .transfer
  · simp only [htransfer, if_true]
    refine (alike_of_eq rfl).bind fun _ _ _ => ?_
    exact (alike_of_eq rfl).bind fun _ _ _ => h.keep _
  · simp only [htransfer, if_false]
    exact h.keep _

theorem document (id : DocumentId) : Service.document id b = Service.document id a := by
  unfold Service.document
  rw [h.load]

theorem lookUpWarehouse (w : Option WarehouseId) :
    Alike BothFound (Service.lookUpWarehouse w a) (Service.lookUpWarehouse w b) := by
  cases w with
  | none => exact .ok .none
  | some w => exact (h.warehouse? w).mapError _

theorem details (id : DocumentId) :
    Alike (fun x y => x.redacted = y.redacted) (Service.details id a) (Service.details id b) := by
  unfold Service.details
  rw [h.document]
  refine (alike_of_eq rfl).bind fun d _ hd => ?_
  subst hd
  refine (h.lookUpWarehouse d.source).bind fun source source' hsource => ?_
  refine (h.lookUpWarehouse d.destination).bind fun destination destination' hdestination => ?_
  refine Alike.bind (alike_mapM (fun p : Option Product => p.map fun _ => Product.blank)
    fun line _ => ?_) fun products products' hproducts => ?_
  · exact ((h.product? line.product).mapError _).mono fun _ _ hpq => hpq.map_eq _
  refine .ok ?_
  simp only [Service.Details.redacted, hsource.map_eq Warehouse.blank,
    hdestination.map_eq Warehouse.blank, hproducts]

theorem warehouseStock (w : WarehouseId) :
    Service.warehouseStock w b = Service.warehouseStock w a := by
  unfold Service.warehouseStock
  rw [h.levels]
  exact (((h.warehouse w).mapError _).bind fun _ _ _ => alike_of_eq rfl).eq.symm

end Database.SameReferences

end Depot
