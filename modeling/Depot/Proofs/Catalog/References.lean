import Depot.Proofs.Catalog.Lookup
import Depot.Proofs.Stock.Conservation
import Depot.Proofs.Stock.Occupancy
/-!
# Stock refers to entries of the catalog

A warehouse can be removed exactly if it is in the catalog and no row of stock belongs to it. So if
stock is moved by posting documents only, every row of stock is of a warehouse and a product that
are in the catalog (`stock_in_catalog`), however warehouses were made, emptied, removed and filled
again in between.

## How the proof goes

Neither side looks at what the other one writes. A removal reads the number of rows of the
warehouse and no row, and a posting reads the catalog and no number. They agree because the number
is exact (`Stock.Tallied`), and because a document moves no other warehouses and products than those
its posting has found in the catalog (`Document.key_of_mem_batch`). Drafts are not looked at: they
may name a warehouse that is gone, and then cannot be posted.

## The side condition

It is that of the exact number: no warehouse comes to have 2^64 rows (`Stock.fewRows`).
-/

namespace Depot

/-! ## Rows of a warehouse -/

namespace Stock

/-- No row of stock belongs to the warehouse. -/
def IsBare (db : Database) (w : WarehouseId) : Prop :=
  db.stock.Every fun key _ => belongsTo w key = false

theorem isBare_iff {db : Database} {w : WarehouseId} : IsBare db w ↔ rowCount db w = 0 := by
  unfold IsBare rowCount Table.countKeys
  rw [List.countP_eq_zero]
  constructor
  · intro h row hrow
    simp [h row.1 row.2 (SortedMap.mem_toList_iff.mp hrow)]
  · intro h key row hrow
    simpa using h (key, row) (SortedMap.mem_toList_iff.mpr hrow)

theorem belongsTo_iff {w : WarehouseId} {key : Bytes} :
    belongsTo w key = true ↔ ∃ p : ProductId, (StockKey.mk w p).bytes? = some key := by
  unfold belongsTo
  rw [beq_iff_eq, Option.map_eq_some_iff]
  constructor
  · rintro ⟨k, hk, rfl⟩
    exact ⟨k.product, StockKey.bytes?_of_ofBytes? hk⟩
  · rintro ⟨p, hp⟩
    exact ⟨_, StockKey.ofBytes?_bytes? hp, rfl⟩

/-- A warehouse has a row of stock if it has a quantity of some product. -/
theorem not_isBare_iff {db : Database} (hdb : db.HoldsQuantities) {w : WarehouseId} :
    ¬ IsBare db w ↔ ∃ p q, quantity ⟨w, p⟩ db = .ok q ∧ q ≠ 0 := by
  constructor
  · intro h
    unfold IsBare Table.Every at h
    push Not at h
    obtain ⟨key, row, hrow, hkey⟩ := h
    obtain ⟨p, hp⟩ := belongsTo_iff.mp (by simpa using hkey)
    refine ⟨p, onHand db ⟨w, p⟩, quantity_eq_onHand hdb.stock (short_of_bytes? hp), ?_⟩
    intro hzero
    rw [hdb.stock.get?, ← onHand_eq_held hp, if_pos hzero] at hrow
    cases hrow
  · rintro ⟨p, q, hq, hne⟩ hbare
    obtain ⟨key, hkey⟩ : ∃ key, (StockKey.mk w p).bytes? = some key := by
      cases hkey : (StockKey.mk w p).bytes? with
      | some key => exact ⟨key, rfl⟩
      | none => simp [quantity, rowOf, hkey, bind, Except.bind] at hq
    have hheld : db.stock.held key = q := by
      rw [← onHand_eq_held hkey, onHand, hq]
    have hrow : db.stock.get? key = some (Bytes.ofUInt64 q) := by
      rw [hdb.stock.get?, hheld, if_neg hne]
    have hbelongs := belongsTo_iff.mpr ⟨p, hkey⟩
    rw [hbare key _ hrow] at hbelongs
    cases hbelongs

end Stock

/-! ## Removing a warehouse -/

namespace Catalog

variable {db : Database} {w : WarehouseId}

theorem removeWarehouse_of_absent (h : db.warehouses.contains w.bytes = false) :
    removeWarehouse w db = .error (.warehouseNotFound w) :=
  bind_error (warehouse_of_absent (Table.record?_of_absent h))

/-- The occupancy of a registered warehouse decides. -/
theorem removeWarehouse_of_known (hdb : db.Integrity)
    (hknown : db.warehouses.contains w.bytes = true) :
    removeWarehouse w db =
      if db.occupancy.held w.bytes = 0 then
        .ok ((), { db with warehouses := db.warehouses.erase w.bytes })
      else .error (.warehouseNotEmpty w) := by
  obtain ⟨r, hr⟩ := hdb.known_warehouse hknown
  have hcount : (Stock.occupancy w db).mapError CatalogError.store =
      .ok (db.occupancy.held w.bytes) := by
    unfold Stock.occupancy
    rw [hdb.occupancy.quantity]
    rfl
  refine bind_ok (warehouse_of_known hr) (bind_ok hcount ?_)
  by_cases hzero : db.occupancy.held w.bytes = 0
  · simp only [hzero, ne_eq, not_true_eq_false, if_false, if_true]
    rfl
  · simp only [hzero, ne_eq, not_false_eq_true, if_true, if_false]
    rfl

theorem held_eq_zero_iff (htallied : Stock.Tallied db) :
    db.occupancy.held w.bytes = 0 ↔ Stock.rowCount db w = 0 := by
  rw [← htallied w, ← UInt64.toNat_inj]
  rfl

/-- How a removal ends where the occupancy is the number of rows. -/
theorem commit_removeWarehouse (hdb : db.Integrity) (htallied : Stock.Tallied db)
    (w : WarehouseId) :
    UnitOfWork.commit (removeWarehouse w) db =
      if db.warehouses.contains w.bytes = true then
        if Stock.rowCount db w = 0 then
          (.ok (), { db with warehouses := db.warehouses.erase w.bytes })
        else (.error (.warehouseNotEmpty w), db)
      else (.error (.warehouseNotFound w), db) := by
  unfold UnitOfWork.commit
  by_cases hknown : db.warehouses.contains w.bytes = true
  · rw [removeWarehouse_of_known hdb hknown, if_pos hknown]
    by_cases hheld : db.occupancy.held w.bytes = 0
    · rw [if_pos hheld, if_pos ((held_eq_zero_iff htallied).mp hheld)]
    · rw [if_neg hheld, if_neg fun hzero => hheld ((held_eq_zero_iff htallied).mpr hzero)]
  · rw [removeWarehouse_of_absent (Bool.eq_false_iff.mpr hknown), if_neg hknown]

end Catalog

/-! ## References -/

/-- Every row of stock is of a warehouse and a product that have rows in the catalog. -/
def Database.Referenced (db : Database) : Prop :=
  db.stock.Every fun key _ => ∃ k : StockKey, k.bytes? = some key ∧
    db.warehouses.contains k.warehouse.bytes = true ∧ db.products.contains k.product.bytes = true

namespace Stock

/-- Few rows, and stock moved by documents only. -/
def fewRowsByDocuments (db : Database) (op : Operation) : Prop := fewRows db op ∧ op.IsRegular

variable {db : Database}

/-- A document that is posted moves what its posting has found in the catalog. -/
theorem referenced_posted (h : db.Referenced) (hdb : db.Integrity) {id : DocumentId}
    {approver : String} {d : Document} (hready : Posting.Ready id approver db d)
    {levels : List StockLevel} {db' : Database}
    (happlied : applyBatch d.batch db = .ok (levels, db')) : db'.Referenced := by
  obtain ⟨hadm, rfl⟩ := applyBatch_inv hdb.quantities happlied
  unfold Database.Referenced
  rw [applied_frame d.batch db hdb.quantities]
  refine every_applied h hadm fun m hm key row hkey => ⟨m.1, hkey, ?_, ?_⟩
  · obtain ⟨-, hwarehouse⟩ := Document.key_of_mem_batch hm
    obtain ⟨r, hr⟩ := hready.warehouses _ hwarehouse
    exact Table.record?_eq_ok hr
  · obtain ⟨⟨line, hline, hproduct⟩, -⟩ := Document.key_of_mem_batch hm
    obtain ⟨r, hr⟩ := hready.products line hline
    rw [hproduct]
    exact Table.record?_eq_ok hr

/-- A warehouse without rows of stock can go. -/
theorem referenced_removed (h : db.Referenced) {w : WarehouseId} (hbare : IsBare db w) :
    Database.Referenced { db with warehouses := db.warehouses.erase w.bytes } := by
  intro key row hrow
  obtain ⟨k, hk, hwarehouse, hproduct⟩ := h key row hrow
  have hne : k.warehouse.bytes ≠ w.bytes := by
    intro heq
    have hbelongs := belongsTo_row hk w
    rw [hbare key row hrow, Ident.bytes_injective heq] at hbelongs
    simp at hbelongs
  exact ⟨k, hk, by simp [Table.contains_erase, hne, hwarehouse], hproduct⟩

theorem referenced_of_effect (h : db.Referenced) (hdb : db.Integrity) (htallied : Tallied db)
    {op : Operation} (hregular : op.IsRegular) {db' : Database} (heffect : Effect op db db') :
    db'.Referenced := by
  cases heffect with
  | none => exact h
  | moved asked applied =>
    rw [hregular.batch?_eq_none] at asked
    cases asked
  | posted asked ready applied encoded =>
    have hposted := referenced_posted h hdb ready applied
    exact hposted
  | product source =>
    intro key row hrow
    obtain ⟨k, hk, hwarehouse, hproduct⟩ := h key row hrow
    exact ⟨k, hk, hwarehouse, by simp [Table.contains_insert, hproduct]⟩
  | warehouse source =>
    intro key row hrow
    obtain ⟨k, hk, hwarehouse, hproduct⟩ := h key row hrow
    exact ⟨k, hk, by simp [Table.contains_insert, hwarehouse], hproduct⟩
  | removed asked known bare =>
    have hheld := (hdb.occupancy.quantity _).symm.trans bare
    have hzero := (Catalog.held_eq_zero_iff htallied).mp (Except.ok.inj hheld)
    exact referenced_removed h (isBare_iff.mpr hzero)
  | _ => exact h

variable {σ : Type} {hook : LedgerHook σ} {world : Database × σ}

theorem referenced_of_reachable (h : Reachable hook fewRowsByDocuments world) :
    world.1.Referenced := by
  refine h.induction (fun hcore ha => ?_) Table.every_empty ?_
  · unfold Database.Referenced
    rw [hcore.stock, hcore.warehouses, hcore.products]
    exact ha
  · intro op db' world' hreach _ hallowed href heffect
    have hfew : Reachable hook fewRows world' := hreach.mono fun _ _ => And.left
    exact referenced_of_effect href hreach.integrity (wellFormed_of_reachable hfew).tallied
      hallowed.2 heffect

/-- A warehouse is removed exactly if it is registered and no row of stock belongs to it. It is
refused as unknown if it is not registered, and as not empty if there is some product of which it
has a quantity. If stock is moved by documents only, every row of stock is of a warehouse and a
product that are registered. -/
theorem stock_in_catalog (h : Reachable hook fewRows world) :
    (∀ w : WarehouseId,
      let removal := UnitOfWork.commit (Catalog.removeWarehouse w) world.1
      (removal.1 = .ok () ↔ world.1.warehouses.contains w.bytes = true ∧ IsBare world.1 w) ∧
      (removal.1 = .ok () →
        removal.2 = { world.1 with warehouses := world.1.warehouses.erase w.bytes }) ∧
      (world.1.warehouses.contains w.bytes = false →
        removal = (.error (.warehouseNotFound w), world.1)) ∧
      (world.1.warehouses.contains w.bytes = true →
        (∃ p q, quantity ⟨w, p⟩ world.1 = .ok q ∧ q ≠ 0) →
        removal = (.error (.warehouseNotEmpty w), world.1))) ∧
    (Reachable hook fewRowsByDocuments world → ∀ key row, world.1.stock.get? key = some row →
      ∃ k : StockKey, StockKey.ofBytes? key = some k ∧
        world.1.warehouses.contains k.warehouse.bytes = true ∧
        world.1.products.contains k.product.bytes = true) := by
  have hdb := h.integrity
  constructor
  · intro w
    have hremoval := Catalog.commit_removeWarehouse hdb (wellFormed_of_reachable h).tallied w
    have hbare : IsBare world.1 w ↔ rowCount world.1 w = 0 := isBare_iff
    have hquantity := not_isBare_iff hdb.quantities (w := w)
    intro removal
    refine ⟨?_, ?_, ?_, ?_⟩
    · rw [hbare]
      by_cases hknown : world.1.warehouses.contains w.bytes = true <;>
        by_cases hrows : rowCount world.1 w = 0 <;> simp [removal, hremoval, hknown, hrows]
    · by_cases hknown : world.1.warehouses.contains w.bytes = true <;>
        by_cases hrows : rowCount world.1 w = 0 <;> simp [removal, hremoval, hknown, hrows]
    · intro habsent
      simp only [removal, hremoval, habsent, Bool.false_eq_true, if_false]
    · intro hknown hsome
      have hrows : ¬ rowCount world.1 w = 0 := hbare.not.mp (hquantity.mpr hsome)
      simp only [removal, hremoval, hknown, if_true, hrows, if_false]
  · intro hdocuments key row hrow
    obtain ⟨k, hk, hwarehouse, hproduct⟩ := referenced_of_reachable hdocuments key row hrow
    exact ⟨k, StockKey.ofBytes?_bytes? hk, hwarehouse, hproduct⟩

/-- An operation that brings no batch makes no row. -/
theorem fewRows_of_quiet {op : Operation} (hbatch : op.batch? = none)
    (hposts : op.approval? = none) (db : Database) : fewRows db op := by
  rintro batch levels db' (hasked | ⟨_, _, _, _, hasked, -⟩)
  · rw [hbatch] at hasked
    cases hasked
  · rw [hposts] at hasked
    cases hasked

/-- Five units are in a warehouse, which is therefore not removed. -/
theorem stock_in_catalog_history :
    ∃ world : Database × Unit, Reachable .silent fewRows world ∧
      Reachable .silent fewRowsByDocuments world ∧
      UnitOfWork.commit (Catalog.removeWarehouse ⟨"w"⟩) world.1 =
        (.error (.warehouseNotEmpty ⟨"w"⟩), world.1) ∧
      ∃ key row, world.1.stock.get? key = some row ∧ ∃ k : StockKey,
        StockKey.ofBytes? key = some k ∧
          world.1.warehouses.contains k.warehouse.bytes = true ∧
          world.1.products.contains k.product.bytes = true := by
  have hquiet : ∀ op ∈ history.take 5, ∀ db, fewRowsByDocuments db op := by
    have hasks : ∀ op ∈ history.take 5, op.batch? = none ∧ op.approval? = none := by decide
    have hregular : ∀ op ∈ history.take 5, op.IsRegular := by
      simp [history, Operation.IsRegular]
    intro op hop db
    exact ⟨fewRows_of_quiet (hasks op hop).1 (hasks op hop).2 db, hregular op hop⟩
  have hdrafts : Reachable (σ := Unit) .silent fewRowsByDocuments
      (runAll LedgerHook.silent.run (history.take 5) (∅, ())) :=
    .runAll (fun op hop => fits_history op (List.mem_of_mem_take hop)) hquiet (.start ())
  have hload : Archive.load ⟨"d"⟩ (runAll LedgerHook.silent.run (history.take 5) (∅, ())).1 =
      .ok (oneLine "d" .inbound none (some ⟨"w"⟩) 5) := by decide +kernel
  have hfew : fewRows (runAll LedgerHook.silent.run (history.take 5) (∅, ())).1
      (.posting (.post ⟨"d"⟩ "b" (.ofUnixNanos 1))) := by
    refine fewRows_of_size hdrafts.integrity.quantities ?_
    rintro batch (hasked | ⟨_, _, _, d, hasked, hready, rfl⟩) w
    · cases hasked
    · cases hasked
      have hd := hready.loaded
      rw [hload] at hd
      cases hd
      show 0 + 1 ≤ maxUInt64
      decide
  have hposted : Reachable (σ := Unit) .silent fewRowsByDocuments
      (runAll LedgerHook.silent.run (history.take 6) (∅, ())) :=
    hdrafts.step (fits_history _ (by simp [history])) ⟨hfew, trivial⟩
  have hrows : Reachable (σ := Unit) .silent fewRows
      (runAll LedgerHook.silent.run (history.take 6) (∅, ())) :=
    hposted.mono fun _ _ => And.left
  obtain ⟨hremoval, hreferences⟩ := stock_in_catalog hrows
  have hknown : (runAll LedgerHook.silent.run (history.take 6) (∅, ())).1.warehouses.contains
      (⟨"w"⟩ : WarehouseId).bytes = true := by decide +kernel
  have hfive : quantity ⟨⟨"w"⟩, ⟨"p"⟩⟩
      (runAll LedgerHook.silent.run (history.take 6) (∅, ())).1 = .ok 5 := by decide +kernel
  obtain ⟨key, hkey⟩ : ∃ key, (StockKey.mk ⟨"w"⟩ ⟨"p"⟩).bytes? = some key := ⟨_, rfl⟩
  have hrow : (runAll LedgerHook.silent.run (history.take 6) (∅, ())).1.stock.get? key =
      some (Bytes.ofUInt64 5) := by
    cases hkey
    decide +kernel
  exact ⟨_, hrows, hposted, (hremoval ⟨"w"⟩).2.2.2 hknown ⟨⟨"p"⟩, 5, hfive, by decide⟩, key, _,
    hrow, hreferences hposted key _ hrow⟩

end Stock

end Depot
