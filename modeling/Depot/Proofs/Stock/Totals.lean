import Mathlib.Algebra.BigOperators.Finprod
import Depot.Proofs.Stock.Conservation
import Depot.Proofs.Stock.Rows
/-!
# Totals of products

The total of a product that the system reports is the exact sum of its quantities over all
warehouses, stopped at the largest 64-bit number, and posting documents is the only way to change
the sum but for batches applied past the documents: an import adds its lines, an export and a sale
take them away, a transfer moves them (`productTotal_conserved`).

## How the proof goes

The report adds up rows, the sum is over warehouses. The rows are the levels of the keys whose
quantity is not zero, each once (`Listed`), so both are sums over the levels of the product
(`total_eq_sum`).

A batch moves every key by its net movement. So the sum moves by the sum of the net movements,
wherever stock was before, and for a document that is the quantity of its lines times the sum of
its directions over all warehouses: one side counts once, and the two sides of a transfer cancel
(`finsum_direction`).
-/

namespace Depot

/-- What a document adds to all warehouses together. -/
def Document.inflow (d : Document) (p : ProductId) : Int :=
  match d.kind with
  | .inbound => d.quantityOf p
  | .outbound | .sale => -d.quantityOf p
  | .transfer => 0

namespace Stock

/-- What is on hand of a product in all warehouses whose identifier fits a key. -/
noncomputable def total (db : Database) (p : ProductId) : Int :=
  ∑ᶠ w ∈ {w : WarehouseId | w.bytes.length ≤ StockKey.maxWarehouseLength},
    ((onHand db ⟨w, p⟩).toNat : Int)

/-! ## The sum over warehouses -/

section Sum

variable {db : Database} {levels : List StockLevel} {p : ProductId}

theorem onHand_of_long {key : StockKey}
    (h : StockKey.maxWarehouseLength < key.warehouse.bytes.length) : onHand db key = 0 := by
  simp [onHand, quantity_eq_error h]

/-- Warehouses whose identifier fits no key hold nothing. -/
theorem total_eq_finsum (db : Database) (p : ProductId) :
    total db p = ∑ᶠ w : WarehouseId, ((onHand db ⟨w, p⟩).toNat : Int) := by
  refine finsum_congr fun w => ?_
  by_cases hw : w.bytes.length ≤ StockKey.maxWarehouseLength
  · simp [hw]
  · have hzero : onHand db ⟨w, p⟩ = 0 := onHand_of_long (Nat.lt_of_not_le hw)
    simp [hw, hzero]

/-- The levels of a product. -/
def ofProduct (p : ProductId) (levels : List StockLevel) : List StockLevel :=
  levels.filter fun l => l.key.product = p

theorem mem_ofProduct {l : StockLevel} :
    l ∈ ofProduct p levels ↔ l ∈ levels ∧ l.key.product = p := by
  simp [ofProduct]

theorem Listed.warehouses_nodup (h : Listed db levels) (p : ProductId) :
    ((ofProduct p levels).map fun l => l.key.warehouse).Nodup := by
  have hlevels : (ofProduct p levels).Nodup := h.nodup.of_map.filter _
  refine hlevels.map_on fun a ha b hb hw => ?_
  rw [mem_ofProduct] at ha hb
  have hkey : a.key = b.key := by
    have hp := ha.2.trans hb.2.symm
    cases hka : a.key
    cases hkb : b.key
    simp_all
  exact List.inj_on_of_nodup_map h.nodup ha.1 hb.1 hkey

/-- The warehouses that hold a product are those of its levels. -/
theorem Listed.support_subset (h : Listed db levels) (p : ProductId) :
    (Function.support fun w : WarehouseId => ((onHand db ⟨w, p⟩).toNat : Int)) ⊆
      ((ofProduct p levels).map fun l => l.key.warehouse).toFinset := by
  intro w hw
  have hne : onHand db ⟨w, p⟩ ≠ 0 := fun hzero => hw (by simp [hzero])
  have hmem : (⟨⟨w, p⟩, onHand db ⟨w, p⟩⟩ : StockLevel) ∈ levels := (h.mem_iff _).mpr ⟨hne, rfl⟩
  simp only [List.coe_toFinset, List.mem_map, Set.mem_ofPred_eq]
  exact ⟨_, mem_ofProduct.mpr ⟨hmem, rfl⟩, rfl⟩

theorem Listed.hasFiniteSupport (h : Listed db levels) (p : ProductId) :
    (fun w : WarehouseId => ((onHand db ⟨w, p⟩).toNat : Int)).HasFiniteSupport :=
  (Finset.finite_toSet _).subset (h.support_subset p)

/-- The sum over all warehouses is that over the levels of the product. -/
theorem Listed.total_eq_sum (h : Listed db levels) (p : ProductId) :
    total db p = ((ofProduct p levels).map fun l => (l.quantity.toNat : Int)).sum := by
  rw [total_eq_finsum, finsum_eq_sum_of_support_subset _ (h.support_subset p),
    List.sum_toFinset _ (h.warehouses_nodup p), List.map_map]
  refine congrArg List.sum (List.map_congr_left fun l hl => ?_)
  obtain ⟨hl, hp⟩ := mem_ofProduct.mp hl
  obtain ⟨-, hquantity⟩ := (h.mem_iff l).mp hl
  have hkey : (⟨l.key.warehouse, p⟩ : StockKey) = l.key := by rw [← hp]
  simp only [Function.comp, hkey, hquantity]

/-! ## The report -/

theorem addRow_of_readLevel {row : Bytes × Bytes} {l : StockLevel} (h : readLevel row = .ok l)
    (q : UInt64) :
    addRow p q row = .ok (if l.key.product = p then satAdd q l.quantity else q) := by
  obtain ⟨hkey, hquantity⟩ := readLevel_eq_ok h
  simp only [addRow, StockKey.ofBytes?_bytes? hkey]
  split
  · exact bind_ok hquantity rfl
  · rfl

/-- The rows of a product are added to what was there, stopped at the largest number. -/
theorem foldlM_addRow {rows : List (Bytes × Bytes)} (h : rows.mapM readLevel = .ok levels)
    (n : Nat) :
    rows.foldlM (addRow p) (clamp n) =
      .ok (clamp (n + ((ofProduct p levels).map fun l => l.quantity.toNat).sum)) := by
  induction rows generalizing levels n with
  | nil =>
    cases h
    rfl
  | cons row rows ih =>
    rw [List.mapM_cons] at h
    obtain ⟨l, hl, h⟩ := bind_eq_ok h
    obtain ⟨rest, hrest, h⟩ := bind_eq_ok h
    cases h
    rw [List.foldlM_cons]
    refine bind_ok (addRow_of_readLevel hl _) ?_
    by_cases hp : l.key.product = p
    · rw [if_pos hp, satAdd_clamp, ih hrest]
      simp [ofProduct, hp, Nat.add_assoc]
    · rw [if_neg hp, ih hrest]
      simp [ofProduct, hp]

/-- The report is the sum, stopped at the largest number. -/
theorem Listed.productTotal_eq (h : Listed db levels) (p : ProductId) :
    ∃ q, productTotal p db = .ok q ∧ (q.toNat : Int) = min (total db p) maxUInt64 := by
  have hfold := foldlM_addRow (p := p) h.read 0
  have hsum : total db p = ((ofProduct p levels).map fun l => l.quantity.toNat).sum := by
    rw [h.total_eq_sum, Nat.cast_list_sum, List.map_map]
    rfl
  refine ⟨_, by rw [productTotal, show (0 : UInt64) = clamp 0 from rfl, hfold]; rfl, ?_⟩
  rw [toNat_clamp, hsum, Nat.zero_add]
  exact Nat.cast_min _ _

end Sum

/-! ## Movements -/

section Movements

variable {db : Database} {d : Document}

/-- A side of a document counts once. -/
theorem finsum_side {side : Option WarehouseId} (h : ∃ w, side = some w) :
    ∑ᶠ w : WarehouseId, (if side = some w then (1 : Int) else 0) = 1 := by
  obtain ⟨v, rfl⟩ := h
  rw [finsum_eq_single _ v fun w hw => by simp [Ne.symm hw]]
  simp

theorem hasFiniteSupport_side (side : Option WarehouseId) :
    (fun w : WarehouseId => if side = some w then (1 : Int) else 0).HasFiniteSupport := by
  refine Set.Subsingleton.finite fun v hv w hw => ?_
  have hv : side = some v := by simpa using hv
  have hw : side = some w := by simpa using hw
  exact Option.some.inj (hv.symm.trans hw)

/-- The directions of an import add up to one, those of an export and a sale to minus one, and
those of a transfer cancel. -/
theorem finsum_direction (h : d.Sided) :
    ∑ᶠ w, d.direction w =
      match d.kind with
      | .inbound => 1
      | .outbound | .sale => -1
      | .transfer => 0 := by
  unfold Document.direction
  cases hkind : d.kind with
  | inbound => exact finsum_side (h.destination (.inl hkind))
  | outbound | sale =>
    have hside := finsum_side (h.source (by simp [hkind]))
    have hneg : ∀ w, (if d.source = some w then (-1 : Int) else 0) =
        -(if d.source = some w then (1 : Int) else 0) := by
      intro w
      split <;> rfl
    simp only [hneg, finsum_neg_distrib, hside]
  | transfer =>
    simp only [finsum_sub_distrib (hasFiniteSupport_side d.destination)
      (hasFiniteSupport_side d.source), finsum_side (h.destination (.inr hkind)),
      finsum_side (h.source (by simp [hkind])), Int.sub_self]

theorem finsum_contribution (h : d.Sided) (p : ProductId) :
    ∑ᶠ w, d.contribution ⟨w, p⟩ = d.inflow p := by
  simp only [Document.contribution_eq, ← finsum_mul, finsum_direction h, Document.inflow]
  cases d.kind <;> simp

/-- A posted document moves the totals by its lines. -/
theorem total_posted (hdb : db.HoldsQuantities) (hkeys : db.stock.Every isStockKey)
    {id : DocumentId} {approver : String} (hready : Posting.Ready id approver db d)
    {levels : List StockLevel} {db' : Database} (h : applyBatch d.batch db = .ok (levels, db'))
    (p : ProductId) : total db' p = total db p + d.inflow p := by
  obtain ⟨hadm, rfl⟩ := applyBatch_inv hdb h
  obtain ⟨before, hbefore⟩ := exists_listed hdb.stock hkeys
  obtain ⟨after, hafter⟩ := exists_listed (holdsQuantities_applied hdb d.batch).stock
    (stockKeys_applied hkeys hadm)
  have hmoved : ∀ w, d.contribution ⟨w, p⟩ =
      ((onHand (applied d.batch db) ⟨w, p⟩).toNat : Int) - (onHand db ⟨w, p⟩).toNat := by
    intro w
    rw [onHand_applied hadm, Document.net_batch (Document.hasSides_of_valid hready.valid)]
    omega
  have hsum := finsum_contribution (Document.sided_of_valid hready.valid) p
  simp only [hmoved] at hsum
  rw [finsum_sub_distrib (hafter.hasFiniteSupport p) (hbefore.hasFiniteSupport p),
    ← total_eq_finsum, ← total_eq_finsum] at hsum
  omega

end Movements

/-! ## Operations -/

theorem total_congr {a b : Database} (h : b.stock = a.stock) (p : ProductId) :
    total b p = total a p := by
  simp only [total, onHand_congr h]

variable {σ : Type} {hook : LedgerHook σ} {world : Database × σ}

/-- A posting posts a document and moves the totals by its lines, or it fails and leaves them. -/
theorem total_of_approval (h : Reachable hook anyOperation world) {op : Operation}
    {id : DocumentId} {approver : String} {now : Timestamp}
    (asked : op.approval? = some (id, approver, now)) :
    (∃ d r, Archive.load id world.1 = .ok d ∧
        (op.run hook.run world).1 = .ok (.document (d.settle (.posting r))) ∧
        ∀ p, total (op.run hook.run world).2.1 p = total world.1 p + d.inflow p) ∨
      ∃ e, (op.run hook.run world).1 = .error e ∧
        ∀ p, total (op.run hook.run world).2.1 p = total world.1 p := by
  obtain ⟨τ, run, t, hanswer, hdb⟩ := Operation.run_of_approval hook asked world
  have hpost := Posting.post_concludes run.run id approver now (world.1, t)
  rw [hanswer, hdb]
  generalize Posting.post run.run id approver now (world.1, t) = ended at hpost ⊢
  cases hpost with
  | failed e => exact .inr ⟨_, rfl, fun p => rfl⟩
  | fellShort => exact .inr ⟨_, rfl, fun p => total_congr rfl p⟩
  | @posted d levels moved db row ready applied encoded written =>
    refine .inl ⟨d, _, ready.loaded, rfl, fun p => ?_⟩
    rw [← total_posted h.integrity.quantities h.stockKeys ready applied p]
    refine total_congr ?_ p
    subst written
    split
    · exact (run.sameCore _ (_, t)).stock
    · rfl

/-- An operation that neither posts nor applies a batch leaves stock as it is. -/
theorem stock_of_run {op : Operation} (hbatch : op.batch? = none) (hposts : op.approval? = none)
    (world : Database × σ) : (op.run hook.run world).2.1.stock = world.1.stock := by
  obtain ⟨db', heffect, hcore⟩ := effect_run hook op world
  rw [hcore.stock]
  cases heffect with
  | moved asked applied => simp [hbatch] at asked
  | posted asked ready applied encoded => simp [hposts] at asked
  | _ => rfl

/-- In every reachable database the reported total of a product is the exact sum of its quantities
over all warehouses, stopped at the largest number. A posting that succeeds moves the sums by the
lines of the document, up for an import, down for an export and a sale, and not at all for a
transfer. A posting that fails leaves them, and so does every other operation that applies no batch
of its own. -/
theorem productTotal_conserved (h : Reachable hook anyOperation world) :
    (∀ p : ProductId,
      (∀ w : WarehouseId, w.bytes.length ≤ StockKey.maxWarehouseLength →
        quantity ⟨w, p⟩ world.1 = .ok (onHand world.1 ⟨w, p⟩)) ∧
      {w : WarehouseId | onHand world.1 ⟨w, p⟩ ≠ 0}.Finite ∧
      ∃ q, productTotal p world.1 = .ok q ∧ (q.toNat : Int) = min (total world.1 p) maxUInt64) ∧
    (∀ (op : Operation) (id : DocumentId) (approver : String) (now : Timestamp),
      op.approval? = some (id, approver, now) →
      (∃ d r, Archive.load id world.1 = .ok d ∧
        (op.run hook.run world).1 = .ok (.document (d.settle (.posting r))) ∧
        ∀ p, total (op.run hook.run world).2.1 p = total world.1 p + d.inflow p) ∨
      ∃ e, (op.run hook.run world).1 = .error e ∧
        ∀ p, total (op.run hook.run world).2.1 p = total world.1 p) ∧
    ∀ op : Operation, op.approval? = none → op.batch? = none →
      ∀ p, total (op.run hook.run world).2.1 p = total world.1 p := by
  have hdb := h.integrity.quantities
  obtain ⟨levels, hlisted⟩ := exists_listed hdb.stock h.stockKeys
  refine ⟨fun p => ⟨fun w hw => quantity_eq_onHand hdb.stock hw, ?_, hlisted.productTotal_eq p⟩,
    fun op id approver now asked => total_of_approval h asked,
    fun op hposts hbatch p => total_congr (stock_of_run hbatch hposts world) p⟩
  refine (hlisted.hasFiniteSupport p).subset fun w hw hzero => hw ?_
  exact UInt64.toNat_inj.mp (Int.ofNat_inj.mp hzero)

/-- Five units are there, and two of them go out. -/
theorem productTotal_conserved_history :
    ∃ world : Database × Unit, Reachable .silent anyOperation world ∧
      productTotal ⟨"p"⟩ world.1 = .ok 5 ∧ total world.1 ⟨"p"⟩ = 5 ∧
      total ((Operation.posting (.post ⟨"e"⟩ "b" (.ofUnixNanos 2))).run
        LedgerHook.silent.run world).2.1 ⟨"p"⟩ = 3 := by
  have hreach : Reachable LedgerHook.silent anyOperation
      (runAll LedgerHook.silent.run (history.take 6) (∅, ())) :=
    (reachable_history 6).mono fun _ _ _ => trivial
  have hreport : (productTotal ⟨"p"⟩
      (runAll LedgerHook.silent.run (history.take 6) (∅, ())).1).toOption = some 5 := by
    decide +kernel
  have hanswer : ((Operation.posting (.post ⟨"e"⟩ "b" (.ofUnixNanos 2))).run LedgerHook.silent.run
      (runAll LedgerHook.silent.run (history.take 6) (∅, ()))).1.toOption.isSome := by
    decide +kernel
  have hflow : (Archive.load ⟨"e"⟩ (runAll LedgerHook.silent.run
      (history.take 6) (∅, ())).1).toOption.map (fun d => d.inflow ⟨"p"⟩) = some (-2) := by
    decide +kernel
  obtain ⟨hexact, hposts, -⟩ := productTotal_conserved hreach
  obtain ⟨-, -, q, hq, htotal⟩ := hexact ⟨"p"⟩
  rw [hq] at hreport
  cases hreport
  have hfive : total (runAll LedgerHook.silent.run (history.take 6) (∅, ())).1 ⟨"p"⟩ = 5 := by
    have hmax : maxUInt64 = 0xFFFFFFFFFFFFFFFF := rfl
    have hq : (5 : UInt64).toNat = 5 := rfl
    omega
  refine ⟨_, hreach, hq, hfive, ?_⟩
  rcases hposts (.posting (.post ⟨"e"⟩ "b" (.ofUnixNanos 2))) _ _ _ rfl with
    ⟨d, r, hload, -, hmoved⟩ | ⟨e, herror, -⟩
  · rw [hload] at hflow
    have htwo : d.inflow ⟨"p"⟩ = -2 := Option.some.inj hflow
    rw [hmoved, hfive, htwo]
    rfl
  · rw [herror] at hanswer
    cases hanswer

end Stock

end Depot
