import Depot.Proofs.Stock.Occupancy
import Mathlib.Algebra.BigOperators.Group.List.Basic
/-!
# Batches compose and undo

Two batches that are applied one after the other leave the rows that their movements in one batch
leave, and a batch that was applied is undone by the same movements in the opposite direction. In
both cases the batch that stands for the others is not refused, and the databases are equal row by
row, occupancy included (`batches_compose_and_undo`).

## How the proof goes

The ways differ in the rows that are made and taken away in between, and in what is counted then:
a key may be emptied by one batch and filled by the next, or be moved by one of them only, or by
nothing. But the rows of stock are determined by what is on hand (`stock_eq_of_onHand`), and those
of occupancy by the rows of stock (`WellFormed.occupancy_eq`). So it is enough to compare
quantities, and a batch moves these by its net movements, which add up to the net movements of both.

Not being refused comes out of the same sums: a quantity behind the joined batch is the one behind
the second batch, which was not refused.
-/

namespace Depot

namespace Batch

variable {a b : Batch} {key : StockKey}

/-! ## Joining and reversing batches -/

/-- The movements of both batches. -/
def join (a b : Batch) : Batch := b.toList.foldl (fun batch m => batch.push m.1 m.2) a

/-- The movements of a batch in the opposite direction. -/
def reversed (a : Batch) : Batch := .ofList (a.toList.map fun m => (m.1, -m.2))

/-- The joined batch has the keys of both. -/
theorem isSome_get?_join_iff :
    ((a.join b).nets.get? key).isSome ↔ (a.nets.get? key).isSome ∨ (b.nets.get? key).isSome := by
  rw [join, isSome_get?_foldl_iff, exists_mem_toList_iff]

/-- A key is moved by the joined batch as by both. -/
theorem net_join (a b : Batch) (key : StockKey) : (a.join b).net key = a.net key + b.net key := by
  rw [join, net_foldl, sum_share]

/-- The reversed batch has the same keys. -/
theorem isSome_get?_reversed_iff :
    (a.reversed.nets.get? key).isSome ↔ (a.nets.get? key).isSome := by
  rw [reversed, isSome_get?_ofList_iff, ← exists_mem_toList_iff]
  simp only [List.mem_map, exists_exists_and_eq_and]

theorem net_reversed (a : Batch) (key : StockKey) : a.reversed.net key = -a.net key := by
  have hshare : share key ∘ (fun m => (m.1, -m.2)) = Neg.neg ∘ share key := by
    funext m
    simp only [share, Function.comp]
    split <;> rfl
  rw [reversed, net_ofList, List.map_map, hshare, ← sum_share, ← List.map_map,
    List.sum_neg]

end Batch

namespace Stock

/-! ## Databases with the same quantities -/

section Same

variable {db db' : Database}

/-- What is on hand determines the rows of stock. -/
theorem stock_eq_of_onHand (hdb : db.stock.HoldsQuantities) (hdb' : db'.stock.HoldsQuantities)
    (hkeys : db.stock.Every isStockKey) (hkeys' : db'.stock.Every isStockKey)
    (h : ∀ key, onHand db' key = onHand db key) : db'.stock = db.stock := by
  refine hdb.eq_of_held hdb' hkeys hkeys' fun row _ ⟨key, hkey⟩ => ?_
  rw [← onHand_eq_held hkey, ← onHand_eq_held hkey, h]

/-- The rows of stock determine those of occupancy. -/
theorem WellFormed.occupancy_eq (h : WellFormed db) (h' : WellFormed db')
    (hdb : db.occupancy.HoldsQuantities) (hdb' : db'.occupancy.HoldsQuantities)
    (hstock : db'.stock = db.stock) : db'.occupancy = db.occupancy := by
  refine hdb.eq_of_held hdb' h.occupancy h'.occupancy fun row _ ⟨w, hw⟩ => ?_
  refine UInt64.toNat_inj.mp ?_
  rw [← hw, h.tallied w, h'.tallied w, rowCount, hstock, rowCount]

end Same

/-! ## From one database to another -/

theorem commit_applyBatch {db : Database} (hdb : db.HoldsQuantities) (batch : Batch)
    (hadm : ∀ m ∈ batch.toList, Admissible (onHand db m.1) m) :
    UnitOfWork.commit (applyBatch batch) db =
      (.ok (batch.toList.map fun m => ⟨m.1, moved (onHand db m.1) m.2⟩), applied batch db) := by
  rw [UnitOfWork.commit, applyBatch_of_admissible hdb hadm]

/-- The quantities of two databases differ by the net movements of the batch, and of the other
tables only occupancy may differ. -/
structure Leads (batch : Batch) (db db' : Database) : Prop where
  short : ∀ key, (batch.nets.get? key).isSome →
    key.warehouse.bytes.length ≤ StockKey.maxWarehouseLength
  moves : ∀ key, ((onHand db' key).toNat : Int) = (onHand db key).toNat + batch.net key
  frame : db' = { db with stock := db'.stock, occupancy := db'.occupancy }

section Leads

variable {a b batch : Batch} {db db₁ db₂ db' : Database}

/-- A batch that was applied leads to the database behind it. -/
theorem leads_applied (hdb : db.HoldsQuantities)
    (hadm : ∀ m ∈ batch.toList, Admissible (onHand db m.1) m) :
    Leads batch db (applied batch db) where
  short key hkey := by
    obtain ⟨m, hm, rfl⟩ := Batch.exists_mem_toList_iff.mpr hkey
    exact (hadm m hm).short
  moves := onHand_applied hadm
  frame := applied_frame batch db hdb

theorem Leads.join (ha : Leads a db db₁) (hb : Leads b db₁ db₂) : Leads (a.join b) db db₂ where
  short key hkey := (Batch.isSome_get?_join_iff.mp hkey).elim (ha.short key) (hb.short key)
  moves key := by
    rw [Batch.net_join, hb.moves, ha.moves, Int.add_assoc]
  frame := by
    rw [hb.frame, ha.frame]

theorem Leads.reversed (ha : Leads a db db₁) : Leads a.reversed db₁ db where
  short key hkey := ha.short key (Batch.isSome_get?_reversed_iff.mp hkey)
  moves key := by
    rw [Batch.net_reversed, ha.moves]
    omega
  frame := by
    rw [ha.frame]

/-- The batch is not refused, as the quantities behind it are those of a database. -/
theorem Leads.admissible (h : Leads batch db db') {m : StockKey × Int} (hm : m ∈ batch.toList) :
    Admissible (onHand db m.1) m := by
  obtain ⟨hkey, hnet⟩ := Batch.mem_toList_iff.mp hm
  have hmoves := h.moves m.1
  have hlt := (onHand db' m.1).toNat_lt
  have hmax : maxUInt64 = 0xFFFFFFFFFFFFFFFF := rfl
  -- the sum is what the other database has on hand, a number of 64 bits
  exact ⟨h.short m.1 hkey, by omega, by omega⟩

/-- The net movements are numbers of 128 bits. -/
theorem Leads.fits (h : Leads batch db db') : (Operation.stock (.applyBatch batch)).Fits := by
  intro m hm
  have hmoves := h.moves m.1
  rw [← (Batch.mem_toList_iff.mp hm).2] at hmoves
  have hlt := (onHand db m.1).toNat_lt
  have hlt' := (onHand db' m.1).toNat_lt
  simp only [fitsInt128, decide_eq_true_eq]
  omega

theorem Leads.onHand_eq (h : Leads batch db db') (key : StockKey) :
    onHand (applied batch db) key = onHand db' key := by
  refine UInt64.toNat_inj.mp (Int.ofNat_inj.mp ?_)
  rw [h.moves]
  exact onHand_applied (fun m hm => h.admissible hm) key

/-- Applying the batch leads to the other database, row by row. -/
theorem Leads.applyBatch_eq (h : Leads batch db db') (hdb : db.HoldsQuantities)
    (hdb' : db'.HoldsQuantities) (hform : WellFormed db) (hform' : WellFormed db') :
    ∃ levels reached, UnitOfWork.commit (applyBatch batch) db = (.ok levels, reached) ∧
      reached.stock = db'.stock ∧
      (fewRows db (.stock (.applyBatch batch)) → reached = db') := by
  have hadm : ∀ m ∈ batch.toList, Admissible (onHand db m.1) m := fun m hm => h.admissible hm
  have happlied := applyBatch_of_admissible hdb hadm
  have hreached := holdsQuantities_applied hdb batch
  have hstock : (applied batch db).stock = db'.stock :=
    stock_eq_of_onHand hdb'.stock hreached.stock hform'.stock
      (stockKeys_applied hform.stock hadm) h.onHand_eq
  refine ⟨_, _, commit_applyBatch hdb batch hadm, hstock, fun hfew => ?_⟩
  have hoccupancy : (applied batch db).occupancy = db'.occupancy :=
    hform'.occupancy_eq (hform.applied hdb happlied (hfew _ _ _ (.inl rfl) happlied))
      hdb'.occupancy hreached.occupancy hstock
  rw [applied_frame batch db hdb, hstock, hoccupancy, ← h.frame]

end Leads

/-! ## Reachable databases -/

variable {σ : Type} {hook : LedgerHook σ} {world : Database × σ}

/-- Of two batches that a reachable database takes one after the other, the joined batch is taken
by it as well and leaves the same rows; and the reversed batch is taken behind a batch and leaves
the rows that were there before. The rows of stock are the same in any case, those of occupancy and
with them the whole databases if no warehouse comes to have too many rows. -/
theorem batches_compose_and_undo (h : Reachable hook fewRows world) {a : Batch}
    {levels : List StockLevel} {db₁ : Database}
    (ha : UnitOfWork.commit (applyBatch a) world.1 = (.ok levels, db₁))
    (hfew : fewRows world.1 (.stock (.applyBatch a))) :
    (∀ b levels db₂, UnitOfWork.commit (applyBatch b) db₁ = (.ok levels, db₂) →
      fewRows db₁ (.stock (.applyBatch b)) →
      (Operation.stock (.applyBatch (a.join b))).Fits ∧
      ∃ levels db', UnitOfWork.commit (applyBatch (a.join b)) world.1 = (.ok levels, db') ∧
        db'.stock = db₂.stock ∧
        (fewRows world.1 (.stock (.applyBatch (a.join b))) → db' = db₂)) ∧
    (Operation.stock (.applyBatch a.reversed)).Fits ∧
    ∃ levels db', UnitOfWork.commit (applyBatch a.reversed) db₁ = (.ok levels, db') ∧
      db'.stock = world.1.stock ∧
      (fewRows db₁ (.stock (.applyBatch a.reversed)) → db' = world.1) := by
  have hdb := h.integrity.quantities
  have hform := wellFormed_of_reachable h
  have ha := UnitOfWork.commit_eq_ok ha
  have hform₁ := hform.applied hdb ha (hfew _ _ _ (.inl rfl) ha)
  obtain ⟨hadm, rfl⟩ := applyBatch_inv hdb ha
  have hdb₁ := holdsQuantities_applied hdb a
  have hleads := leads_applied hdb hadm
  refine ⟨fun b levels db₂ hb hfew' => ?_, hleads.reversed.fits,
    hleads.reversed.applyBatch_eq hdb₁ hdb hform₁ hform⟩
  have hb := UnitOfWork.commit_eq_ok hb
  have hform₂ := hform₁.applied hdb₁ hb (hfew' _ _ _ (.inl rfl) hb)
  obtain ⟨hadm₁, rfl⟩ := applyBatch_inv hdb₁ hb
  have hjoined := hleads.join (leads_applied hdb₁ hadm₁)
  exact ⟨hjoined.fits,
    hjoined.applyBatch_eq hdb (holdsQuantities_applied hdb₁ b) hform hform₂⟩

/-- A product leaves a warehouse, more of it comes into another, and nothing of a third. -/
def departures : Batch :=
  .ofList [(⟨⟨"w"⟩, ⟨"p"⟩⟩, -5), (⟨⟨"v"⟩, ⟨"p"⟩⟩, 3), (⟨⟨"u"⟩, ⟨"p"⟩⟩, 0)]

/-- Some of the product comes back, and what else there is leaves. -/
def returns : Batch :=
  .ofList [(⟨⟨"w"⟩, ⟨"p"⟩⟩, 4), (⟨⟨"w"⟩, ⟨"q"⟩⟩, -2), (⟨⟨"v"⟩, ⟨"p"⟩⟩, -4)]

/-- The world behind the arrivals. -/
def stockroom : Database × Unit := (arrivals.run LedgerHook.silent.run (∅, ())).2

theorem reachable_stockroom : Reachable .silent fewRows stockroom := by
  refine .step (.start ()) ?_ (fewRows_applyBatch
    ⟨Table.holdsQuantities_empty, Table.holdsQuantities_empty⟩ (by decide))
  simp only [arrivals, Operation.Fits]
  decide

/-- A batch that empties a row and leads another one up, with a second one that fills the row again
and empties others. -/
theorem batches_compose_and_undo_departures :
    Reachable .silent fewRows stockroom ∧
    fewRows stockroom.1 (.stock (.applyBatch departures)) ∧
    ∃ levels db₁, UnitOfWork.commit (applyBatch departures) stockroom.1 = (.ok levels, db₁) ∧
      (∃ levels db₂, UnitOfWork.commit (applyBatch returns) db₁ = (.ok levels, db₂) ∧
        ∃ levels, UnitOfWork.commit (applyBatch (departures.join returns)) stockroom.1 =
          (.ok levels, db₂)) ∧
      ∃ levels, UnitOfWork.commit (applyBatch departures.reversed) db₁ =
        (.ok levels, stockroom.1) := by
  have hdb := reachable_stockroom.integrity.quantities
  have hdb₁ := holdsQuantities_applied hdb departures
  have hfew : fewRows stockroom.1 (.stock (.applyBatch departures)) :=
    fewRows_applyBatch hdb (by decide)
  have hdeparted := commit_applyBatch hdb departures (by decide)
  have hreturned := commit_applyBatch hdb₁ returns (by decide)
  obtain ⟨hcompose, -, levels, db', hundone, -, hworld⟩ :=
    batches_compose_and_undo reachable_stockroom hdeparted hfew
  obtain ⟨-, levels', db'', hjoined, -, hsame⟩ :=
    hcompose returns _ _ hreturned (fewRows_applyBatch hdb₁ (by decide))
  cases hworld (fewRows_applyBatch hdb₁ (by decide))
  cases hsame (fewRows_applyBatch hdb (by decide))
  exact ⟨reachable_stockroom, hfew, _, _, hdeparted, ⟨_, _, hreturned, levels', hjoined⟩, levels,
    hundone⟩

end Stock

end Depot
