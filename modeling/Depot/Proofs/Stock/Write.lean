import Depot.Proofs.Stock.Plan
/-!
# Writing a batch

The changes of a plan are about different rows, and each knows what its row holds (`Current`).
So they can be written one after the other, and a row holds afterwards what its change says.

`applied` is the database behind a batch whose movements are all admissible. Every key has moved
there by the net movement of the batch (`onHand_applied`), which is all a caller needs to know.
-/

namespace Depot

/-- Stock and occupancy hold quantities. -/
structure Database.HoldsQuantities (db : Database) : Prop where
  stock : db.stock.HoldsQuantities
  occupancy : db.occupancy.HoldsQuantities

namespace Stock

/-! ## One change -/

/-- The database behind a change. -/
def Change.written (db : Database) (c : Change) : Database :=
  { db with
    stock := db.stock.setQuantity c.row c.after
    occupancy :=
      if c.movesOccupancy then
        db.occupancy.setQuantity c.key.warehouse.bytes
          (c.occupancy (db.occupancy.held c.key.warehouse.bytes))
      else db.occupancy }

theorem Change.write_eq {db : Database} (h : db.occupancy.HoldsQuantities) (c : Change) :
    c.write db = .ok (c.written db) := by
  unfold Change.write Change.written
  by_cases hm : c.movesOccupancy = true
  · simp only [hm, if_true]
    exact bind_ok (h.quantity _) rfl
  · simp only [hm]
    rfl

theorem holdsQuantities_written {db : Database} (h : db.HoldsQuantities) (c : Change) :
    (c.written db).HoldsQuantities where
  stock := h.stock.setQuantity _ _
  occupancy := by
    unfold Change.written
    dsimp only
    split
    · exact h.occupancy.setQuantity _ _
    · exact h.occupancy

/-! ## Change after change -/

/-- The changes are about different rows, and know what these hold. -/
structure Current (t : Table) (changes : List Change) : Prop where
  rows : ∀ c ∈ changes, c.key.bytes? = some c.row
  before : ∀ c ∈ changes, t.held c.row = c.before
  distinct : changes.Pairwise fun a b => a.row ≠ b.row

theorem Current.written {db : Database} {c : Change} {changes : List Change}
    (h : Current db.stock (c :: changes)) : Current (c.written db).stock changes where
  rows c' hc' := h.rows c' (List.mem_cons_of_mem c hc')
  before c' hc' := by
    have hne := (List.pairwise_cons.mp h.distinct).1 c' hc'
    rw [Change.written, Table.held_setQuantity, if_neg (Ne.symm hne)]
    exact h.before c' (List.mem_cons_of_mem c hc')
  distinct := (List.pairwise_cons.mp h.distinct).2

theorem foldlM_write_eq {changes : List Change} {db : Database} (h : db.HoldsQuantities) :
    changes.foldlM Change.write db = .ok (changes.foldl Change.written db) := by
  induction changes generalizing db with
  | nil => rfl
  | cons c changes ih =>
    rw [List.foldlM_cons]
    exact bind_ok (Change.write_eq h.occupancy c) (ih (holdsQuantities_written h c))

theorem holdsQuantities_foldl {db : Database} (h : db.HoldsQuantities)
    (changes : List Change) : (changes.foldl Change.written db).HoldsQuantities := by
  induction changes generalizing db with
  | nil => exact h
  | cons c changes ih => exact ih (holdsQuantities_written h c)

/-- A row that no change is about holds what it held. -/
theorem held_foldl_of_not_mem {changes : List Change} {db : Database} {row : Bytes}
    (h : ∀ c ∈ changes, c.row ≠ row) :
    (changes.foldl Change.written db).stock.held row = db.stock.held row := by
  induction changes generalizing db with
  | nil => rfl
  | cons c changes ih =>
    rw [List.foldl_cons, ih fun c' hc' => h c' (List.mem_cons_of_mem c hc'), Change.written,
      Table.held_setQuantity, if_neg (Ne.symm (h c List.mem_cons_self))]

/-- The row of a change holds what the change says. -/
theorem held_foldl_of_mem {changes : List Change} {db : Database}
    (h : Current db.stock changes) {c : Change} (hc : c ∈ changes) :
    (changes.foldl Change.written db).stock.held c.row = c.after := by
  induction changes generalizing db with
  | nil => cases hc
  | cons c' changes ih =>
    rw [List.foldl_cons]
    rcases List.mem_cons.mp hc with rfl | hc
    · have hne := (List.pairwise_cons.mp h.distinct).1
      rw [held_foldl_of_not_mem fun c' hc' => Ne.symm (hne c' hc'), Change.written,
        Table.held_setQuantity, if_pos rfl]
    · exact ih h.written hc

/-! ## The whole batch -/

/-- The database behind a batch whose movements are all admissible. -/
def applied (batch : Batch) (db : Database) : Database :=
  (batch.toList.map (changeOf db)).foldl Change.written db

theorem current_changes {db : Database} {batch : Batch}
    (h : ∀ m ∈ batch.toList, Admissible (onHand db m.1) m) :
    Current db.stock (batch.toList.map (changeOf db)) where
  rows c hc := by
    obtain ⟨m, hm, rfl⟩ := List.mem_map.mp hc
    obtain ⟨row, hrow⟩ := bytes?_eq_some (h m hm).short
    simp only [changeOf, hrow, Option.getD_some]
  before c hc := by
    obtain ⟨m, hm, rfl⟩ := List.mem_map.mp hc
    obtain ⟨row, hrow⟩ := bytes?_eq_some (h m hm).short
    simp only [changeOf, hrow, Option.getD_some, onHand_eq_held hrow]
  distinct := by
    rw [List.pairwise_map]
    -- equal rows would be of equal keys, and no key stands in a batch twice
    refine List.Pairwise.imp_of_mem (fun {a b} ha hb hlt heq => ?_) batch.nets.increasing
    obtain ⟨row, hrow⟩ := bytes?_eq_some (h a ha).short
    obtain ⟨row', hrow'⟩ := bytes?_eq_some (h b hb).short
    simp only [changeOf, hrow, hrow', Option.getD_some] at heq
    subst heq
    rw [bytes?_injective hrow hrow', SortedMap.compare_eq_iff.mpr rfl] at hlt
    cases hlt

/-- Admissible movements are applied, and the levels are listed in key order. -/
theorem applyBatch_of_admissible {db : Database} (hdb : db.HoldsQuantities) {batch : Batch}
    (h : ∀ m ∈ batch.toList, Admissible (onHand db m.1) m) :
    applyBatch batch db =
      .ok (batch.toList.map fun m => ⟨m.1, moved (onHand db m.1) m.2⟩, applied batch db) := by
  have hwrite : (batch.toList.map (changeOf db)).foldlM Change.write db =
      .ok (applied batch db) := foldlM_write_eq hdb
  unfold applyBatch
  refine bind_ok (plan_of_admissible hdb.stock h) (bind_ok (by rw [hwrite]; rfl) ?_)
  rw [List.map_map]
  rfl

theorem applyBatch_of_not_admissible {db : Database} (hstock : db.stock.HoldsQuantities)
    {batch : Batch} {m : StockKey × Int} (hm : m ∈ batch.toList)
    (hfits : fitsInt128 ((onHand db m.1).toNat + m.2) = true)
    (hbad : ¬ Admissible (onHand db m.1) m)
    (hleast : ∀ m' ∈ batch.toList, compare m'.1 m.1 = .lt → Admissible (onHand db m'.1) m') :
    applyBatch batch db = .error (fault (onHand db m.1) m) :=
  bind_error (plan_of_refused hstock hm (planOne_of_not_admissible hstock hfits hbad) hleast)

theorem applyBatch_of_outOfRange {db : Database} (hstock : db.stock.HoldsQuantities)
    {batch : Batch} {m : StockKey × Int} (hm : m ∈ batch.toList)
    (hshort : m.1.warehouse.bytes.length ≤ StockKey.maxWarehouseLength)
    (hout : fitsInt128 ((onHand db m.1).toNat + m.2) = false)
    (hleast : ∀ m' ∈ batch.toList, compare m'.1 m.1 = .lt → Admissible (onHand db m'.1) m') :
    applyBatch batch db = .error (.refused (.outOfRange m.1)) :=
  bind_error (plan_of_refused hstock hm (planOne_of_outOfRange hstock hshort hout) hleast)

/-- A batch that was applied had admissible movements only. -/
theorem applyBatch_inv {db db' : Database} (hdb : db.HoldsQuantities) {batch : Batch}
    {levels : List StockLevel} (h : applyBatch batch db = .ok (levels, db')) :
    (∀ m ∈ batch.toList, Admissible (onHand db m.1) m) ∧ db' = applied batch db := by
  obtain ⟨changes, hplan, -, -⟩ := applyBatch_eq_ok h
  have hadm := admissible_of_plan hdb.stock hplan
  rw [applyBatch_of_admissible hdb hadm] at h
  cases h
  exact ⟨hadm, rfl⟩

/-- A batch that the stock does not suffice for has a movement that it falls short of. -/
theorem fallsShort_of_applyBatch {db : Database} (hdb : db.HoldsQuantities) {batch : Batch}
    {s : Shortfall} (h : applyBatch batch db = .error (.refused (.insufficient s))) :
    ∃ m ∈ batch.toList, FallsShort db m s := by
  cases hplan : plan db.stock batch with
  | ok changes =>
    rw [applyBatch_of_admissible hdb (admissible_of_plan hdb.stock hplan)] at h
    cases h
  | error e =>
    have hfail : applyBatch batch db = .error e := bind_error hplan
    rw [hfail] at h
    cases h
    obtain ⟨m, hm, hfail⟩ := exists_of_mapM_eq_error hplan
    exact ⟨m, hm, fallsShort_of_planOne hdb.stock hfail⟩

theorem holdsQuantities_applied {db : Database} (h : db.HoldsQuantities) (batch : Batch) :
    (applied batch db).HoldsQuantities :=
  holdsQuantities_foldl h _

theorem applied_frame (batch : Batch) (db : Database) (h : db.HoldsQuantities) :
    applied batch db =
      { db with stock := (applied batch db).stock, occupancy := (applied batch db).occupancy } :=
  foldlM_write_frame (foldlM_write_eq h)

/-- The rows of stock are of a kind if they were before, and those of the keys that moved are. -/
theorem every_foldl {kind : Bytes → Bytes → Prop} {changes : List Change} {db : Database}
    (h : db.stock.Every kind) (hkind : ∀ c ∈ changes, ∀ row, kind c.row row) :
    (changes.foldl Change.written db).stock.Every kind := by
  induction changes generalizing db with
  | nil => exact h
  | cons c changes ih =>
    refine ih ?_ fun c' hc' => hkind c' (List.mem_cons_of_mem c hc')
    exact h.setQuantity fun _ => hkind c List.mem_cons_self _

theorem every_applied {kind : Bytes → Bytes → Prop} {db : Database} {batch : Batch}
    (h : db.stock.Every kind) (hadm : ∀ m ∈ batch.toList, Admissible (onHand db m.1) m)
    (hkind : ∀ m ∈ batch.toList, ∀ key row, m.1.bytes? = some key → kind key row) :
    (applied batch db).stock.Every kind := by
  refine every_foldl h fun c hc row => ?_
  have hrow := (current_changes hadm).rows c hc
  obtain ⟨m, hm, rfl⟩ := List.mem_map.mp hc
  exact hkind m hm _ row hrow

theorem onHand_applied_of_mem {db : Database} {batch : Batch}
    (h : ∀ m ∈ batch.toList, Admissible (onHand db m.1) m) {m : StockKey × Int}
    (hm : m ∈ batch.toList) : onHand (applied batch db) m.1 = moved (onHand db m.1) m.2 := by
  obtain ⟨row, hrow⟩ := bytes?_eq_some (h m hm).short
  have hheld := held_foldl_of_mem (current_changes h) (List.mem_map.mpr ⟨m, hm, rfl⟩)
  simp only [changeOf, hrow, Option.getD_some] at hheld
  rw [onHand_eq_held hrow]
  exact hheld

theorem onHand_applied_of_not_mem {db : Database} {batch : Batch}
    (h : ∀ m ∈ batch.toList, Admissible (onHand db m.1) m) {key : StockKey}
    (hkey : ∀ m ∈ batch.toList, m.1 ≠ key) : onHand (applied batch db) key = onHand db key := by
  cases hrow : key.bytes? with
  | none => simp only [onHand, quantity, rowOf, hrow, bind, Except.bind, mapError_error]
  | some row =>
    rw [onHand_eq_held hrow, onHand_eq_held hrow]
    refine held_foldl_of_not_mem fun c hc heq => ?_
    obtain ⟨m, hm, rfl⟩ := List.mem_map.mp hc
    obtain ⟨row', hrow'⟩ := bytes?_eq_some (h m hm).short
    simp only [changeOf, hrow', Option.getD_some] at heq
    subst heq
    exact hkey m hm (bytes?_injective hrow' hrow)

/-- Applying a batch moves every key by its net movement. -/
theorem onHand_applied {db : Database} {batch : Batch}
    (h : ∀ m ∈ batch.toList, Admissible (onHand db m.1) m) (key : StockKey) :
    ((onHand (applied batch db) key).toNat : Int) = (onHand db key).toNat + batch.net key := by
  unfold Batch.net
  cases hnet : batch.nets.get? key with
  | none =>
    have hkey : ∀ m ∈ batch.toList, m.1 ≠ key := by
      rintro m hm rfl
      have hsome : batch.nets.get? m.1 = some m.2 := SortedMap.mem_toList_iff.mp hm
      rw [hsome] at hnet
      cases hnet
    rw [onHand_applied_of_not_mem h hkey, Option.getD_none, Int.add_zero]
  | some delta =>
    have hm : (key, delta) ∈ batch.toList := SortedMap.mem_toList_iff.mpr hnet
    rw [onHand_applied_of_mem h hm, toNat_moved (h _ hm), Option.getD_some]

end Stock

end Depot
