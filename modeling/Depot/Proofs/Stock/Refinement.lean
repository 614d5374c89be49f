import Depot.Proofs.Integrity
/-!
# A batch is an all-or-nothing update of a map

Seen from outside, stock is a map from keys to 64-bit quantities, and a batch updates it at all of
its keys or at none. `applyBatch_refines` says this for every database that a history leads to:
either every movement is admissible, and then all are carried out, or the first that is not
decides the error and no table is written.

## How the proof goes

A plan reads one row per key before anything is written, so its verdicts are about the map as the
batch finds it (`Plan`). Different keys have different rows, so the writes do not meet
(`Write`). What is left here is that one of the two cases applies: a list with a movement that is
not admissible has a first one.

## The side condition

Net movements are 128-bit numbers with a sign, and so is the sum of a quantity and a net movement.
`Batch.HasRoom` keeps the sum in range. No batch of fewer than 2^63 quantities comes near its
bounds.
-/

namespace Depot

namespace Stock

/-- Every movement of the batch was carried out: the levels are those of its keys, in key order,
and no other quantity and no other table has changed. -/
structure Applied (db db' : Database) (batch : Batch) (levels : List StockLevel) : Prop where
  listed : levels.map (fun l => (l.key, (l.quantity.toNat : Int))) =
    batch.toList.map fun m => (m.1, ((onHand db m.1).toNat : Int) + m.2)
  carriedOut : ∀ l ∈ levels, quantity l.key db' = .ok l.quantity
  still : ∀ key, (∀ m ∈ batch.toList, m.1 ≠ key) → quantity key db' = quantity key db
  frame : db' = { db with stock := db'.stock, occupancy := db'.occupancy }

/-- The movement is the first of the batch, in key order, that is not admissible. -/
structure FirstRefused (db : Database) (batch : Batch) (m : StockKey × Int) : Prop where
  mem : m ∈ batch.toList
  refused : ¬ Admissible (onHand db m.1) m
  first : ∀ m' ∈ batch.toList, compare m'.1 m.1 = .lt → Admissible (onHand db m'.1) m'

/-! ## The first refused movement -/

theorem exists_first {α : Type} {p : α → Prop} {r : α → α → Prop} {l : List α}
    (hr : l.Pairwise r) (hirrefl : ∀ a b, r a b → ¬ r b a) (h : ¬ ∀ a ∈ l, p a) :
    ∃ a ∈ l, ¬ p a ∧ ∀ b ∈ l, r b a → p b := by
  induction l with
  | nil => exact absurd (fun a ha => by cases ha) h
  | cons a l ih =>
    obtain ⟨ha, hl⟩ := List.pairwise_cons.mp hr
    by_cases hp : p a
    · have hrest : ¬ ∀ b ∈ l, p b := fun hall => h fun b hb => by
        rcases List.mem_cons.mp hb with rfl | hb
        · exact hp
        · exact hall b hb
      obtain ⟨b, hb, hpb, hfirst⟩ := ih hl hrest
      refine ⟨b, List.mem_cons_of_mem a hb, hpb, fun c hc hcb => ?_⟩
      rcases List.mem_cons.mp hc with rfl | hc
      · exact hp
      · exact hfirst c hc hcb
    · refine ⟨a, List.mem_cons_self, hp, fun b hb hba => ?_⟩
      rcases List.mem_cons.mp hb with rfl | hb
      · exact absurd hba (hirrefl b b hba)
      · exact absurd hba (hirrefl a b (ha b hb))

/-- Of the movements of a batch that are not as told there is a first one, in key order. -/
theorem exists_least {batch : Batch} {p : StockKey × Int → Prop}
    (h : ¬ ∀ m ∈ batch.toList, p m) :
    ∃ m ∈ batch.toList, ¬ p m ∧ ∀ m' ∈ batch.toList, compare m'.1 m.1 = .lt → p m' := by
  have hanti (a b : StockKey × Int) (hab : compare a.1 b.1 = .lt) : ¬ compare b.1 a.1 = .lt := by
    intro hba
    rw [Std.OrientedCmp.gt_of_lt hab] at hba
    cases hba
  exact exists_first batch.nets.increasing hanti h

theorem exists_firstRefused {db : Database} {batch : Batch}
    (h : ¬ ∀ m ∈ batch.toList, Admissible (onHand db m.1) m) :
    ∃ m, FirstRefused db batch m := by
  obtain ⟨m, hm, hbad, hfirst⟩ := exists_least h
  exact ⟨m, hm, hbad, hfirst⟩

theorem fitsInt128_of_hasRoom {batch : Batch} (h : batch.HasRoom) (quantity : UInt64)
    {m : StockKey × Int} (hm : m ∈ batch.toList) : fitsInt128 (quantity.toNat + m.2) = true := by
  have hmax : maxUInt64 = 0xFFFFFFFFFFFFFFFF := rfl
  have hq := quantity.toNat_lt
  obtain ⟨hlow, hhigh⟩ := h m hm
  simp only [fitsInt128, decide_eq_true_eq]
  omega

/-! ## Both cases -/

theorem applied_of_admissible {db : Database} (hdb : db.HoldsQuantities) {batch : Batch}
    (h : ∀ m ∈ batch.toList, Admissible (onHand db m.1) m) :
    ∃ levels db', applyBatch batch db = .ok (levels, db') ∧ Applied db db' batch levels := by
  refine ⟨_, _, applyBatch_of_admissible hdb h, ?_, ?_, ?_, applied_frame batch db hdb⟩
  · rw [List.map_map]
    refine List.map_congr_left fun m hm => ?_
    simp [toNat_moved (h m hm)]
  · intro l hl
    obtain ⟨m, hm, rfl⟩ := List.mem_map.mp hl
    rw [quantity_eq_onHand (holdsQuantities_applied hdb batch).stock (h m hm).short,
      onHand_applied_of_mem h hm]
  · intro key hkey
    rcases Nat.lt_or_ge StockKey.maxWarehouseLength key.warehouse.bytes.length with hl | hl
    · rw [quantity_eq_error hl, quantity_eq_error hl]
    · rw [quantity_eq_onHand (holdsQuantities_applied hdb batch).stock hl,
        quantity_eq_onHand hdb.stock hl, onHand_applied_of_not_mem h hkey]

theorem refused_of_not_admissible {db : Database} (hdb : db.HoldsQuantities) {batch : Batch}
    (hroom : batch.HasRoom) (h : ¬ ∀ m ∈ batch.toList, Admissible (onHand db m.1) m) :
    ∃ m, FirstRefused db batch m ∧ applyBatch batch db = .error (fault (onHand db m.1) m) := by
  obtain ⟨m, hm⟩ := exists_firstRefused h
  exact ⟨m, hm, applyBatch_of_not_admissible hdb.stock hm.mem
    (fitsInt128_of_hasRoom hroom _ hm.mem) hm.refused hm.first⟩

variable {σ : Type}

/-- In every reachable database, a batch is an all-or-nothing update of the map from keys to
quantities, and a single movement is the batch of that movement. -/
theorem applyBatch_refines {hook : LedgerHook σ} {world : Database × σ}
    (h : Reachable hook anyOperation world) {batch : Batch} (hroom : batch.HasRoom) :
    (∀ key : StockKey, key.warehouse.bytes.length ≤ StockKey.maxWarehouseLength →
      quantity key world.1 = .ok (onHand world.1 key)) ∧
    ((∀ m ∈ batch.toList, Admissible (onHand world.1 m.1) m) →
      ∃ levels db', UnitOfWork.commit (applyBatch batch) world.1 = (.ok levels, db') ∧
        Applied world.1 db' batch levels) ∧
    ((¬ ∀ m ∈ batch.toList, Admissible (onHand world.1 m.1) m) →
      ∃ m, FirstRefused world.1 batch m ∧
        UnitOfWork.commit (applyBatch batch) world.1 =
          (.error (fault (onHand world.1 m.1) m), world.1)) ∧
    ∀ (key : StockKey) (delta : Int), fitsInt64 delta = true →
      (Admissible (onHand world.1 key) (key, delta) →
        ∃ q db', UnitOfWork.commit (applyDelta key delta) world.1 = (.ok q, db') ∧
          Applied world.1 db' (.ofList [(key, delta)]) [⟨key, q⟩]) ∧
      (¬ Admissible (onHand world.1 key) (key, delta) →
        UnitOfWork.commit (applyDelta key delta) world.1 =
          (.error (fault (onHand world.1 key) (key, delta)), world.1)) := by
  have hdb := h.integrity.quantities
  refine ⟨fun key hl => quantity_eq_onHand hdb.stock hl, fun hall => ?_, fun hbad => ?_,
    fun key delta hdelta => ?_⟩
  · obtain ⟨levels, db', happly, happlied⟩ := applied_of_admissible hdb hall
    exact ⟨levels, db', by simp [UnitOfWork.commit, happly], happlied⟩
  · obtain ⟨m, hm, happly⟩ := refused_of_not_admissible hdb hroom hbad
    exact ⟨m, hm, by simp [UnitOfWork.commit, happly]⟩
  · have hlist : (Batch.ofList [(key, delta)]).toList = [(key, delta)] := by
      show [(key, 0 + delta)] = _
      rw [Int.zero_add]
    constructor
    · intro hadm
      have hall : ∀ m ∈ (Batch.ofList [(key, delta)]).toList,
          Admissible (onHand world.1 m.1) m := by
        rw [hlist]
        simpa using hadm
      obtain ⟨levels, db', happly, happlied⟩ := applied_of_admissible hdb hall
      have hlevels := applyBatch_of_admissible hdb hall
      rw [happly, hlist] at hlevels
      cases hlevels
      refine ⟨moved (onHand world.1 key) delta, _, ?_, happlied⟩
      simp [UnitOfWork.commit, applyDelta, happly, bind, Except.bind, pure, Except.pure]
    · intro hbad
      have hfits : fitsInt128 ((onHand world.1 key).toNat + delta) = true := by
        have hq := (onHand world.1 key).toNat_lt
        simp only [fitsInt64, decide_eq_true_eq] at hdelta
        simp only [fitsInt128, decide_eq_true_eq]
        omega
      have happly : applyBatch (.ofList [(key, delta)]) world.1 =
          .error (fault (onHand world.1 key) (key, delta)) := by
        refine applyBatch_of_not_admissible hdb.stock (m := (key, delta)) (by simp [hlist]) hfits
          hbad fun m' hm' hlt => ?_
        rw [hlist] at hm'
        rw [List.mem_singleton.mp hm', SortedMap.compare_eq_iff.mpr rfl] at hlt
        cases hlt
      simp [UnitOfWork.commit, applyDelta, happly, bind, Except.bind]

/-- Three rows in two warehouses. -/
def shelves : List Operation :=
  [.stock (.applyDelta ⟨⟨"w"⟩, ⟨"q"⟩⟩ 2), .stock (.applyDelta ⟨⟨"v"⟩, ⟨"p"⟩⟩ 1),
    .stock (.applyDelta ⟨⟨"w"⟩, ⟨"p"⟩⟩ 5)]

theorem reachable_shelves : Reachable .silent anyOperation
    (runAll LedgerHook.silent.run shelves ((∅, ()) : Database × Unit)) := by
  refine .runAll ?_ (fun _ _ _ => trivial) (.start ())
  simp only [shelves, List.forall_mem_cons, Operation.Fits]
  exact ⟨by decide, by decide, by decide, by simp⟩

/-- One row grows, one is emptied, and one is taken from twice. -/
def takings : Batch :=
  .ofList [(⟨⟨"w"⟩, ⟨"p"⟩⟩, -1), (⟨⟨"v"⟩, ⟨"p"⟩⟩, 4), (⟨⟨"w"⟩, ⟨"q"⟩⟩, -2), (⟨⟨"w"⟩, ⟨"p"⟩⟩, -2)]

/-- The first row has what is taken from it; the other two have not. -/
def overdrafts : Batch :=
  .ofList [(⟨⟨"w"⟩, ⟨"q"⟩⟩, -9), (⟨⟨"w"⟩, ⟨"p"⟩⟩, -6), (⟨⟨"v"⟩, ⟨"p"⟩⟩, -1)]

/-- Units are put in and taken at three keys at once. Where two keys lack what is asked for, the
first of them is told and nothing is taken, not even where it would be there. -/
theorem applyBatch_refines_taking :
    ∃ world : Database × Unit, Reachable .silent anyOperation world ∧
      takings.HasRoom ∧ overdrafts.HasRoom ∧
      (∃ db', UnitOfWork.commit (applyBatch takings) world.1 =
          (.ok [⟨⟨⟨"v"⟩, ⟨"p"⟩⟩, 5⟩, ⟨⟨⟨"w"⟩, ⟨"p"⟩⟩, 2⟩, ⟨⟨⟨"w"⟩, ⟨"q"⟩⟩, 0⟩], db') ∧
        Applied world.1 db' takings
          [⟨⟨⟨"v"⟩, ⟨"p"⟩⟩, 5⟩, ⟨⟨⟨"w"⟩, ⟨"p"⟩⟩, 2⟩, ⟨⟨⟨"w"⟩, ⟨"q"⟩⟩, 0⟩]) ∧
      FirstRefused world.1 overdrafts (⟨⟨"w"⟩, ⟨"p"⟩⟩, -6) ∧
      UnitOfWork.commit (applyBatch overdrafts) world.1 =
        (.error (.refused (.insufficient ⟨⟨"w"⟩, ⟨"p"⟩, 5, 6⟩)), world.1) := by
  have htakings : takings.HasRoom := by decide
  have hoverdrafts : overdrafts.HasRoom := by decide
  have hlevels : (UnitOfWork.commit (applyBatch takings)
      (runAll LedgerHook.silent.run shelves ((∅, ()) : Database × Unit)).1).1 =
        .ok [⟨⟨⟨"v"⟩, ⟨"p"⟩⟩, 5⟩, ⟨⟨⟨"w"⟩, ⟨"p"⟩⟩, 2⟩, ⟨⟨⟨"w"⟩, ⟨"q"⟩⟩, 0⟩] := by decide +kernel
  obtain ⟨levels, db', htaken, happlied⟩ :=
    (applyBatch_refines reachable_shelves htakings).2.1 (by decide +kernel)
  rw [htaken] at hlevels
  cases hlevels
  obtain ⟨m, hm, hrefused⟩ :=
    (applyBatch_refines reachable_shelves hoverdrafts).2.2.1 (by decide +kernel)
  -- of the three movements one is admissible, and one lacks more behind the one that is told
  have hmem : overdrafts.toList =
      [(⟨⟨"v"⟩, ⟨"p"⟩⟩, -1), (⟨⟨"w"⟩, ⟨"p"⟩⟩, -6), (⟨⟨"w"⟩, ⟨"q"⟩⟩, -9)] := by decide +kernel
  have hcases := hm.mem
  rw [hmem] at hcases
  simp only [List.mem_cons, List.not_mem_nil, or_false] at hcases
  rcases hcases with rfl | rfl | rfl
  · exact absurd (by decide +kernel) hm.refused
  · exact ⟨_, reachable_shelves, htakings, hoverdrafts, ⟨db', htaken, happlied⟩, hm, hrefused⟩
  · exact absurd (hm.first (⟨⟨"w"⟩, ⟨"p"⟩⟩, -6) (by simp [hmem]) (by decide +kernel))
      (by decide +kernel)

end Stock

end Depot
