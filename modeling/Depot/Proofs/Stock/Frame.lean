import Depot.Proofs.Steps
import Depot.Stock.Store
/-!
# A batch writes stock and occupancy only

Applying a batch leaves every other table as it is (`applyBatch_frame`), and moving one key is
applying the batch of that one movement (`applyDelta_eq_ok`).
-/

namespace Depot.Stock

theorem Change.write_frame {db db' : Database} {c : Change} (h : c.write db = .ok db') :
    db' = { db with stock := db'.stock, occupancy := db'.occupancy } := by
  unfold Change.write at h
  by_cases hm : c.movesOccupancy = true
  · simp only [hm, if_true] at h
    obtain ⟨count, -, h⟩ := bind_eq_ok h
    cases h
    rfl
  · simp only [hm] at h
    cases h
    rfl

theorem foldlM_write_frame {changes : List Change} {db db' : Database}
    (h : changes.foldlM Change.write db = .ok db') :
    db' = { db with stock := db'.stock, occupancy := db'.occupancy } := by
  induction changes generalizing db with
  | nil =>
    cases h
    rfl
  | cons c changes ih =>
    rw [List.foldlM_cons] at h
    obtain ⟨mid, hmid, h⟩ := bind_eq_ok h
    rw [ih h, Change.write_frame hmid]

/-- A batch that is applied was planned and written. -/
theorem applyBatch_eq_ok {batch : Batch} {db db' : Database} {levels : List StockLevel}
    (h : applyBatch batch db = .ok (levels, db')) :
    ∃ changes, plan db.stock batch = .ok changes ∧ changes.foldlM Change.write db = .ok db' ∧
      levels = changes.map Change.level := by
  obtain ⟨changes, hplan, h⟩ := bind_eq_ok h
  obtain ⟨db₁, hwrite, h⟩ := bind_eq_ok h
  cases h
  exact ⟨changes, hplan, mapError_eq_ok hwrite, rfl⟩

theorem applyBatch_frame {batch : Batch} {db db' : Database} {levels : List StockLevel}
    (h : applyBatch batch db = .ok (levels, db')) :
    db' = { db with stock := db'.stock, occupancy := db'.occupancy } := by
  obtain ⟨changes, -, hwrite, -⟩ := applyBatch_eq_ok h
  exact foldlM_write_frame hwrite

theorem applyDelta_eq_ok {key : StockKey} {delta : Int} {db db' : Database} {quantity : UInt64}
    (h : applyDelta key delta db = .ok (quantity, db')) :
    ∃ levels, applyBatch (.ofList [(key, delta)]) db = .ok (levels, db') := by
  obtain ⟨⟨levels, db₁⟩, hbatch, h⟩ := bind_eq_ok h
  cases h
  exact ⟨levels, hbatch⟩

end Depot.Stock
