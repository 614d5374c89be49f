import Depot.Proofs.Posting
/-!
# The sums that a batch computes

A batch adds to the quantity of a key its net movement, key after key, up to the first that it
refuses. The sum is checked against the range of quantities, but it is computed in 128 bits with a
sign, and net movements may be any numbers of that width. So a sum may itself be out of range: with
a unit on hand, the greatest movement of all gives one (`outOfRange_of_greatest`), and the batch is
not refused because the quantity would overflow.

`exactSums_iff` says when this happens. A sum that is admissible fits 64 bits, and one that is
negative is no less than the movement; so of all the sums that a batch computes only that of the
first refused movement can be out of range, and only above.
-/

namespace Depot

/-- The largest number of 128 bits with a sign. -/
def maxInt128 : Nat := 0x7FFFFFFFFFFFFFFFFFFFFFFFFFFFFFFF

namespace Stock

/-- The exact sum of what is on hand of a key and its net movement. -/
def sumOf (db : Database) (m : StockKey × Int) : Int := (onHand db m.1).toNat + m.2

/-- The sum of the movement is computed: all movements of lesser keys are admissible, and its
warehouse has an identifier that fits a key. -/
structure Visited (db : Database) (batch : Batch) (m : StockKey × Int) : Prop where
  mem : m ∈ batch.toList
  short : m.1.warehouse.bytes.length ≤ StockKey.maxWarehouseLength
  passed : ∀ m' ∈ batch.toList, compare m'.1 m.1 = .lt → Admissible (onHand db m'.1) m'

/-- The movement is the first that is not admissible, and its sum is the reason. -/
structure SumRefused (db : Database) (batch : Batch) (m : StockKey × Int) : Prop
    extends FirstRefused db batch m where
  short : m.1.warehouse.bytes.length ≤ StockKey.maxWarehouseLength

/-- Every sum that the batch computes is in range, and one that is no quantity is reported as what
it is, with nothing written. -/
structure ExactSums (db : Database) (batch : Batch) : Prop where
  computed : ∀ m, Visited db batch m → fitsInt128 (sumOf db m) = true
  above : ∀ m, SumRefused db batch m → maxUInt64 < sumOf db m →
    UnitOfWork.commit (applyBatch batch) db = (.error (.refused (.overflow m.1)), db)
  below : ∀ m, SumRefused db batch m → sumOf db m < 0 →
    ∃ s, UnitOfWork.commit (applyBatch batch) db = (.error (.refused (.insufficient s)), db)

/-! ## Ranges -/

/-- The sum of a quantity and a number of 128 bits with a sign can be out of range only above. -/
theorem fitsInt128_add {quantity : UInt64} {delta : Int} (h : fitsInt128 delta = true) :
    fitsInt128 (quantity.toNat + delta) = true ↔ quantity.toNat + delta ≤ maxInt128 := by
  have hmax : maxInt128 = 0x7FFFFFFFFFFFFFFFFFFFFFFFFFFFFFFF := rfl
  simp only [fitsInt128, decide_eq_true_eq] at h ⊢
  omega

theorem Admissible.fitsInt128 {quantity : UInt64} {m : StockKey × Int}
    (h : Admissible quantity m) : fitsInt128 (quantity.toNat + m.2) = true := by
  have hmax : maxUInt64 = 0xFFFFFFFFFFFFFFFF := rfl
  have hnonneg := h.nonneg
  have hfits := h.fits
  simp only [Depot.fitsInt128, decide_eq_true_eq]
  omega

/-! ## The refused sum -/

section Refused

variable {db : Database} {batch : Batch} {m : StockKey × Int}

theorem SumRefused.visited (h : SumRefused db batch m) : Visited db batch m :=
  ⟨h.mem, h.short, h.first⟩

/-- A sum that was computed is admissible, or the first that is refused. -/
theorem Visited.admissible_or_refused (h : Visited db batch m) :
    Admissible (onHand db m.1) m ∨ SumRefused db batch m := by
  by_cases hadm : Admissible (onHand db m.1) m
  · exact .inl hadm
  · exact .inr ⟨⟨h.mem, hadm, h.passed⟩, h.short⟩

/-- The refusal of a sum in range. -/
theorem SumRefused.commit_eq (h : SumRefused db batch m) (hstock : db.stock.HoldsQuantities)
    (hfits : fitsInt128 (sumOf db m) = true) :
    UnitOfWork.commit (applyBatch batch) db = (.error (fault (onHand db m.1) m), db) := by
  simp [UnitOfWork.commit, applyBatch_of_not_admissible hstock h.mem hfits h.refused h.first]

/-- The refusal of a sum out of range. -/
theorem SumRefused.commit_of_outOfRange (h : SumRefused db batch m)
    (hstock : db.stock.HoldsQuantities) (hout : fitsInt128 (sumOf db m) = false) :
    UnitOfWork.commit (applyBatch batch) db = (.error (.refused (.outOfRange m.1)), db) := by
  simp [UnitOfWork.commit, applyBatch_of_outOfRange hstock h.mem h.short hout h.first]

theorem SumRefused.fault_eq (h : SumRefused db batch m) :
    fault (onHand db m.1) m =
      if sumOf db m < 0 then
        .refused (.insufficient ⟨m.1.warehouse, m.1.product, onHand db m.1, clamp m.2.natAbs⟩)
      else .refused (.overflow m.1) := by
  rw [fault, if_neg (Nat.not_lt.mpr h.short), sumOf]

/-- Where the sum of the first refused movement is in range, so are all, and the refusal says on
which side of the range of quantities it is. -/
theorem exactSums_of_fits (hstock : db.stock.HoldsQuantities)
    (hfits : ∀ m, SumRefused db batch m → fitsInt128 (sumOf db m) = true) :
    ExactSums db batch where
  computed m hm := by
    rcases hm.admissible_or_refused with hadm | hrefused
    · exact hadm.fitsInt128
    · exact hfits m hrefused
  above m hm habove := by
    rw [hm.commit_eq hstock (hfits m hm), hm.fault_eq, if_neg (by omega)]
  below m hm hbelow := by
    rw [hm.commit_eq hstock (hfits m hm), hm.fault_eq, if_pos hbelow]
    exact ⟨_, rfl⟩

end Refused

variable {σ : Type} {hook : LedgerHook σ} {world : Database × σ}

/-- In every reachable database, and for all net movements of 128 bits with a sign: a batch
computes exact sums, unless that of the first refused movement is above the range. Then this is what
is reported, and nothing is written either. -/
theorem exactSums_iff (h : Reachable hook anyOperation world) {batch : Batch}
    (hnets : ∀ m ∈ batch.toList, fitsInt128 m.2 = true) :
    (ExactSums world.1 batch ↔
        ∀ m, SumRefused world.1 batch m → sumOf world.1 m ≤ maxInt128) ∧
      ∀ m, SumRefused world.1 batch m → maxInt128 < sumOf world.1 m →
        UnitOfWork.commit (applyBatch batch) world.1 =
          (.error (.refused (.outOfRange m.1)), world.1) := by
  have hstock := h.integrity.stock
  have hrange (m : StockKey × Int) (hm : SumRefused world.1 batch m) :
      fitsInt128 (sumOf world.1 m) = true ↔ sumOf world.1 m ≤ maxInt128 :=
    fitsInt128_add (hnets m hm.mem)
  refine ⟨⟨fun hexact m hm => ?_, fun hle => ?_⟩, fun m hm hout => ?_⟩
  · exact (hrange m hm).mp (hexact.computed m hm.visited)
  · exact exactSums_of_fits hstock fun m hm => (hrange m hm).mpr (hle m hm)
  · refine hm.commit_of_outOfRange hstock ?_
    rw [← Bool.not_eq_true, hrange m hm]
    omega

/-- One unit is on hand. -/
def oneUnit : Database × Unit :=
  ((Operation.stock (.applyDelta ⟨⟨"w"⟩, ⟨"p"⟩⟩ 1)).run LedgerHook.silent.run (∅, ())).2

theorem reachable_oneUnit : Reachable .silent anyOperation oneUnit :=
  .step (.start ()) rfl trivial

/-- A movement by which the quantity overflows. -/
theorem exactSums_iff_oneUnit :
    let batch := Batch.ofList [(⟨⟨"w"⟩, ⟨"p"⟩⟩, 18446744073709551616)]
    Reachable .silent anyOperation oneUnit ∧ (∀ m ∈ batch.toList, fitsInt128 m.2 = true) ∧
      ExactSums oneUnit.1 batch ∧
      UnitOfWork.commit (applyBatch batch) oneUnit.1 =
        (.error (.refused (.overflow ⟨⟨"w"⟩, ⟨"p"⟩⟩)), oneUnit.1) := by
  intro batch
  have hnets : ∀ m ∈ batch.toList, fitsInt128 m.2 = true := by decide
  have hsums : ∀ m ∈ batch.toList, sumOf oneUnit.1 m ≤ maxInt128 := by decide +kernel
  have hexact : ExactSums oneUnit.1 batch :=
    (exactSums_iff reachable_oneUnit hnets).1.mpr fun m hm => hsums m hm.mem
  have hrefused : SumRefused oneUnit.1 batch (⟨⟨"w"⟩, ⟨"p"⟩⟩, 18446744073709551616) :=
    ⟨⟨by decide, by decide +kernel, by decide +kernel⟩, by decide⟩
  exact ⟨reachable_oneUnit, hnets, hexact, hexact.above _ hrefused (by decide +kernel)⟩

/-- The greatest movement gives a sum out of range, and no overflow is reported. -/
theorem outOfRange_of_greatest :
    let key : StockKey := ⟨⟨"w"⟩, ⟨"p"⟩⟩
    let batch := Batch.ofList [(key, 170141183460469231731687303715884105727)]
    Reachable .silent anyOperation oneUnit ∧ (∀ m ∈ batch.toList, fitsInt128 m.2 = true) ∧
      ∃ m, SumRefused oneUnit.1 batch m ∧ maxUInt64 < sumOf oneUnit.1 m ∧
        fitsInt128 (sumOf oneUnit.1 m) = false ∧
        (UnitOfWork.commit (applyBatch batch) oneUnit.1).1 ≠ .error (.refused (.overflow m.1)) := by
  intro key batch
  refine ⟨reachable_oneUnit, by decide, (key, 170141183460469231731687303715884105727),
    ⟨⟨by decide, by decide +kernel, by decide +kernel⟩, by decide⟩, by decide +kernel,
    by decide +kernel, by decide +kernel⟩

end Stock

end Depot
