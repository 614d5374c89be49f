import Depot.Proofs.Table
import Depot.Proofs.Stock.Batch
import Depot.Proofs.Stock.Frame
/-!
# Planning a batch

A plan looks at one key after the other and ends at the first that is refused. Where the stock
table holds quantities, a movement is planned exactly if it is `Admissible`: the warehouse
identifier fits a key, and the sum of quantity and net movement is a 64-bit number.

`plan_of_admissible` and `plan_of_refused` say what a plan of any length comes to.
-/

namespace Depot.Stock

/-! ## One key -/

/-- The warehouse identifier fits a key, and the sum of quantity and net movement is a 64-bit
number. -/
structure Admissible (quantity : UInt64) (m : StockKey × Int) : Prop where
  short : m.1.warehouse.bytes.length ≤ StockKey.maxWarehouseLength
  nonneg : 0 ≤ (quantity.toNat : Int) + m.2
  fits : (quantity.toNat : Int) + m.2 ≤ maxUInt64

instance (quantity : UInt64) (m : StockKey × Int) : Decidable (Admissible quantity m) :=
  decidable_of_iff (m.1.warehouse.bytes.length ≤ StockKey.maxWarehouseLength ∧
      0 ≤ (quantity.toNat : Int) + m.2 ∧ (quantity.toNat : Int) + m.2 ≤ maxUInt64)
    ⟨fun ⟨hs, hn, hf⟩ => ⟨hs, hn, hf⟩, fun h => ⟨h.short, h.nonneg, h.fits⟩⟩

/-- Why a movement that is not admissible is refused. -/
def fault (quantity : UInt64) (m : StockKey × Int) : StockError :=
  if StockKey.maxWarehouseLength < m.1.warehouse.bytes.length then
    .store (.keyTooLong m.1.warehouse.bytes.length)
  else if (quantity.toNat : Int) + m.2 < 0 then
    .refused (.insufficient ⟨m.1.warehouse, m.1.product, quantity, clamp m.2.natAbs⟩)
  else .refused (.overflow m.1)

/-- The quantity behind an admissible movement. -/
def moved (quantity : UInt64) (delta : Int) : UInt64 :=
  UInt64.ofNat ((quantity.toNat : Int) + delta).toNat

theorem toNat_moved {quantity : UInt64} {m : StockKey × Int} (h : Admissible quantity m) :
    ((moved quantity m.2).toNat : Int) = quantity.toNat + m.2 := by
  have hmax : maxUInt64 = 0xFFFFFFFFFFFFFFFF := rfl
  have h0 := h.nonneg
  have h1 := h.fits
  rw [moved, UInt64.toNat_ofNat']
  omega

theorem bytes?_eq_some {key : StockKey}
    (h : key.warehouse.bytes.length ≤ StockKey.maxWarehouseLength) :
    ∃ row, key.bytes? = some row := by
  simp only [StockKey.bytes?, StockKey.rowStart?, h, if_true, Option.map_some]
  exact ⟨_, rfl⟩

theorem bytes?_eq_none {key : StockKey}
    (h : StockKey.maxWarehouseLength < key.warehouse.bytes.length) : key.bytes? = none := by
  simp only [StockKey.bytes?, StockKey.rowStart?, Nat.not_le.mpr h, if_false, Option.map_none]

theorem short_of_bytes? {key : StockKey} {row : Bytes} (h : key.bytes? = some row) :
    key.warehouse.bytes.length ≤ StockKey.maxWarehouseLength := by
  rcases Nat.lt_or_ge StockKey.maxWarehouseLength key.warehouse.bytes.length with hl | hl
  · rw [bytes?_eq_none hl] at h
    cases h
  · exact hl

theorem bytes?_injective {k k' : StockKey} {row : Bytes} (h : k.bytes? = some row)
    (h' : k'.bytes? = some row) : k = k' := by
  have hk := StockKey.ofBytes?_bytes? h
  rw [StockKey.ofBytes?_bytes? h'] at hk
  exact (Option.some.inj hk).symm

/-- The quantity of a key; zero for one that has no row, or none at all. -/
def onHand (db : Database) (key : StockKey) : UInt64 :=
  match quantity key db with
  | .ok q => q
  | .error _ => 0

theorem onHand_eq_held {db : Database} {key : StockKey} {row : Bytes} (h : key.bytes? = some row) :
    onHand db key = db.stock.held row := by
  simp only [onHand, quantity, rowOf, h, Table.held, bind, Except.bind]
  cases db.stock.quantity row <;> rfl

theorem quantity_eq_onHand {db : Database} (hstock : db.stock.HoldsQuantities) {key : StockKey}
    (h : key.warehouse.bytes.length ≤ StockKey.maxWarehouseLength) :
    quantity key db = .ok (onHand db key) := by
  obtain ⟨row, hrow⟩ := bytes?_eq_some h
  rw [onHand_eq_held hrow]
  simp only [quantity, rowOf, hrow, bind, Except.bind, hstock.quantity, mapError_ok]

theorem quantity_eq_error {db : Database} {key : StockKey}
    (h : StockKey.maxWarehouseLength < key.warehouse.bytes.length) :
    quantity key db = .error (.store (.keyTooLong key.warehouse.bytes.length)) := by
  simp only [quantity, rowOf, bytes?_eq_none h, bind, Except.bind, mapError_error]

/-- The change that an admissible movement makes. -/
def changeOf (db : Database) (m : StockKey × Int) : Change :=
  ⟨m.1, m.1.bytes?.getD [], onHand db m.1, moved (onHand db m.1) m.2⟩

theorem planOne_eq {db : Database} (hstock : db.stock.HoldsQuantities) {m : StockKey × Int}
    {row : Bytes} (hrow : m.1.bytes? = some row) :
    planOne db.stock m =
      ((next m.1 (onHand db m.1) m.2).mapError .refused).map (⟨m.1, row, onHand db m.1, ·⟩) := by
  rw [onHand_eq_held hrow]
  unfold planOne rowOf
  rw [hrow]
  refine bind_ok rfl (bind_ok (by rw [hstock.quantity]; rfl) ?_)
  cases next m.1 (db.stock.held row) m.2 <;> rfl

theorem planOne_of_admissible {db : Database} (hstock : db.stock.HoldsQuantities)
    {m : StockKey × Int} (h : Admissible (onHand db m.1) m) :
    planOne db.stock m = .ok (changeOf db m) := by
  obtain ⟨row, hrow⟩ := bytes?_eq_some h.short
  have hmax : maxUInt64 = 0xFFFFFFFFFFFFFFFF := rfl
  have h0 := h.nonneg
  have h1 := h.fits
  have hfits : fitsInt128 ((onHand db m.1).toNat + m.2) = true := by
    simp only [fitsInt128, decide_eq_true_eq]
    omega
  have hnext : next m.1 (onHand db m.1) m.2 = .ok (moved (onHand db m.1) m.2) := by
    simp only [next, hfits, Bool.not_true, Bool.false_eq_true, if_false]
    rw [if_neg (by omega), if_neg (by omega), moved]
  rw [planOne_eq hstock hrow, hnext, changeOf, hrow]
  rfl

theorem planOne_of_not_admissible {db : Database} (hstock : db.stock.HoldsQuantities)
    {m : StockKey × Int} (hfits : fitsInt128 ((onHand db m.1).toNat + m.2) = true)
    (h : ¬ Admissible (onHand db m.1) m) :
    planOne db.stock m = .error (fault (onHand db m.1) m) := by
  unfold fault
  rcases Nat.lt_or_ge StockKey.maxWarehouseLength m.1.warehouse.bytes.length with hl | hl
  · rw [if_pos hl]
    unfold planOne rowOf
    rw [bytes?_eq_none hl]
    rfl
  · obtain ⟨row, hrow⟩ := bytes?_eq_some hl
    rw [if_neg (Nat.not_lt.mpr hl), planOne_eq hstock hrow, next]
    simp only [hfits, Bool.not_true, Bool.false_eq_true, if_false]
    by_cases hneg : ((onHand db m.1).toNat : Int) + m.2 < 0
    · rw [if_pos hneg, if_pos hneg]
      rfl
    · have hover : maxUInt64 < (((onHand db m.1).toNat : Int) + m.2).toNat := by
        rcases Nat.lt_or_ge maxUInt64 (((onHand db m.1).toNat : Int) + m.2).toNat with ho | ho
        · exact ho
        · exact absurd ⟨hl, by omega, by omega⟩ h
      rw [if_neg hneg, if_neg hneg, if_pos hover]
      rfl

theorem planOne_of_outOfRange {db : Database} (hstock : db.stock.HoldsQuantities)
    {m : StockKey × Int} (hshort : m.1.warehouse.bytes.length ≤ StockKey.maxWarehouseLength)
    (hout : fitsInt128 ((onHand db m.1).toNat + m.2) = false) :
    planOne db.stock m = .error (.refused (.outOfRange m.1)) := by
  obtain ⟨row, hrow⟩ := bytes?_eq_some hshort
  rw [planOne_eq hstock hrow, next]
  simp only [hout, Bool.not_false, if_true]
  rfl

/-- The stock falls short of a movement, and the shortfall tells what is there and what was asked
for. -/
structure FallsShort (db : Database) (m : StockKey × Int) (s : Shortfall) : Prop where
  short : m.1.warehouse.bytes.length ≤ StockKey.maxWarehouseLength
  lacks : ((onHand db m.1).toNat : Int) + m.2 < 0
  told : s = ⟨m.1.warehouse, m.1.product, onHand db m.1, clamp m.2.natAbs⟩

theorem fallsShort_of_planOne {db : Database} (hstock : db.stock.HoldsQuantities)
    {m : StockKey × Int} {s : Shortfall}
    (h : planOne db.stock m = .error (.refused (.insufficient s))) : FallsShort db m s := by
  cases hrow : m.1.bytes? with
  | none => simp [planOne, rowOf, hrow, bind, Except.bind] at h
  | some row =>
    rw [planOne_eq hstock hrow, next] at h
    split at h
    · cases h
    · split at h
      · rename_i hlacks
        cases h
        exact ⟨short_of_bytes? hrow, hlacks, rfl⟩
      · split at h <;> cases h

/-! ## The whole batch -/

theorem plan_of_admissible {db : Database} (hstock : db.stock.HoldsQuantities) {batch : Batch}
    (h : ∀ m ∈ batch.toList, Admissible (onHand db m.1) m) :
    plan db.stock batch = .ok (batch.toList.map (changeOf db)) :=
  mapM_eq_ok fun m hm => planOne_of_admissible hstock (h m hm)

/-- The least key whose movement is refused decides the error. -/
theorem plan_of_refused {db : Database} (hstock : db.stock.HoldsQuantities) {batch : Batch}
    {m : StockKey × Int} (hm : m ∈ batch.toList) {e : StockError}
    (hfail : planOne db.stock m = .error e)
    (hleast : ∀ m' ∈ batch.toList, compare m'.1 m.1 = .lt → Admissible (onHand db m'.1) m') :
    plan db.stock batch = .error e := by
  obtain ⟨before, behind, hsplit, hbefore⟩ := Batch.exists_split hm
  unfold plan
  rw [hsplit]
  refine mapM_append_cons_eq_error (fun m' hm' => ?_) hfail
  obtain ⟨hmem, hlt⟩ := hbefore m' hm'
  exact ⟨_, planOne_of_admissible hstock (hleast m' hmem hlt)⟩

theorem admissible_of_planOne {db : Database} (hstock : db.stock.HoldsQuantities)
    {m : StockKey × Int} {c : Change} (h : planOne db.stock m = .ok c) :
    Admissible (onHand db m.1) m := by
  obtain ⟨row, hrow, h⟩ := bind_eq_ok h
  obtain ⟨before, hbefore, h⟩ := bind_eq_ok h
  obtain ⟨after, hafter, -⟩ := bind_eq_ok h
  have hbytes : m.1.bytes? = some row := by
    have hrow := mapError_eq_ok hrow
    unfold rowOf at hrow
    split at hrow
    · rename_i hbytes
      cases hrow
      exact hbytes
    · cases hrow
  have hbefore := mapError_eq_ok hbefore
  rw [hstock.quantity, ← onHand_eq_held hbytes] at hbefore
  cases hbefore
  have hafter := mapError_eq_ok hafter
  unfold next at hafter
  dsimp only at hafter
  split at hafter
  · cases hafter
  · split at hafter
    · cases hafter
    · split at hafter
      · cases hafter
      · exact ⟨short_of_bytes? hbytes, by omega, by omega⟩

/-- A batch that is planned has admissible movements only. -/
theorem admissible_of_plan {db : Database} (hstock : db.stock.HoldsQuantities) {batch : Batch}
    {changes : List Change} (h : plan db.stock batch = .ok changes) :
    ∀ m ∈ batch.toList, Admissible (onHand db m.1) m := by
  intro m hm
  obtain ⟨c, hc⟩ := forall_of_mapM_eq_ok h m hm
  exact admissible_of_planOne hstock hc

end Depot.Stock
