import Depot.Proofs.SortedMap
import Depot.Range
import Depot.Stock.Batch
/-!
# Net movements

The batch of a list of movements has the keys that were moved, and nets the movements of each.
-/

namespace Depot.Batch

/-- What a movement adds to the net movement of a key. -/
def share (key : StockKey) (m : StockKey × Int) : Int := if m.1 = key then m.2 else 0

theorem net_foldl (moves : List (StockKey × Int)) (b : Batch) (key : StockKey) :
    (moves.foldl (fun b m => b.push m.1 m.2) b).net key =
      b.net key + (moves.map (share key)).sum := by
  induction moves generalizing b with
  | nil => simp
  | cons m moves ih =>
    have hshare : (if key = m.1 then m.2 else 0) = share key m := by
      unfold share
      by_cases h : m.1 = key
      · simp [h]
      · simp [h, Ne.symm h]
    rw [List.foldl_cons, ih, net_push, hshare, List.map_cons, List.sum_cons]
    omega

/-- The net movement of a key is the sum of its movements. -/
theorem net_ofList (moves : List (StockKey × Int)) (key : StockKey) :
    (ofList moves).net key = (moves.map (share key)).sum := by
  have hempty : net ∅ key = 0 := rfl
  rw [ofList, net_foldl, hempty, Int.zero_add]

theorem isSome_get?_foldl_iff {moves : List (StockKey × Int)} {b : Batch} {key : StockKey} :
    ((moves.foldl (fun b m => b.push m.1 m.2) b).nets.get? key).isSome ↔
      (b.nets.get? key).isSome ∨ ∃ m ∈ moves, m.1 = key := by
  induction moves generalizing b with
  | nil => simp
  | cons m moves ih =>
    rw [List.foldl_cons, ih, get?_push]
    by_cases h : m.1 = key
    · simp [h]
    · have hne : compare key m.1 ≠ .eq := fun hc => h (SortedMap.compare_eq_iff.mp hc).symm
      simp [h, hne]

/-- A batch has the keys that were moved. -/
theorem isSome_get?_ofList_iff {moves : List (StockKey × Int)} {key : StockKey} :
    ((ofList moves).nets.get? key).isSome ↔ ∃ m ∈ moves, m.1 = key := by
  rw [ofList, isSome_get?_foldl_iff]
  exact or_iff_right Bool.false_ne_true

/-- The entries of a batch are its keys with their net movements. -/
theorem mem_toList_iff {b : Batch} {m : StockKey × Int} :
    m ∈ b.toList ↔ (b.nets.get? m.1).isSome ∧ m.2 = b.net m.1 := by
  have hmem : m ∈ b.toList ↔ b.nets.get? m.1 = some m.2 := SortedMap.mem_toList_iff
  rw [hmem, net]
  cases b.nets.get? m.1 <;> simp [eq_comm]

theorem mem_ofList_iff {moves : List (StockKey × Int)} {m : StockKey × Int} :
    m ∈ (ofList moves).toList ↔
      (∃ m' ∈ moves, m'.1 = m.1) ∧ m.2 = (ofList moves).net m.1 := by
  rw [mem_toList_iff, isSome_get?_ofList_iff]

/-- Every key of a batch was moved, and stands there with its net movement. -/
theorem mem_ofList {moves : List (StockKey × Int)} {m : StockKey × Int}
    (h : m ∈ (ofList moves).toList) :
    (∃ m' ∈ moves, m'.1 = m.1) ∧ m.2 = (ofList moves).net m.1 :=
  mem_ofList_iff.mp h

theorem exists_mem_toList_iff {b : Batch} {key : StockKey} :
    (∃ m ∈ b.toList, m.1 = key) ↔ (b.nets.get? key).isSome := by
  constructor
  · rintro ⟨m, hm, rfl⟩
    exact (mem_toList_iff.mp hm).1
  · intro h
    exact ⟨(key, b.net key), mem_toList_iff.mpr ⟨h, rfl⟩, rfl⟩

/-- Batches with the same entries are equal. -/
theorem ext_toList {a b : Batch} (h : ∀ m, m ∈ a.toList ↔ m ∈ b.toList) : a = b := by
  obtain ⟨a⟩ := a
  obtain ⟨b⟩ := b
  refine congrArg Batch.mk (SortedMap.ext_get? fun key => Option.ext fun delta => ?_)
  rw [← SortedMap.mem_toList_iff, ← SortedMap.mem_toList_iff]
  exact h (key, delta)

/-- The entries of a batch move a key by its net movement. -/
theorem sum_share (b : Batch) (key : StockKey) : (b.toList.map (share key)).sum = b.net key := by
  have hlist {l : List (StockKey × Int)} (hl : l.Pairwise fun m m' => compare m.1 m'.1 = .lt) :
      (l.map (share key)).sum = (SortedMap.findEntry key l).getD 0 := by
    induction l with
    | nil => rfl
    | cons m rest ih =>
      obtain ⟨hm, hrest⟩ := List.pairwise_cons.mp hl
      rw [List.map_cons, List.sum_cons, ih hrest]
      by_cases hkey : m.1 = key
      · subst hkey
        simp [SortedMap.findEntry, share, SortedMap.findEntry_eq_none hm]
      · have hne : compare key m.1 ≠ .eq := fun hc => hkey (SortedMap.compare_eq_iff.mp hc).symm
        simp [SortedMap.findEntry, share, hkey, hne]
  exact hlist b.nets.increasing

/-- A batch of one movement nets it. -/
theorem toList_ofList_single (key : StockKey) (delta : Int) :
    (ofList [(key, delta)]).toList = [(key, delta)] := by
  show [(key, 0 + delta)] = _
  rw [Int.zero_add]

/-- The movements before one of the batch are those of the keys before its key. -/
theorem exists_split {batch : Batch} {m : StockKey × Int} (hm : m ∈ batch.toList) :
    ∃ before behind, batch.toList = before ++ m :: behind ∧
      ∀ m' ∈ before, m' ∈ batch.toList ∧ compare m'.1 m.1 = .lt := by
  obtain ⟨before, behind, hsplit⟩ := List.append_of_mem hm
  have hpairs := batch.nets.increasing
  have hlist : batch.nets.toList = before ++ m :: behind := hsplit
  rw [hlist, List.pairwise_append] at hpairs
  refine ⟨before, behind, hsplit, fun m' hm' => ⟨?_, hpairs.2.2 m' hm' m List.mem_cons_self⟩⟩
  rw [hsplit]
  exact List.mem_append_left _ hm'

/-! ## Sums over a batch -/

theorem sum_push (weight : StockKey → Int) (b : Batch) (key : StockKey) (delta : Int) :
    (b.push key delta).nets.sum (fun m => weight m.1 * m.2) =
      b.nets.sum (fun m => weight m.1 * m.2) + weight key * delta := by
  have hold : SortedMap.part (fun m => weight m.1 * m.2) key (b.nets.get? key) =
      weight key * b.net key := by
    rw [net]
    cases b.nets.get? key <;> simp [SortedMap.part]
  rw [push, SortedMap.sum_insert, hold]
  simp only [Int.mul_add]
  omega

/-- Netting keeps every sum in which a key has one weight for all of its movements. -/
theorem sum_ofList (weight : StockKey → Int) (moves : List (StockKey × Int)) :
    (ofList moves).nets.sum (fun m => weight m.1 * m.2) =
      (moves.map fun m => weight m.1 * m.2).sum := by
  have hfold (b : Batch) : (moves.foldl (fun b m => b.push m.1 m.2) b).nets.sum
      (fun m => weight m.1 * m.2) =
        b.nets.sum (fun m => weight m.1 * m.2) + (moves.map fun m => weight m.1 * m.2).sum := by
    induction moves generalizing b with
    | nil => simp
    | cons m moves ih =>
      rw [List.foldl_cons, ih, sum_push, List.map_cons, List.sum_cons]
      omega
  have hempty : (∅ : Batch).nets.sum (fun m => weight m.1 * m.2) = 0 := rfl
  rw [ofList, hfold, hempty, Int.zero_add]

/-! ## Room -/

/-- The net movements leave room for a quantity in 128 bits with a sign. -/
def HasRoom (batch : Batch) : Prop :=
  ∀ m ∈ batch.toList, -0x80000000000000000000000000000000 ≤ m.2 ∧
    m.2 ≤ 0x7FFFFFFFFFFFFFFFFFFFFFFFFFFFFFFF - (maxUInt64 : Int)

instance : DecidablePred HasRoom := fun batch => inferInstanceAs <|
  Decidable (∀ m ∈ batch.toList, -0x80000000000000000000000000000000 ≤ m.2 ∧
    m.2 ≤ 0x7FFFFFFFFFFFFFFFFFFFFFFFFFFFFFFF - (maxUInt64 : Int))

end Depot.Batch
