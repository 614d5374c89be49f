import Depot.Proofs.Document.Movements
import Mathlib.Algebra.Order.BigOperators.Group.List
import Mathlib.Algebra.Order.Ring.Nat
/-!
# The batch of a valid document

A document moves each product of its lines by the exact quantity of all its lines for the product:
into its destination, out of its source, or both, as its kind says. Its batch has these movements in
the order of keys and no others, none of them of nothing; those of a transfer cancel product by
product. How the quantity of a product is spread over lines does not matter, and the sums that are
computed line by line stay far within 128 bits (`batch_is_net_movement`).

## How the proof goes

The keys of a batch are those that were moved, and the lines of a document all move the same
warehouses (`touches_of_line`). The net movement of such a key is the quantity of its product with
one sign (`net_batch`, `contribution_eq`). A valid document has no line of nothing, and a valid
transfer goes between two warehouses, so no sum is zero.
-/

namespace Depot.Document

/-! ## Keys -/

/-- The document moves stock of the warehouse. -/
def Touches (d : Document) (w : WarehouseId) : Prop :=
  match d.kind with
  | .inbound => d.destination = some w
  | .outbound | .sale => d.source = some w
  | .transfer => d.source = some w ∨ d.destination = some w

/-- The line of a document moves its product in the warehouses of the document. -/
theorem touches_of_line {d : Document} (h : d.HasSides) (line : DocumentLine) (key : StockKey) :
    (∃ m ∈ d.lineMovements line, m.1 = key) ↔
      line.product = key.product ∧ d.Touches key.warehouse := by
  obtain ⟨w, p⟩ := key
  unfold lineMovements Touches
  cases hkind : d.kind with
  | inbound => cases d.destination <;> simp [and_comm]
  | outbound | sale => cases d.source <;> simp [and_comm]
  | transfer =>
    obtain ⟨⟨source, hs⟩, destination, hd⟩ := h hkind
    simp only [hs, hd, List.mem_cons, List.not_mem_nil, or_false, exists_eq_or_imp,
      exists_eq_left, StockKey.mk.injEq, Option.some.injEq]
    rw [← or_and_right, and_comm]

theorem exists_movement_iff {d : Document} (h : d.HasSides) (key : StockKey) :
    (∃ m ∈ d.movements, m.1 = key) ↔
      (∃ line ∈ d.lines, line.product = key.product) ∧ d.Touches key.warehouse := by
  simp only [movements, List.mem_flatMap]
  constructor
  · rintro ⟨m, ⟨line, hline, hm⟩, hkey⟩
    obtain ⟨hproduct, htouches⟩ := (touches_of_line h line key).mp ⟨m, hm, hkey⟩
    exact ⟨⟨line, hline, hproduct⟩, htouches⟩
  · rintro ⟨⟨line, hline, hproduct⟩, htouches⟩
    obtain ⟨m, hm, hkey⟩ := (touches_of_line h line key).mpr ⟨hproduct, htouches⟩
    exact ⟨m, ⟨line, hline, hm⟩, hkey⟩

/-! ## Entries -/

/-- An entry of the net movements: a product of the lines, with the quantity of all its lines, into
the destination or out of the source. -/
def Moves (d : Document) (m : StockKey × Int) : Prop :=
  (∃ line ∈ d.lines, line.product = m.1.product) ∧
  match d.kind with
  | .inbound => d.destination = some m.1.warehouse ∧ m.2 = d.quantityOf m.1.product
  | .outbound | .sale => d.source = some m.1.warehouse ∧ m.2 = -d.quantityOf m.1.product
  | .transfer =>
    (d.source = some m.1.warehouse ∧ m.2 = -d.quantityOf m.1.product) ∨
      (d.destination = some m.1.warehouse ∧ m.2 = d.quantityOf m.1.product)

/-- The document has the warehouses that it moves stock in, and a transfer two different ones. -/
structure Directed (d : Document) : Prop where
  sides : d.HasSides
  apart : d.kind = .transfer → d.source ≠ d.destination

theorem directed_of_violations {d : Document} (h : d.violations = []) : d.Directed where
  sides := (sided_of_violations h).hasSides
  apart hkind := by
    have hkept : ¬ d.Breaks .sameWarehouse :=
      kept_of_valid h (by simp [hkind, DocumentKind.headerRules, DocumentKind.warehouseRules])
    obtain ⟨w, hw⟩ := (sided_of_violations h).source (by simp [hkind])
    exact fun heq => hkept ⟨by simp [hw], heq⟩

section Directed

variable {d : Document} (h : d.Directed)
include h

theorem mem_batch_iff (m : StockKey × Int) : m ∈ d.batch.toList ↔ d.Moves m := by
  obtain ⟨⟨w, p⟩, delta⟩ := m
  rw [batch, Batch.mem_ofList_iff, ← batch, exists_movement_iff h.sides, net_batch h.sides,
    contribution_eq, and_assoc, Moves]
  refine and_congr_right fun _ => ?_
  unfold Touches direction
  cases hkind : d.kind with
  | inbound => exact and_congr_right fun hw => by simp [hw]
  | outbound | sale => exact and_congr_right fun hw => by simp [hw]
  | transfer =>
    have hapart := h.apart hkind
    by_cases hsource : d.source = some w <;> by_cases hdestination : d.destination = some w <;>
      simp_all

/-- The batch depends on the products of the lines and their quantities only. -/
theorem batch_congr {lines : List DocumentLine}
    (hproducts : ∀ p, (∃ line ∈ lines, line.product = p) ↔ ∃ line ∈ d.lines, line.product = p)
    (hquantities : ∀ p, { d with lines := lines }.quantityOf p = d.quantityOf p) :
    { d with lines := lines }.batch = d.batch := by
  have hdirected : { d with lines := lines }.Directed := ⟨h.sides, h.apart⟩
  refine Batch.ext_toList fun m => ?_
  rw [mem_batch_iff hdirected, mem_batch_iff h, Moves, Moves, hproducts, hquantities]

end Directed

/-! ## Quantities -/

section Quantities

variable {d : Document}

theorem exists_line_of_quantityOf {p : ProductId} (h : d.quantityOf p ≠ 0) :
    ∃ line ∈ d.lines, line.product = p := by
  by_contra hnone
  refine h ?_
  have hnil : d.lines.filter (fun line => line.product = p) = [] :=
    List.filter_eq_nil_iff.mpr fun line hline hp => hnone ⟨line, hline, of_decide_eq_true hp⟩
  rw [quantityOf, hnil]
  rfl

/-- A valid document has no product of nothing on its lines. -/
theorem quantityOf_pos (h : d.violations = []) {p : ProductId}
    (hp : ∃ line ∈ d.lines, line.product = p) : 0 < d.quantityOf p := by
  obtain ⟨line, hline, rfl⟩ := hp
  have hmem : line.quantity.toNat ∈
      (d.lines.filter fun other => other.product = line.product).map (·.quantity.toNat) :=
    List.mem_map_of_mem (List.mem_filter.mpr ⟨hline, by simp⟩)
  exact Nat.lt_of_lt_of_le (quantity_bounds_of_valid h hline).1 (List.le_sum_of_mem hmem)

theorem ne_zero_of_moves (h : d.violations = []) {m : StockKey × Int} (hm : d.Moves m) :
    m.2 ≠ 0 := by
  have hpos := quantityOf_pos h hm.1
  have hmoves := hm.2
  split at hmoves <;> omega

/-! ## Sums -/

theorem delta_of_mem_lineMovements {line : DocumentLine} {m : StockKey × Int}
    (h : m ∈ d.lineMovements line) :
    m.2 = line.quantity.toNat ∨ m.2 = -line.quantity.toNat := by
  unfold lineMovements at h
  split at h
  · exact .inl (congrArg Prod.snd (List.mem_singleton.mp h))
  · exact .inr (congrArg Prod.snd (List.mem_singleton.mp h))
  · exact .inr (congrArg Prod.snd (List.mem_singleton.mp h))
  · rcases List.mem_pair.mp h with h | h
    · exact .inr (congrArg Prod.snd h)
    · exact .inl (congrArg Prod.snd h)
  · exact absurd h List.not_mem_nil

theorem length_lineMovements_le (line : DocumentLine) : (d.lineMovements line).length ≤ 2 := by
  unfold lineMovements
  dsimp only
  split <;> simp

theorem length_movements_le : d.movements.length ≤ 2 * d.lines.length := by
  unfold movements
  induction d.lines with
  | nil => exact Nat.le_refl _
  | cons line lines ih =>
    have hline := d.length_lineMovements_le line
    rw [List.flatMap_cons, List.length_append, List.length_cons]
    omega

/-- Every sum that is computed line by line fits 128 bits. -/
theorem fitsInt128_of_movements (h : d.violations = []) (hcount : d.lines.length ≤ maxInt64)
    (n : Nat) {m : StockKey × Int} (hm : m ∈ (Batch.ofList (d.movements.take n)).toList) :
    fitsInt128 m.2 = true := by
  -- a sum has two movements a line at most, each of them of one line's quantity at most
  have hshare : ∀ m' ∈ d.movements.take n,
      -(maxLineQuantity : Int) ≤ Batch.share m.1 m' ∧ Batch.share m.1 m' ≤ maxLineQuantity := by
    intro m' hm'
    obtain ⟨line, hline, hm'⟩ := List.mem_flatMap.mp (List.mem_of_mem_take hm')
    have hle := (quantity_bounds_of_valid h hline).2
    have hmax : maxLineQuantity = maxInt64 := rfl
    unfold Batch.share
    rcases delta_of_mem_lineMovements hm' with hdelta | hdelta <;> split <;> omega
  have hbounds := sum_bounds hshare
  have hlength : (d.movements.take n).length * maxLineQuantity ≤
      2 * 0x7FFFFFFFFFFFFFFF * 0x7FFFFFFFFFFFFFFF := by
    refine Nat.mul_le_mul_right _ ?_
    have hmax : maxInt64 = 0x7FFFFFFFFFFFFFFF := rfl
    have htake := List.length_take_le' n d.movements
    have hmovements := d.length_movements_le
    omega
  rw [← Batch.net_ofList, ← (Batch.mem_ofList hm).2] at hbounds
  simp only [fitsInt128, decide_eq_true_eq]
  omega

/-- The two sides of a transfer cancel, product by product. -/
theorem sum_transfer_eq_zero (h : d.HasSides) (hkind : d.kind = .transfer) (p : ProductId) :
    ((d.batch.toList.filter fun m => m.1.product = p).map Prod.snd).sum = 0 := by
  obtain ⟨⟨source, hs⟩, destination, hd⟩ := h hkind
  have hbatch : ((d.batch.toList.filter fun m => m.1.product = p).map Prod.snd).sum =
      d.batch.nets.sum fun m => (if m.1.product = p then 1 else 0) * m.2 := by
    simp only [SortedMap.sum, ite_mul, one_mul, zero_mul]
    rw [List.sum_map_ite, List.sum_map_zero, add_zero]
    rfl
  rw [hbatch, batch, Batch.sum_ofList fun key => if key.product = p then 1 else 0, movements]
  induction d.lines with
  | nil => rfl
  | cons line lines ih =>
    have hline : ((d.lineMovements line).map fun m =>
        (if m.1.product = p then 1 else 0) * m.2).sum = 0 := by
      by_cases hp : line.product = p <;> simp [lineMovements, hkind, hs, hd, hp]
    rw [List.flatMap_cons, List.map_append, List.sum_append, hline, ih, Int.add_zero]

end Quantities

/-- The batch of a valid document of fewer than 2^63 lines: no sum on the way leaves 128 bits with a
sign, and its entries, in the order of keys, are the exact quantities of the products on the lines,
into the destination, out of the source, or both. None is zero, all are in warehouses of the
document, and those of a transfer cancel for each product. Any other lines with the same products
and quantities have the same batch. -/
theorem batch_is_net_movement {d : Document} (hvalid : d.validate = .ok ())
    (hcount : d.lines.length < 2 ^ 63) :
    (∀ n, ∀ m ∈ (Batch.ofList (d.movements.take n)).toList, fitsInt128 m.2 = true) ∧
    d.batch.toList.Pairwise (fun m m' => compare m.1 m'.1 = .lt) ∧
    (∀ m, m ∈ d.batch.toList ↔ d.Moves m) ∧
    (∀ m ∈ d.batch.toList, m.2 ≠ 0 ∧ m.1.warehouse ∈ d.warehouses) ∧
    (d.kind = .transfer → ∀ p,
      ((d.batch.toList.filter fun m => m.1.product = p).map Prod.snd).sum = 0) ∧
    ∀ lines : List DocumentLine,
      (∀ line ∈ lines, ∃ own ∈ d.lines, own.product = line.product) →
      (∀ p, { d with lines := lines }.quantityOf p = d.quantityOf p) →
      { d with lines := lines }.batch = d.batch := by
  have h := validate_eq_ok hvalid
  have hdirected := directed_of_violations h
  have hcount : d.lines.length ≤ maxInt64 := Nat.le_of_lt_succ hcount
  refine ⟨fun n m hm => fitsInt128_of_movements h hcount n hm, d.batch.nets.increasing,
    mem_batch_iff hdirected, fun m hm => ⟨?_, (key_of_mem_batch hm).2⟩,
    fun hkind => sum_transfer_eq_zero hdirected.sides hkind, fun lines hproducts hquantities => ?_⟩
  · exact ne_zero_of_moves h ((mem_batch_iff hdirected m).mp hm)
  · refine batch_congr hdirected (fun p => ⟨?_, fun hown => ?_⟩) hquantities
    · rintro ⟨line, hline, rfl⟩
      exact hproducts line hline
    · -- the quantity of the product is not zero, so some line has to have it
      have hpos := quantityOf_pos h hown
      rw [← hquantities] at hpos
      exact exists_line_of_quantityOf (Nat.ne_of_gt hpos)

/-- A transfer of one product on three lines, more of it than 64 bits hold, and of another. -/
def bulkTransfer : Document :=
  { draft ⟨"t"⟩ .transfer "ada" (.ofUnixNanos 0) with
    source := some ⟨"w1"⟩, destination := some ⟨"w2"⟩,
    lines := [⟨⟨"p1"⟩, 0x7FFFFFFFFFFFFFFF, none⟩, ⟨⟨"p2"⟩, 2, none⟩,
      ⟨⟨"p1"⟩, 0x7FFFFFFFFFFFFFFF, none⟩, ⟨⟨"p1"⟩, 0x7FFFFFFFFFFFFFFF, none⟩] }

/-- All of the first product leaves one warehouse and enters the other, as it does from the same
lines in the opposite order. -/
theorem batch_is_net_movement_bulk :
    (bulkTransfer.validate = .ok () ∧ bulkTransfer.lines.length < 2 ^ 63) ∧
    (⟨⟨"w1"⟩, ⟨"p1"⟩⟩, -0x17FFFFFFFFFFFFFFD) ∈ bulkTransfer.batch.toList ∧
    (⟨⟨"w2"⟩, ⟨"p1"⟩⟩, 0x17FFFFFFFFFFFFFFD) ∈ bulkTransfer.batch.toList ∧
    { bulkTransfer with lines := bulkTransfer.lines.reverse }.batch = bulkTransfer.batch := by
  have hvalid : bulkTransfer.validate = .ok () := by decide
  have hcount : bulkTransfer.lines.length < 2 ^ 63 := by decide
  obtain ⟨-, -, hentries, -, -, hlines⟩ := batch_is_net_movement hvalid hcount
  have hline : ∃ line ∈ bulkTransfer.lines, line.product = ⟨"p1"⟩ := by decide
  refine ⟨⟨hvalid, hcount⟩, (hentries _).mpr ⟨hline, .inl ⟨rfl, by decide⟩⟩,
    (hentries _).mpr ⟨hline, .inr ⟨rfl, by decide⟩⟩, hlines _ (fun line hline => ?_) fun p => ?_⟩
  · exact ⟨line, List.mem_reverse.mp hline, rfl⟩
  · simp only [quantityOf, List.filter_reverse, List.map_reverse, List.sum_reverse]

end Depot.Document
