import Depot.Document.Movements
import Depot.Proofs.Cbor.Items
import Depot.Proofs.Document.RoundTrip
import Depot.Proofs.Document.Rules
import Depot.Proofs.Stock.Batch
import Mathlib.Algebra.GroupWithZero.Nat
/-!
# What a document does to a key

The net movement of a key by a document is that of its lines for the product, with the sign that
the kind and the sides of the document give to the warehouse (`net_batch`, `contribution_eq`).

A transfer that lacks a side is no exception to this once it was validated: then it has both.
-/

namespace Depot.Document

/-- The sign with which the lines of a document count for a warehouse. -/
def direction (d : Document) (w : WarehouseId) : Int :=
  match d.kind with
  | .inbound => if d.destination = some w then 1 else 0
  | .outbound | .sale => if d.source = some w then -1 else 0
  | .transfer => (if d.destination = some w then 1 else 0) - (if d.source = some w then 1 else 0)

/-- What the lines of a document for a product add to a warehouse. -/
def contribution (d : Document) (key : StockKey) : Int :=
  ((d.lines.filter fun line => line.product = key.product).map fun line =>
    d.direction key.warehouse * line.quantity.toNat).sum

/-! ## Valid documents -/

/-- A transfer has both sides. -/
def HasSides (d : Document) : Prop :=
  d.kind = .transfer → (∃ w, d.source = some w) ∧ ∃ w, d.destination = some w

/-- The document has the sides that its kind needs. -/
structure Sided (d : Document) : Prop where
  source : d.kind ≠ .inbound → ∃ w, d.source = some w
  destination : d.kind = .inbound ∨ d.kind = .transfer → ∃ w, d.destination = some w

theorem Sided.hasSides {d : Document} (h : d.Sided) : d.HasSides := by
  intro hkind
  exact ⟨h.source (by simp [hkind]), h.destination (.inr hkind)⟩

theorem sided_of_violations {d : Document} (h : d.violations = []) : d.Sided where
  source hkind := Option.isSome_iff_exists.mp ((source_of_valid h).mpr hkind)
  destination hkind := Option.isSome_iff_exists.mp ((destination_of_valid h).mpr hkind)

theorem violations_of_posting {d : Document} {approver : String}
    (h : d.postingViolations approver = []) : d.violations = [] :=
  (List.append_eq_nil_iff.mp h).1

theorem sided_of_valid {d : Document} {approver : String}
    (h : d.postingViolations approver = []) : d.Sided :=
  sided_of_violations (violations_of_posting h)

theorem hasSides_of_valid {d : Document} {approver : String}
    (h : d.postingViolations approver = []) : d.HasSides :=
  (sided_of_valid h).hasSides

/-! ## Net movements -/

theorem share_lineMovements {d : Document} (h : d.HasSides) (line : DocumentLine)
    (key : StockKey) :
    ((d.lineMovements line).map (Batch.share key)).sum =
      if line.product = key.product then d.direction key.warehouse * line.quantity.toNat
      else 0 := by
  obtain ⟨w, p⟩ := key
  unfold lineMovements direction
  by_cases hp : line.product = p
  · cases hkind : d.kind with
    | inbound =>
      cases hd : d.destination with
      | none => simp
      | some w' => by_cases hw : w' = w <;> simp [Batch.share, hp, hw]
    | outbound | sale =>
      cases hs : d.source with
      | none => simp
      | some w' => by_cases hw : w' = w <;> simp [Batch.share, hp, hw]
    | transfer =>
      obtain ⟨⟨source, hs⟩, destination, hd⟩ := h hkind
      by_cases hw : source = w <;> by_cases hw' : destination = w <;>
        simp [Batch.share, hs, hd, hp, hw, hw']
  · have hother (w' : WarehouseId) (n : Int) :
        Batch.share ⟨w, p⟩ (⟨w', line.product⟩, n) = 0 := by simp [Batch.share, hp]
    rw [if_neg hp]
    split <;> simp [hother]

/-- The batch of a document moves each key by what the document contributes to it. -/
theorem net_batch {d : Document} (h : d.HasSides) (key : StockKey) :
    d.batch.net key = d.contribution key := by
  rw [batch, Batch.net_ofList, movements, contribution]
  induction d.lines with
  | nil => rfl
  | cons line lines ih =>
    rw [List.flatMap_cons, List.map_append, List.sum_append, share_lineMovements h, ih]
    by_cases hp : line.product = key.product
    · rw [if_pos hp, List.filter_cons_of_pos (by simpa using hp), List.map_cons, List.sum_cons]
    · rw [if_neg hp, List.filter_cons_of_neg (by simpa using hp), Int.zero_add]

/-- The quantity of a product over all lines together. -/
def quantityOf (d : Document) (p : ProductId) : Nat :=
  ((d.lines.filter fun line => line.product = p).map fun line => line.quantity.toNat).sum

/-- What a document adds to a warehouse is the quantity of its lines, with one sign for all. -/
theorem contribution_eq (d : Document) (key : StockKey) :
    d.contribution key = d.direction key.warehouse * d.quantityOf key.product := by
  unfold contribution quantityOf
  induction d.lines.filter fun line => line.product = key.product with
  | nil => simp
  | cons line lines ih => simp [ih, Int.mul_add]

/-! ## Bounds -/

theorem quantity_le_of_valid {d : Document} {approver : String}
    (h : d.postingViolations approver = []) {line : DocumentLine} (hline : line ∈ d.lines) :
    line.quantity.toNat ≤ maxLineQuantity :=
  (quantity_bounds_of_valid (violations_of_posting h) hline).2

theorem direction_bounds (d : Document) (w : WarehouseId) :
    d.direction w = 0 ∨ d.direction w = 1 ∨ d.direction w = -1 := by
  unfold direction
  cases d.kind with
  | inbound => by_cases h : d.destination = some w <;> simp [h]
  | outbound | sale => by_cases h : d.source = some w <;> simp [h]
  | transfer =>
    by_cases h : d.destination = some w <;> by_cases h' : d.source = some w <;> simp [h, h']

theorem sum_bounds {α : Type} {f : α → Int} {l : List α}
    (h : ∀ a ∈ l, -(maxLineQuantity : Int) ≤ f a ∧ f a ≤ maxLineQuantity) :
    -((l.length * maxLineQuantity : Nat) : Int) ≤ (l.map f).sum ∧
      (l.map f).sum ≤ (l.length * maxLineQuantity : Nat) := by
  induction l with
  | nil => simp
  | cons a l ih =>
    have ha := h a List.mem_cons_self
    have hl := ih fun b hb => h b (List.mem_cons_of_mem a hb)
    rw [List.map_cons, List.sum_cons, List.length_cons, Nat.add_mul, Nat.one_mul]
    omega

/-- The lines of a valid document net to less than their number times the largest quantity. -/
theorem contribution_bounds {d : Document} {approver : String}
    (h : d.postingViolations approver = []) (key : StockKey) :
    -((d.lines.length * maxLineQuantity : Nat) : Int) ≤ d.contribution key ∧
      d.contribution key ≤ (d.lines.length * maxLineQuantity : Nat) := by
  have hone : ∀ line ∈ d.lines.filter fun line => line.product = key.product,
      -(maxLineQuantity : Int) ≤ d.direction key.warehouse * line.quantity.toNat ∧
        d.direction key.warehouse * line.quantity.toNat ≤ maxLineQuantity := by
    intro line hline
    have hle := quantity_le_of_valid h (List.mem_filter.mp hline).1
    rcases d.direction_bounds key.warehouse with hd | hd | hd <;> rw [hd] <;> omega
  have hsum := sum_bounds hone
  have hlength := Nat.mul_le_mul_right maxLineQuantity
    (List.length_filter_le (fun line => line.product = key.product) d.lines)
  unfold contribution
  omega

/-- The batch of a valid document leaves room for a quantity in 128 bits. -/
theorem hasRoom_batch {d : Document} (hfits : d.Fits) {approver : String}
    (h : d.postingViolations approver = []) : d.batch.HasRoom := by
  intro m hm
  have hnet := (Batch.mem_ofList hm).2
  have hbounds := contribution_bounds h m.1
  rw [← net_batch (hasSides_of_valid h) m.1] at hbounds
  have heq : d.batch.net m.1 = m.2 := hnet.symm
  have hlength : d.lines.length * maxLineQuantity ≤ 0xFFFFFFFFFFFFFFFF * 0x7FFFFFFFFFFFFFFF :=
    Nat.mul_le_mul_right maxLineQuantity hfits.lineCount
  have hmax : maxUInt64 = 0xFFFFFFFFFFFFFFFF := rfl
  rw [heq] at hbounds
  omega

/-! ## Keys -/

theorem key_of_mem_lineMovements {d : Document} {line : DocumentLine} {m : StockKey × Int}
    (h : m ∈ d.lineMovements line) :
    m.1.product = line.product ∧ m.1.warehouse ∈ d.warehouses := by
  unfold warehouses
  unfold lineMovements at h
  cases hkind : d.kind with
  | inbound =>
    cases hd : d.destination with
    | none => simp [hkind, hd] at h
    | some w => simp_all
  | outbound | sale =>
    cases hs : d.source with
    | none => simp [hkind, hs] at h
    | some w => simp_all
  | transfer =>
    cases hs : d.source with
    | none => simp [hkind, hs] at h
    | some w =>
      cases hd : d.destination with
      | none => simp [hkind, hs, hd] at h
      | some w' =>
        simp only [hkind, hs, hd, List.mem_cons, List.not_mem_nil, or_false] at h
        rcases h with rfl | rfl <;> simp

/-- A document moves the products of its lines in its warehouses. -/
theorem key_of_mem_batch {d : Document} {m : StockKey × Int} (h : m ∈ d.batch.toList) :
    (∃ line ∈ d.lines, m.1.product = line.product) ∧ m.1.warehouse ∈ d.warehouses := by
  obtain ⟨⟨m', hm', hkey⟩, -⟩ := Batch.mem_ofList h
  obtain ⟨line, hline, hm'⟩ := List.mem_flatMap.mp hm'
  obtain ⟨hproduct, hwarehouse⟩ := key_of_mem_lineMovements hm'
  rw [← hkey]
  exact ⟨⟨line, hline, hproduct⟩, hwarehouse⟩

theorem Fits.warehouse {d : Document} (h : d.Fits) {w : WarehouseId} (hw : w ∈ d.warehouses) :
    Cbor.TextFits w.text := by
  rcases List.mem_append.mp hw with hw | hw
  · exact h.source w (Option.mem_toList.mp hw)
  · exact h.destination w (Option.mem_toList.mp hw)

/-- The texts of the keys that a document moves are its own. -/
theorem fits_of_mem_batch {d : Document} (h : d.Fits) {m : StockKey × Int}
    (hm : m ∈ d.batch.toList) :
    Cbor.TextFits m.1.warehouse.text ∧ Cbor.TextFits m.1.product.text := by
  obtain ⟨⟨line, hline, hproduct⟩, hwarehouse⟩ := key_of_mem_batch hm
  rw [hproduct]
  exact ⟨h.warehouse hwarehouse, h.lines line hline⟩

end Depot.Document
