import Depot.Document.Totals
import Mathlib.Algebra.BigOperators.Group.List.Basic
import Mathlib.Algebra.GroupWithZero.Nat
/-!
# Totals stop once

The value of a line stops at the largest 64-bit number, and a total stops again after every line.
What comes out is the exact sum over the lines, stopped once. So the totals of a document do not
depend on the order of its lines, and further lines do not lower them (`Document.totals_stop_once`).

## How the proof goes

Numbers are never negative, so a total that has stopped stays where it is. In other words, stopping
takes exact sums to sums that stop (`satAdd_clamp_clamp`), and no case has to be made of the line at
which a total stops first. The step is taken along the lines from any total that was stopped before
(`foldl_satAdd`), once for both totals; a quantity by itself always fits.
-/

namespace Depot

/-- Numbers that were stopped, added up with a stop after each of them, give the exact sum with one
stop. The induction is on the list, from any sum so far. -/
theorem foldl_satAdd {α : Type} {value : α → UInt64} {exact : α → Nat}
    (h : ∀ a, value a = clamp (exact a)) (l : List α) (n : Nat) :
    l.foldl (fun total a => satAdd total (value a)) (clamp n) =
      clamp (n + (l.map exact).sum) := by
  induction l generalizing n with
  | nil => rfl
  | cons a l ih =>
    rw [List.foldl_cons, h, satAdd_clamp_clamp, ih, List.map_cons, List.sum_cons, Nat.add_assoc]

namespace DocumentLine

/-- Quantity times unit price, however large. -/
def exactValue (line : DocumentLine) : Nat :=
  match line.unitPrice with
  | some price => line.quantity.toNat * price.toNat
  | none => 0

theorem totalValue_eq (line : DocumentLine) : line.totalValue = clamp line.exactValue := by
  unfold totalValue exactValue satMul
  cases line.unitPrice with
  | none => rfl
  | some price => rfl

end DocumentLine

namespace Document

/-! ## Exact sums -/

/-- What the lines of a document count together, however much. -/
def lineSum (count : DocumentLine → Nat) (d : Document) : Nat := (d.lines.map count).sum

section LineSum

variable (count : DocumentLine → Nat)

theorem lineSum_perm {d e : Document} (h : e.lines.Perm d.lines) :
    e.lineSum count = d.lineSum count :=
  (h.map count).sum_eq

theorem lineSum_withLines (d : Document) (lines : List DocumentLine) :
    (d.withLines lines).lineSum count = d.lineSum count + (lines.map count).sum := by
  rw [lineSum, withLines, List.map_append, List.sum_append, lineSum]

theorem lineSum_le_withLines (d : Document) (lines : List DocumentLine) :
    d.lineSum count ≤ (d.withLines lines).lineSum count := by
  rw [lineSum_withLines]
  exact Nat.le_add_right _ _

end LineSum

/-! ## Totals -/

/-- A total over the lines of a document is the exact sum, stopped once, if each line counts its
exact number, stopped by itself. -/
theorem foldl_lines {value : DocumentLine → UInt64} {exact : DocumentLine → Nat}
    (h : ∀ line, value line = clamp (exact line)) (d : Document) :
    d.lines.foldl (fun total line => satAdd total (value line)) 0 = clamp (d.lineSum exact) := by
  have hfold := foldl_satAdd h d.lines 0
  rw [Nat.zero_add] at hfold
  exact hfold

theorem totalValue_eq (d : Document) :
    d.totalValue = clamp (d.lineSum DocumentLine.exactValue) :=
  foldl_lines DocumentLine.totalValue_eq d

theorem totalQuantity_eq (d : Document) :
    d.totalQuantity = clamp (d.lineSum fun line => line.quantity.toNat) :=
  foldl_lines (fun line => (clamp_toNat line.quantity).symm) d

/-- The total value of a document is the exact sum of quantity times unit price over its lines, an
absent price counting as zero, and its total quantity the exact sum of their quantities, each
stopped once at the largest 64-bit number. Documents with the same lines in any order have the same
totals, and those of a document with further lines are no smaller. -/
theorem totals_stop_once (d : Document) :
    d.totalValue.toNat = min maxUInt64 (d.lineSum DocumentLine.exactValue) ∧
    d.totalQuantity.toNat = min maxUInt64 (d.lineSum fun line => line.quantity.toNat) ∧
    (∀ e : Document, e.lines.Perm d.lines →
      e.totalValue = d.totalValue ∧ e.totalQuantity = d.totalQuantity) ∧
    ∀ lines, d.totalValue ≤ (d.withLines lines).totalValue ∧
      d.totalQuantity ≤ (d.withLines lines).totalQuantity := by
  refine ⟨?_, ?_, fun e hperm => ⟨?_, ?_⟩, fun lines => ⟨?_, ?_⟩⟩
  · rw [totalValue_eq, toNat_clamp, Nat.min_comm]
  · rw [totalQuantity_eq, toNat_clamp, Nat.min_comm]
  · rw [totalValue_eq, totalValue_eq, lineSum_perm _ hperm]
  · rw [totalQuantity_eq, totalQuantity_eq, lineSum_perm _ hperm]
  · rw [totalValue_eq, totalValue_eq]
    exact clamp_le_clamp (lineSum_le_withLines _ d lines)
  · rw [totalQuantity_eq, totalQuantity_eq]
    exact clamp_le_clamp (lineSum_le_withLines _ d lines)

/-- An import whose second line alone is worth more than 64 bits hold; the third has no price, and
its quantity is too much for the total. -/
def heavyImport : Document :=
  { draft ⟨"i"⟩ .inbound "ada" (.ofUnixNanos 0) with
    destination := some ⟨"w"⟩,
    lines := [⟨⟨"p1"⟩, 3, some 5⟩, ⟨⟨"p2"⟩, 0x8000000000000000, some 2⟩,
      ⟨⟨"p3"⟩, 0x8000000000000000, none⟩] }

/-- Both totals stop, and they are the same if the lines come in the opposite order. -/
theorem totals_stop_once_heavy :
    let reversed := { heavyImport with lines := heavyImport.lines.reverse }
    reversed.lines.Perm heavyImport.lines ∧
      heavyImport.lineSum DocumentLine.exactValue = 0x1000000000000000F ∧
      heavyImport.lineSum (fun line => line.quantity.toNat) = 0x10000000000000003 ∧
      reversed.totalValue.toNat = maxUInt64 ∧ reversed.totalQuantity.toNat = maxUInt64 := by
  intro reversed
  obtain ⟨hvalue, hquantity, horder, -⟩ := totals_stop_once heavyImport
  have hperm : reversed.lines.Perm heavyImport.lines := List.reverse_perm _
  obtain ⟨hsameValue, hsameQuantity⟩ := horder reversed hperm
  have hexactValue : heavyImport.lineSum DocumentLine.exactValue = 0x1000000000000000F := by decide
  have hexactQuantity : heavyImport.lineSum (fun line => line.quantity.toNat) =
      0x10000000000000003 := by decide
  refine ⟨hperm, hexactValue, hexactQuantity, ?_, ?_⟩
  · rw [hsameValue, hvalue, hexactValue]
    rfl
  · rw [hsameQuantity, hquantity, hexactQuantity]
    rfl

end Document

end Depot
