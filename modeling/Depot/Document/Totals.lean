import Depot.Document.Basic
import Depot.Saturating
/-!
# Totals of a document

The value of a line is quantity times unit price, a missing price counting as zero. Totals stop
at the largest 64-bit number.
-/

namespace Depot

/-- The value of a line. -/
def DocumentLine.totalValue (line : DocumentLine) : UInt64 :=
  satMul line.quantity (line.unitPrice.getD 0)

namespace Document

/-- The value of all lines together. -/
def totalValue (d : Document) : UInt64 :=
  d.lines.foldl (fun total line => satAdd total line.totalValue) 0

/-- The quantities of all lines together. -/
def totalQuantity (d : Document) : UInt64 :=
  d.lines.foldl (fun total line => satAdd total line.quantity) 0

end Document

end Depot
