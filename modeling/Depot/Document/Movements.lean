import Depot.Document.Basic
import Depot.Stock.Batch
/-!
# What a document does to stock

Each line moves its quantity out of the source, into the destination, or both, as the kind of
document says. The batch of a document nets these movements per warehouse and product. A side
that the kind needs and the document lacks moves nothing; validation refuses such a document.
-/

namespace Depot.Document

/-- The movements of one line. -/
def lineMovements (d : Document) (line : DocumentLine) : List (StockKey × Int) :=
  let quantity : Int := line.quantity.toNat
  match d.kind, d.source, d.destination with
  | .inbound, _, some destination => [(⟨destination, line.product⟩, quantity)]
  | .outbound, some source, _ | .sale, some source, _ => [(⟨source, line.product⟩, -quantity)]
  | .transfer, some source, some destination =>
    [(⟨source, line.product⟩, -quantity), (⟨destination, line.product⟩, quantity)]
  | _, _, _ => []

/-- The movements of all lines, in order. -/
def movements (d : Document) : List (StockKey × Int) := d.lines.flatMap d.lineMovements

/-- The net movements per warehouse and product. -/
def batch (d : Document) : Batch := .ofList d.movements

end Depot.Document
