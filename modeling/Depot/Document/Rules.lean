import Depot.Blank
import Depot.Document.Basic
import Depot.Range
/-!
# The rules a document keeps

A document is valid if it breaks no rule. `Document.violations` lists the broken rules: those of
the header first, then those of the lines by position. Posting asks for an approver as well
(`Document.postingViolations`).
-/

namespace Depot

/-- A broken rule. -/
inductive Violation where
  | missingDestination
  | missingSource (kind : DocumentKind)
  | unexpectedDestination (kind : DocumentKind)
  | unexpectedSource
  | sameWarehouse
  | unexpectedCustomer
  | noLines
  | nonPositiveQuantity (line : Nat)
  | quantityTooLarge (line : Nat)
  | missingUnitPrice (line : Nat)
  | missingCreator
  | missingApprover
  deriving DecidableEq, Repr

/-- The broken rule in words. -/
def Violation.message : Violation → String
  | .missingDestination => "import document must have a destination warehouse"
  | .missingSource kind => kind.name ++ " document must have a source warehouse"
  | .unexpectedDestination kind => kind.name ++ " document cannot have a destination warehouse"
  | .unexpectedSource => "import document cannot have a source warehouse"
  | .sameWarehouse => "transfer source and destination must differ"
  | .unexpectedCustomer => "customer reference is only allowed on sale documents"
  | .noLines => "document has no lines"
  | .nonPositiveQuantity line => s!"line {line}: quantity must be positive"
  | .quantityTooLarge line => s!"line {line}: quantity exceeds the supported range"
  | .missingUnitPrice line => s!"line {line}: import and sale lines require a unit price"
  | .missingCreator => "created by cannot be empty"
  | .missingApprover => "approved by cannot be empty"

/-- The name of the broken rule, without the place where it is broken. -/
def Violation.name : Violation → String
  | .missingDestination => "MissingDestination"
  | .missingSource _ => "MissingSource"
  | .unexpectedDestination _ => "UnexpectedDestination"
  | .unexpectedSource => "UnexpectedSource"
  | .sameWarehouse => "SameWarehouse"
  | .unexpectedCustomer => "UnexpectedCustomer"
  | .noLines => "NoLines"
  | .nonPositiveQuantity _ => "NonPositiveQuantity"
  | .quantityTooLarge _ => "QuantityTooLarge"
  | .missingUnitPrice _ => "MissingUnitPrice"
  | .missingCreator => "MissingCreator"
  | .missingApprover => "MissingApprover"

/-- A list of broken rules in words. -/
def Violation.messages (found : List Violation) : String :=
  "; ".intercalate (found.map Violation.message)

/-- The rule `v`, if it is broken. -/
def Violation.check (broken : Bool) (v : Violation) : List Violation :=
  if broken then [v] else []

/-- The largest quantity of a line. -/
def maxLineQuantity : Nat := maxInt64

/-- Lines of imports carry the cost of what comes in, lines of sales the customer's debt. -/
def DocumentKind.isPriced : DocumentKind → Bool
  | .inbound | .sale => true
  | .outbound | .transfer => false

namespace Document

open Violation (check)

/-- The broken rules on which warehouses the kind needs and allows. -/
def warehouseViolations (d : Document) : List Violation :=
  match d.kind with
  | .inbound =>
    check d.destination.isNone .missingDestination ++ check d.source.isSome .unexpectedSource
  | .outbound | .sale =>
    check d.source.isNone (.missingSource d.kind) ++
      check d.destination.isSome (.unexpectedDestination d.kind)
  | .transfer =>
    check d.source.isNone (.missingSource d.kind) ++
      check d.destination.isNone .missingDestination ++
      check (d.source.isSome && d.source == d.destination) .sameWarehouse

/-- The rules that the line at position `i` breaks in a document of this kind. -/
def lineViolations (kind : DocumentKind) (i : Nat) (line : DocumentLine) : List Violation :=
  check (line.quantity == 0) (.nonPositiveQuantity i) ++
    check (decide (maxLineQuantity < line.quantity.toNat)) (.quantityTooLarge i) ++
    check (kind.isPriced && line.unitPrice.isNone) (.missingUnitPrice i)

/-- The broken rules, those of the header first, then those of the lines by position. -/
def violations (d : Document) : List Violation :=
  check (isBlank d.createdBy) .missingCreator ++
    d.warehouseViolations ++
    check (d.customer.isSome && d.kind != .sale) .unexpectedCustomer ++
    check d.lines.isEmpty .noLines ++
    d.lines.zipIdx.flatMap fun (line, i) => lineViolations d.kind i line

/-- The broken rules when the document is to be posted with this approver. -/
def postingViolations (d : Document) (approver : String) : List Violation :=
  d.violations ++ check (isBlank approver) .missingApprover

/-- Success, or all broken rules. -/
def validate (d : Document) : Except (List Violation) Unit :=
  if d.violations.isEmpty then .ok () else .error d.violations

/-- Success, or all rules broken by posting with this approver. -/
def validateForPosting (d : Document) (approver : String) : Except (List Violation) Unit :=
  if (d.postingViolations approver).isEmpty then .ok () else .error (d.postingViolations approver)

end Document

end Depot
