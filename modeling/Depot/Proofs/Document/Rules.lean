import Depot.Document.Rules
import Mathlib.Data.List.Nodup
/-!
# What validation reports

A document is under the rules of its kind (`Document.rules`), and `Document.Breaks` says when it
breaks one of them. Validation reports the broken rules, each of them once and in the order of the
rules, and nothing else; posting asks for an approver besides, behind all other rules
(`Document.broken_rules_reported`). So a document that is valid has the warehouses that its kind
needs and no others, and quantities from one to the largest of 64 bits with a sign.

## How the proof goes

Each check looks at one rule (`check_eq_filter`), so a list of checks is the list of its rules
without those that are kept. No rule stands in the list twice: those of a line tell its position,
which no other rule does (`Violation.line?`).
-/

namespace Depot

/-! ## Blank texts -/

/-- The code points with the Unicode property `White_Space`. -/
def whiteSpaceCodes : List Nat :=
  [0x0009, 0x000A, 0x000B, 0x000C, 0x000D, 0x0020, 0x0085, 0x00A0, 0x1680,
   0x2000, 0x2001, 0x2002, 0x2003, 0x2004, 0x2005, 0x2006, 0x2007, 0x2008, 0x2009, 0x200A,
   0x2028, 0x2029, 0x202F, 0x205F, 0x3000]

/-- The text has no other letters. -/
def Blank (text : String) : Prop := ∀ c ∈ text.toList, c.toNat ∈ whiteSpaceCodes

theorem isWhiteSpace_iff (c : Char) : isWhiteSpace c = true ↔ c.toNat ∈ whiteSpaceCodes := by
  simp only [isWhiteSpace, whiteSpaceCodes, Bool.or_eq_true, Bool.and_eq_true, decide_eq_true_eq,
    beq_iff_eq, List.mem_cons, List.not_mem_nil, or_false]
  omega

theorem isBlank_iff (text : String) : isBlank text = true ↔ Blank text := by
  simp only [isBlank, Blank, List.all_eq_true, isWhiteSpace_iff]

instance : DecidablePred Blank := fun text => decidable_of_iff _ (isBlank_iff text)

/-! ## Rules -/

namespace DocumentKind

/-- The rules on the warehouses of a document. -/
def warehouseRules : DocumentKind → List Violation
  | inbound => [.missingDestination, .unexpectedSource]
  | outbound => [.missingSource outbound, .unexpectedDestination outbound]
  | sale => [.missingSource sale, .unexpectedDestination sale]
  | transfer => [.missingSource transfer, .missingDestination, .sameWarehouse]

/-- Only sales may name a customer. -/
def customerRules : DocumentKind → List Violation
  | sale => []
  | inbound | outbound | transfer => [.unexpectedCustomer]

/-- The rules on the line at position `i`. -/
def lineRules (kind : DocumentKind) (i : Nat) : List Violation :=
  match kind with
  | inbound | sale => [.nonPositiveQuantity i, .quantityTooLarge i, .missingUnitPrice i]
  | outbound | transfer => [.nonPositiveQuantity i, .quantityTooLarge i]

/-- The rules on all but the lines. -/
def headerRules (kind : DocumentKind) : List Violation :=
  [.missingCreator] ++ kind.warehouseRules ++ kind.customerRules ++ [.noLines]

end DocumentKind

namespace Document

/-- The rules that a document is under, in the order in which they are reported. -/
def rules (d : Document) : List Violation :=
  d.kind.headerRules ++ (List.range d.lines.length).flatMap d.kind.lineRules

/-- The document breaks the rule. -/
def Breaks (d : Document) : Violation → Prop
  | .missingCreator => Blank d.createdBy
  | .missingSource _ => d.source = none
  | .unexpectedSource => d.source ≠ none
  | .missingDestination => d.destination = none
  | .unexpectedDestination _ => d.destination ≠ none
  | .sameWarehouse => d.source ≠ none ∧ d.source = d.destination
  | .unexpectedCustomer => d.customer ≠ none
  | .noLines => d.lines = []
  | .nonPositiveQuantity i => ∃ line ∈ d.lines[i]?, line.quantity.toNat = 0
  | .quantityTooLarge i => ∃ line ∈ d.lines[i]?, maxInt64 < line.quantity.toNat
  | .missingUnitPrice i => ∃ line ∈ d.lines[i]?, line.unitPrice = none
  -- a rule of posting, and of no document
  | .missingApprover => False

instance (d : Document) : DecidablePred d.Breaks := fun v => by
  cases v <;> unfold Breaks <;> infer_instance

/-- The rules that the document is under and breaks. -/
def broken (d : Document) : List Violation := d.rules.filter fun v => d.Breaks v

end Document

/-- What is reported of the broken rules found: success if there are none. -/
def Violation.report (found : List Violation) : Except (List Violation) Unit :=
  match found with
  | [] => .ok ()
  | _ :: _ => .error found

/-! ## Checks -/

namespace Document

variable {d : Document} {v : Violation}

theorem check_eq_nil {broken : Bool} (h : Violation.check broken v = []) : broken = false := by
  cases broken with
  | false => rfl
  | true => cases h

/-- A check gives the rule it is about, if it is broken. -/
theorem check_eq_filter {broken : Bool} (h : broken = true ↔ d.Breaks v) :
    Violation.check broken v = [v].filter fun v => d.Breaks v := by
  cases broken with
  | false =>
    have hkept : ¬ d.Breaks v := fun hv => Bool.false_ne_true (h.mpr hv)
    simp [Violation.check, hkept]
  | true => simp [Violation.check, h.mp rfl]

theorem warehouseViolations_eq_filter (d : Document) :
    d.warehouseViolations = d.kind.warehouseRules.filter fun v => d.Breaks v := by
  have hsource (kind : DocumentKind) :=
    check_eq_filter (d := d) (v := .missingSource kind) Option.isNone_iff_eq_none
  have hdestination := check_eq_filter (d := d) (v := .missingDestination) Option.isNone_iff_eq_none
  have hnoSource := check_eq_filter (d := d) (v := .unexpectedSource) Option.isSome_iff_ne_none
  have hnoDestination (kind : DocumentKind) :=
    check_eq_filter (d := d) (v := .unexpectedDestination kind) Option.isSome_iff_ne_none
  have hsame : (d.source.isSome && d.source == d.destination) = true ↔
      d.Breaks .sameWarehouse := by
    rw [Bool.and_eq_true, Option.isSome_iff_ne_none, beq_iff_eq]
    rfl
  unfold warehouseViolations
  cases d.kind with
  | inbound => rw [hdestination, hnoSource, ← List.filter_append]; rfl
  | outbound | sale => rw [hsource, hnoDestination, ← List.filter_append]; rfl
  | transfer =>
    rw [hsource, hdestination, check_eq_filter hsame, ← List.filter_append, ← List.filter_append]
    rfl

theorem customerViolations_eq_filter (d : Document) :
    Violation.check (d.customer.isSome && d.kind != .sale) .unexpectedCustomer =
      d.kind.customerRules.filter fun v => d.Breaks v := by
  have hcustomer :=
    check_eq_filter (d := d) (v := .unexpectedCustomer) Option.isSome_iff_ne_none
  cases d.kind with
  | sale => rw [bne_self_eq_false, Bool.and_false]; rfl
  | inbound | outbound | transfer =>
    show Violation.check (d.customer.isSome && true) .unexpectedCustomer = _
    rw [Bool.and_true]
    exact hcustomer

theorem lineViolations_eq_filter {line : DocumentLine} {i : Nat} (h : d.lines[i]? = some line) :
    lineViolations d.kind i line = (d.kind.lineRules i).filter fun v => d.Breaks v := by
  have hzero : (line.quantity == 0) = true ↔ d.Breaks (.nonPositiveQuantity i) := by
    simp [Breaks, h, ← UInt64.toNat_inj]
  have hlarge : decide (maxLineQuantity < line.quantity.toNat) = true ↔
      d.Breaks (.quantityTooLarge i) := by
    rw [decide_eq_true_iff]
    simp [Breaks, h, maxLineQuantity]
  have hprice : line.unitPrice.isNone = true ↔ d.Breaks (.missingUnitPrice i) := by
    simp [Breaks, h]
  unfold lineViolations
  rw [check_eq_filter hzero, check_eq_filter hlarge, ← List.filter_append]
  cases d.kind with
  | inbound | sale =>
    rw [DocumentKind.isPriced, Bool.true_and, check_eq_filter hprice, ← List.filter_append]
    rfl
  | outbound | transfer => exact List.append_nil _

/-- The lines are checked one by one, at their positions. -/
theorem linesViolations_eq_filter (d : Document) :
    (d.lines.zipIdx.flatMap fun (line, i) => lineViolations d.kind i line) =
      ((List.range d.lines.length).flatMap d.kind.lineRules).filter fun v => d.Breaks v := by
  have hpositions : List.range d.lines.length = d.lines.zipIdx.map Prod.snd := by
    rw [List.zipIdx_map_snd, List.range_eq_range']
  rw [hpositions, List.flatMap_map, List.filter_flatMap]
  refine List.flatMap_congr fun entry hentry => ?_
  exact lineViolations_eq_filter (List.mem_zipIdx_iff_getElem?.mp hentry)

/-- The checks give the rules that the document breaks. -/
theorem violations_eq_broken (d : Document) : d.violations = d.broken := by
  have hcreator := check_eq_filter (d := d) (v := .missingCreator) (isBlank_iff d.createdBy)
  have hlines := check_eq_filter (d := d) (v := .noLines) List.isEmpty_iff
  unfold violations broken rules DocumentKind.headerRules
  rw [hcreator, warehouseViolations_eq_filter, customerViolations_eq_filter, hlines,
    linesViolations_eq_filter]
  simp only [List.filter_append]

/-! ## No rule twice -/

end Document

/-- The position of the line that the rule is about. -/
def Violation.line? : Violation → Option Nat
  | .nonPositiveQuantity i | .quantityTooLarge i | .missingUnitPrice i => some i
  | _ => none

theorem DocumentKind.line?_of_headerRules {kind : DocumentKind} {v : Violation}
    (h : v ∈ kind.headerRules) : v.line? = none := by
  have hall : ∀ v ∈ kind.headerRules, v.line? = none := by cases kind <;> decide
  exact hall v h

theorem DocumentKind.line?_of_lineRules {kind : DocumentKind} {i : Nat} {v : Violation}
    (h : v ∈ kind.lineRules i) : v.line? = some i := by
  have hall : ∀ v ∈ kind.lineRules i, v.line? = some i := by
    cases kind <;> simp [lineRules, Violation.line?]
  exact hall v h

theorem DocumentKind.nodup_lineRules (kind : DocumentKind) (i : Nat) :
    (kind.lineRules i).Nodup := by
  cases kind <;> simp [lineRules]

namespace Document

theorem nodup_rules (d : Document) : d.rules.Nodup := by
  refine List.nodup_append.mpr ⟨?_, List.nodup_flatMap.mpr ⟨fun i _ => ?_, ?_⟩, ?_⟩
  · cases d.kind <;> decide
  · exact d.kind.nodup_lineRules i
  · refine List.nodup_range.imp fun hne v hi hj => hne ?_
    have hline := DocumentKind.line?_of_lineRules hi
    rw [DocumentKind.line?_of_lineRules hj] at hline
    exact (Option.some.inj hline).symm
  · rintro v hheader w hline rfl
    obtain ⟨i, -, hline⟩ := List.mem_flatMap.mp hline
    have hnone := DocumentKind.line?_of_headerRules hheader
    rw [DocumentKind.line?_of_lineRules hline] at hnone
    cases hnone

/-! ## Valid documents -/

theorem validate_eq_ok {d : Document} {u : Unit} (h : d.validate = .ok u) : d.violations = [] := by
  unfold Document.validate at h
  split at h
  · rename_i hempty
    exact List.isEmpty_iff.mp hempty
  · cases h

theorem violations_eq_nil_iff {d : Document} :
    d.violations = [] ↔ ∀ v ∈ d.rules, ¬ d.Breaks v := by
  rw [violations_eq_broken, broken, List.filter_eq_nil_iff]
  simp only [decide_eq_true_eq]

section Valid

variable {d : Document} (h : d.violations = [])
include h

theorem kept_of_valid {v : Violation} (hv : v ∈ d.kind.headerRules) : ¬ d.Breaks v :=
  violations_eq_nil_iff.mp h v (List.mem_append_left _ hv)

theorem kept_line_of_valid {i : Nat} {line : DocumentLine} (hline : d.lines[i]? = some line)
    {v : Violation} (hv : v ∈ d.kind.lineRules i) : ¬ d.Breaks v := by
  have hi : i < d.lines.length := (List.getElem?_eq_some_iff.mp hline).1
  exact violations_eq_nil_iff.mp h v <| List.mem_append_right _ <|
    List.mem_flatMap.mpr ⟨i, List.mem_range.mpr hi, hv⟩

theorem quantity_bounds_of_valid {line : DocumentLine} (hline : line ∈ d.lines) :
    1 ≤ line.quantity.toNat ∧ line.quantity.toNat ≤ maxInt64 := by
  obtain ⟨i, hi⟩ := List.mem_iff_getElem?.mp hline
  have hrules : .nonPositiveQuantity i ∈ d.kind.lineRules i ∧
      .quantityTooLarge i ∈ d.kind.lineRules i := by
    cases d.kind <;> simp [DocumentKind.lineRules]
  have hzero := kept_line_of_valid h hi hrules.1
  have hlarge := kept_line_of_valid h hi hrules.2
  simp only [Breaks, hi, Option.mem_some_iff, exists_eq_left'] at hzero hlarge
  omega

/-- The document comes out of a warehouse just if its kind does. -/
theorem source_of_valid : d.source.isSome ↔ d.kind ≠ .inbound := by
  cases hkind : d.kind with
  | inbound =>
    have hkept : ¬ d.Breaks .unexpectedSource :=
      kept_of_valid h (by simp [hkind, DocumentKind.headerRules, DocumentKind.warehouseRules])
    simpa [Breaks] using hkept
  | outbound | sale | transfer =>
    have hkept : ¬ d.Breaks (.missingSource d.kind) :=
      kept_of_valid h (by simp [hkind, DocumentKind.headerRules, DocumentKind.warehouseRules])
    simpa [Breaks, Option.isSome_iff_ne_none] using hkept

/-- The document goes into a warehouse just if its kind does. -/
theorem destination_of_valid :
    d.destination.isSome ↔ d.kind = .inbound ∨ d.kind = .transfer := by
  cases hkind : d.kind with
  | inbound | transfer =>
    have hkept : ¬ d.Breaks .missingDestination :=
      kept_of_valid h (by simp [hkind, DocumentKind.headerRules, DocumentKind.warehouseRules])
    simpa [Breaks, Option.isSome_iff_ne_none] using hkept
  | outbound | sale =>
    have hkept : ¬ d.Breaks (.unexpectedDestination d.kind) :=
      kept_of_valid h (by simp [hkind, DocumentKind.headerRules, DocumentKind.warehouseRules])
    simpa [Breaks] using hkept

end Valid

/-! ## What is reported -/

theorem validate_eq_report (d : Document) : d.validate = Violation.report d.broken := by
  unfold validate
  rw [violations_eq_broken]
  cases d.broken <;> rfl

theorem validateForPosting_eq_report (d : Document) (approver : String) :
    d.validateForPosting approver =
      Violation.report (d.broken ++ if Blank approver then [.missingApprover] else []) := by
  have happrover : Violation.check (isBlank approver) .missingApprover =
      if Blank approver then [.missingApprover] else [] := by
    simp only [Violation.check, isBlank_iff]
  unfold validateForPosting postingViolations
  rw [violations_eq_broken, happrover]
  cases d.broken ++ if Blank approver then [.missingApprover] else [] <;> rfl

/-- Validation reports the rules of its kind that the document breaks, each once and in their
order, and succeeds exactly if there are none; posting reports behind them that the approver is
missing, exactly if the approver is blank. A valid document has quantities in range on its lines,
and the warehouses that its kind needs and no others. -/
theorem broken_rules_reported (d : Document) :
    d.validate = Violation.report (d.rules.filter fun v => d.Breaks v) ∧
    (∀ approver, d.validateForPosting approver = Violation.report
      ((d.rules.filter fun v => d.Breaks v) ++
        if Blank approver then [.missingApprover] else [])) ∧
    d.rules.Nodup ∧
    (d.validate = .ok () ↔ ∀ v ∈ d.rules, ¬ d.Breaks v) ∧
    (d.validate = .ok () →
      (∀ line ∈ d.lines, 1 ≤ line.quantity.toNat ∧ line.quantity.toNat ≤ maxInt64) ∧
      (d.source.isSome ↔ d.kind ≠ .inbound) ∧
      (d.destination.isSome ↔ d.kind = .inbound ∨ d.kind = .transfer)) := by
  refine ⟨d.validate_eq_report, d.validateForPosting_eq_report, d.nodup_rules,
    ⟨fun hok => violations_eq_nil_iff.mp (validate_eq_ok hok), fun hkept => ?_⟩, fun hok => ?_⟩
  · rw [validate, violations_eq_nil_iff.mpr hkept]
    rfl
  · have hvalid := validate_eq_ok hok
    exact ⟨fun _ => quantity_bounds_of_valid hvalid, source_of_valid hvalid,
      destination_of_valid hvalid⟩

/-- An import for a customer into no warehouse, of nothing and without a price. -/
def strayImport : Document :=
  { draft ⟨"d"⟩ .inbound "bob" (.ofUnixNanos 0) with
    customer := some ⟨"c1"⟩, lines := [⟨⟨"p1"⟩, 0, none⟩] }

/-- An export of four units. -/
def plainExport : Document :=
  { draft ⟨"e"⟩ .outbound "gina" (.ofUnixNanos 0) with
    source := some ⟨"w1"⟩, lines := [⟨⟨"p2"⟩, 4, none⟩] }

/-- The import breaks four rules, and a fifth if it is posted without an approver; the export breaks
none. -/
theorem broken_rules_reported_stray :
    strayImport.validateForPosting "\u3000" = .error
      [.missingDestination, .unexpectedCustomer, .nonPositiveQuantity 0, .missingUnitPrice 0,
        .missingApprover] ∧
    plainExport.validate = .ok () ∧ plainExport.source.isSome ∧ ¬ plainExport.destination.isSome ∧
      ∀ line ∈ plainExport.lines, 1 ≤ line.quantity.toNat ∧ line.quantity.toNat ≤ maxInt64 := by
  have hvalid : plainExport.validate = .ok () := by decide
  obtain ⟨hbounds, hsource, hdestination⟩ := (broken_rules_reported plainExport).2.2.2.2 hvalid
  exact ⟨((broken_rules_reported strayImport).2.1 "\u3000").trans (by decide), hvalid,
    hsource.mpr (by decide), fun hd => absurd (hdestination.mp hd) (by decide), hbounds⟩

end Document

end Depot
