import Depot.Settings.Basic
import Depot.Service
import Depot.Proofs.SortedMap
import Depot.Proofs.Operation
import Depot.Proofs.Effect
import Depot.Proofs.Table
import Depot.Proofs.Stock.Plan
import Depot.Proofs.Stock.Write
import Depot.Proofs.Document.Rules
import Depot.Proofs.Document.Movements
import Depot.Proofs.Document.NetMovements
import Depot.Proofs.Document.Totals
import Depot.Proofs.Integrity
import Depot.Proofs.Archive
import Depot.Proofs.Stock.Refinement
import Depot.Proofs.Stock.Conservation
import Depot.Proofs.Stock.Totals
import Depot.Proofs.Stock.Occupancy
import Depot.Proofs.Stock.Rows
import Depot.Proofs.Posting
import Depot.Proofs.RoundTrip
import Depot.Proofs.Transaction
import Depot.Proofs.Rollback
import Depot.Proofs.Document.Lifecycle
import Depot.Proofs.Document.Turn
import Depot.Proofs.Document.Seals
import Depot.Proofs.Document.Listing
import Depot.Proofs.Stock.Sums
import Depot.Proofs.Stock.Shortfall
import Depot.Proofs.Receivables.Record
import Depot.Proofs.Receivables.Isolation
import Depot.Proofs.Receivables.FirstRecording
import Depot.Proofs.Receivables.Debt
import Depot.Proofs.Receivables.Unseen
import Depot.Proofs.Receivables.SaleHook
import Depot.Proofs.Catalog.Lookup
import Depot.Proofs.Catalog.References
import Depot.Proofs.Service.Faults
import Depot.Proofs.Service.Drafts
import Depot.Proofs.Service.Records
import Depot.Proofs.Catalog.Alike
import Depot.Proofs.Catalog.Edits
import Depot.Proofs.Corruption
import Depot.Proofs.Stock.Levels
import Depot.Proofs.Stock.Composition
import Depot.Proofs.Service.Availability
import Depot.Proofs.Service.References
import Depot.Proofs.Cbor.Accepted
import Depot.Proofs.Stock.Keys
import Depot.Proofs.Normalisation
import Depot.Proofs.Document.Tampering
import Depot.Proofs.Settings.Load
