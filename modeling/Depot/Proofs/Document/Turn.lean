import Depot.Proofs.Document.Lifecycle
/-!
# What an operation makes of the document it settles

An operation that is to settle a document leaves it as it is or settles it in one of three ways
(`Turn`): by the record it was given, as a voiding does, by the record of a posting, or by that of
a shortfall. With each goes what the operation has answered. `turn_of_settles` says that one of
them applies, for every operation that names the document.

An effect of an operation (`Effect`) tells what it has written, but not what it has answered, nor by
which record a document was settled. Both are said here once.
-/

namespace Depot

/-! ## Without moving stock -/

section Settlement

variable {σ ε : Type} {id : DocumentId} {s : Settlement} {world : Database × σ}

/-- The operation has written and answered what a document is settled to. -/
def Settlement.CarriedOut (s : Settlement) (id : DocumentId) (world : Database × σ)
    (ended : Except ServiceError Answer × (Database × σ)) : Prop :=
  ∃ d row, Archive.load id world.1 = .ok d ∧ encode (d.settle s) = .ok row ∧
    ended = (.ok (.document (d.settle s)),
      ({ world.1 with documents := world.1.documents.insert id.bytes row }, world.2))

/-- A unit of work that settles a document does so, or leaves the world as it is. -/
theorem Settlement.carriedOut_update {work : UnitOfWork ε Document} {error : ε → ServiceError}
    (h : ∀ d' db', work world.1 = .ok (d', db') → ∃ d row, Archive.load id world.1 = .ok d ∧
      d' = d.settle s ∧ encode (d.settle s) = .ok row ∧
      db' = { world.1 with documents := world.1.documents.insert id.bytes row }) :
    (update work error .document world).2 = world ∨
      s.CarriedOut id world (update work error .document world) := by
  unfold update UnitOfWork.commit
  cases hwork : work world.1 with
  | error e => exact .inl rfl
  | ok result =>
    obtain ⟨d, row, hload, hd, hrow, hdb⟩ := h result.1 result.2 hwork
    refine .inr ⟨d, row, hload, hrow, ?_⟩
    rw [← hd, ← hdb]
    rfl

theorem Operation.carriedOut_of_settlement (hook : SaleHook σ) {op : Operation}
    (asked : op.settlement? = some (id, s)) (world : Database × σ) :
    (op.run hook world).2 = world ∨ s.CarriedOut id world (op.run hook world) := by
  cases op with
  | archive op =>
    cases op with
    | transition =>
      cases asked
      refine Settlement.carriedOut_update fun d' db' h => ?_
      obtain ⟨d, row, hload, -, hd, hrow, hdb⟩ := Archive.transition_eq_ok h
      exact ⟨d, row, hload, hd, hrow, hdb⟩
    | _ => cases asked
  | posting op =>
    cases op with
    | void =>
      cases asked
      refine Settlement.carriedOut_update fun d' db' h => ?_
      obtain ⟨d, row, hload, -, rfl, hrow, hdb⟩ := Posting.void_eq_ok h
      exact ⟨d, row, hload, rfl, hrow, hdb⟩
    | post => cases asked
  | service op =>
    cases op with
    | void =>
      cases asked
      refine Settlement.carriedOut_update fun d' db' h => ?_
      obtain ⟨d, row, hload, -, rfl, hrow, hdb⟩ := Posting.void_eq_ok (mapError_eq_ok h)
      exact ⟨d, row, hload, rfl, hrow, hdb⟩
    | _ => cases asked
  | _ => cases asked

end Settlement

/-! ## Turns -/

/-- Where the row of a document was written there is what it was settled to. -/
theorem Database.Integrity.load_settle {before after : Database} (hdb : before.Integrity)
    {id : DocumentId} {d : Document} (hload : Archive.load id before = .ok d) {s : Settlement}
    (hs : s.Fits) {row : Bytes} (hencoded : encode (d.settle s) = .ok row)
    (hdocuments : after.documents = before.documents.insert id.bytes row) :
    Archive.load id after = .ok (d.settle s.stored) := by
  obtain ⟨oldRow, -, rfl, hd⟩ := hdb.isRow_of_load hload
  exact Posting.load_settled hd hs hencoded hdocuments

section Turn

variable {σ : Type}

/-- What an operation that is to settle the document `d` makes of it. -/
inductive Turn (hook : SaleHook σ) (op : Operation) (world : Database × σ) (d : Document) :
    Document → Prop
  /-- It is as it was. -/
  | kept : Turn hook op world d d
  /-- It is settled by the record that the operation was given. -/
  | settled {s : Settlement} (asked : op.settlement? = some (d.id, s))
    (answered : (op.run hook world).1 = .ok (.document (d.settle s))) :
    Turn hook op world d (d.settle s.stored)
  /-- It is posted. -/
  | posted {approver : String} {now : Timestamp}
    (asked : op.approval? = some (d.id, approver, now))
    (ready : Posting.Ready d.id approver world.1 d)
    (answered : (op.run hook world).1 =
      .ok (.document (d.settle (Posting.recordOf d approver now)))) :
    Turn hook op world d (d.settle (Posting.recordOf d approver now.stored))
  /-- It was to be posted, and the stock did not suffice. -/
  | fellShort {approver : String} {now : Timestamp} {s : Shortfall}
    (asked : op.approval? = some (d.id, approver, now))
    (ready : Posting.Ready d.id approver world.1 d)
    (refused : Stock.applyBatch d.batch world.1 = .error (.refused (.insufficient s)))
    (answered : (op.run hook world).1 = .error (.posting (.refused (.insufficient s)))) :
    Turn hook op world d (d.settle (Posting.shortfallRecord s now.stored))

variable {hook : LedgerHook σ} {op : Operation} {world : Database × σ} {d : Document}
  (hdb : world.1.Integrity) (hload : Archive.load d.id world.1 = .ok d) (hfits : op.Fits)

include hdb hload hfits

theorem turn_of_settlement {s : Settlement} (asked : op.settlement? = some (d.id, s)) :
    ∃ d', Archive.load d.id (op.run hook.run world).2.1 = .ok d' ∧
      Turn hook.run op world d d' := by
  rcases Operation.carriedOut_of_settlement hook.run asked world with
    hkept | ⟨d₀, row, hload', hencoded, hended⟩
  · refine ⟨d, ?_, .kept⟩
    rw [hkept]
    exact hload
  · cases hload.symm.trans hload'
    have hs := Operation.fits_settlement hfits asked
    refine ⟨_, ?_, .settled asked (by rw [hended])⟩
    exact hdb.load_settle hload hs hencoded (by rw [hended])

theorem turn_of_approval {approver : String} {now : Timestamp}
    (asked : op.approval? = some (d.id, approver, now)) :
    ∃ d', Archive.load d.id (op.run hook.run world).2.1 = .ok d' ∧
      Turn hook.run op world d d' := by
  obtain ⟨τ, run, t, hanswer, hdatabase⟩ := Operation.run_of_approval hook asked world
  have hpost := Posting.post_concludes run.run d.id approver now (world.1, t)
  rw [hdatabase]
  generalize Posting.post run.run d.id approver now (world.1, t) = ended at hpost hanswer
  cases hpost with
  | failed e => exact ⟨d, hload, .kept⟩
  | fellShort ready refused encoded =>
    cases hload.symm.trans ready.loaded
    have hrecord := hdb.fits_shortfall hload refused now
    exact ⟨_, hdb.load_settle hload hrecord encoded rfl, .fellShort asked ready refused hanswer⟩
  | @posted _ levels moved db row ready applied encoded written =>
    cases hload.symm.trans ready.loaded
    have hrecord := Posting.fits_recordOf d (Operation.fits_approver hfits asked) now
    refine ⟨_, hdb.load_settle hload hrecord encoded ?_, .posted asked ready hanswer⟩
    -- the hook, if it runs, leaves the archive alone
    dsimp only
    split
    · rw [(run.sameCore _ (db, t)).documents, written]
    · rw [written]

/-- An operation that names the document leaves it as it is or settles it, and it is there in either
case. -/
theorem turn_of_settles (hasked : op.Settles d.id) :
    ∃ d', Archive.load d.id (op.run hook.run world).2.1 = .ok d' ∧
      Turn hook.run op world d d' := by
  rcases hasked with ⟨s, hs⟩ | ⟨approver, now, ha⟩
  · exact turn_of_settlement hdb hload hfits hs
  · exact turn_of_approval hdb hload hfits ha

end Turn

end Depot
