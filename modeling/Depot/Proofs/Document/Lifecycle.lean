import Depot.Proofs.Posting
/-!
# The life of a document

Once a document was taken into the archive, its row stays. What its maker fixed is read from it
ever after, its identifier is not given out again, and the row is written at most once more, by the
operation that posts the document or makes it fail (`Document.lifecycle`). The operations may be of
any layer, in any order, and fail as they like; a transition may name any statuses and any record.

## How the proof goes

Of all effects of an operation (`Effect`) three write a row of the archive that is there already,
and each of them has loaded a draft from this row. So one operation leaves the row of a document as
it is, or finds a draft in it and writes what the draft is settled to (`row_of_effect`). A settled
document is no draft, so by induction on the operations the second case occurs once at most
(`rows_of_run`).

## The order of refusals

A document with an identifier that is taken is refused, but not always as a duplicate: its status
is looked at first, then its stored form is made (`Document.refusal`).
-/

namespace Depot

/-! ## Contents and statuses -/

namespace Document

/-- The documents agree in what the maker of a document fixes. -/
structure SameContent (a b : Document) : Prop where
  id : a.id = b.id
  kind : a.kind = b.kind
  createdBy : a.createdBy = b.createdBy
  createdAt : a.createdAt = b.createdAt
  source : a.source = b.source
  destination : a.destination = b.destination
  customer : a.customer = b.customer
  note : a.note = b.note
  lines : a.lines = b.lines

theorem sameContent_refl (d : Document) : d.SameContent d :=
  ⟨rfl, rfl, rfl, rfl, rfl, rfl, rfl, rfl, rfl⟩

theorem sameContent_settle (d : Document) (s : Settlement) : (d.settle s).SameContent d := by
  cases s <;> exact ⟨rfl, rfl, rfl, rfl, rfl, rfl, rfl, rfl, rfl⟩

/-- The documents move the same lines along the same route for the same creator. -/
structure SameOrder (a b : Document) : Prop where
  kind : a.kind = b.kind
  source : a.source = b.source
  destination : a.destination = b.destination
  customer : a.customer = b.customer
  createdBy : a.createdBy = b.createdBy
  lines : a.lines = b.lines

theorem sameOrder_refl (d : Document) : d.SameOrder d := ⟨rfl, rfl, rfl, rfl, rfl, rfl⟩

theorem sameOrder_stored (d : Document) : d.stored.SameOrder d := ⟨rfl, rfl, rfl, rfl, rfl, rfl⟩

/-- The content of a document includes its order. -/
theorem SameContent.sameOrder {a b : Document} (h : a.SameContent b) : a.SameOrder b :=
  ⟨h.kind, h.source, h.destination, h.customer, h.createdBy, h.lines⟩

theorem status_settle (d : Document) (s : Settlement) : (d.settle s).status = s.target := by
  cases s <;> rfl

/-- Why a document is not taken into an archive that has its identifier. -/
def refusal (d : Document) : ArchiveError :=
  if d.status ≠ .draft then .notDraft d.id d.status
  else
    match encode d with
    | .ok _ => .duplicate d.id
    | .error fault => .store (.encode fault.message)

end Document

theorem Settlement.target_ne_draft (s : Settlement) : s.target ≠ .draft := by
  cases s <;> nofun

/-- The operation posts the document with this identifier, or settles it in another way. -/
def Operation.Settles (op : Operation) (id : DocumentId) : Prop :=
  (∃ s, op.settlement? = some (id, s)) ∨ ∃ approver now, op.approval? = some (id, approver, now)

/-! ## Taking a document in -/

theorem Archive.insert_of_taken {d : Document} {db : Database} {row : Bytes}
    (h : db.documents.get? d.id.bytes = some row) : insert d db = .error d.refusal := by
  unfold insert Document.refusal
  by_cases hs : d.status = .draft
  · simp only [hs, ne_eq, not_true_eq_false, if_false]
    unfold encodeRow
    cases encode d with
    | error fault => rfl
    | ok row' =>
      have htaken : db.documents.contains d.id.bytes = true := by
        simp [SortedMap.contains, h]
      simp only [htaken]
      rfl
  · simp only [hs, ne_eq, not_false_eq_true, if_true]
    rfl

variable {σ : Type}

/-- An operation that takes a document in and succeeds is an insertion into the archive. -/
theorem Operation.insert_of_run {op : Operation} {hook : SaleHook σ} {world : Database × σ}
    {d : Document} {answer : Answer} (hop : op.draft? = some d)
    (h : (op.run hook world).1 = .ok answer) :
    Archive.insert d world.1 = .ok ((), (op.run hook world).2.1) := by
  cases op with
  | archive op =>
    cases op with
    | insert =>
      cases hop
      simp only [Operation.run, ArchiveOperation.run, update, UnitOfWork.commit] at h ⊢
      cases hinsert : Archive.insert d world.1 with
      | error e =>
        rw [hinsert] at h
        cases h
      | ok result => rfl
    | _ => cases hop
  | service op =>
    cases op with
    | create id request now =>
      cases hop
      simp only [Operation.run, ServiceOperation.run, update, UnitOfWork.commit] at h ⊢
      cases hcreate : Service.create id request now world.1 with
      | error e =>
        rw [hcreate] at h
        cases h
      | ok result => exact Service.create_eq_ok hcreate
    | _ => cases hop
  | _ => cases hop

/-- An operation that is to take a document in and fails leaves the world as it is. -/
theorem Operation.unchanged_of_draft {op : Operation} {hook : SaleHook σ} {world : Database × σ}
    {d : Document} (hop : op.draft? = some d) {e : ServiceError}
    (h : (op.run hook world).1 = .error e) : (op.run hook world).2 = world := by
  cases op with
  | archive op =>
    cases op with
    | insert => exact (update_eq_error h).2
    | _ => cases hop
  | service op =>
    cases op with
    | create => exact (update_eq_error h).2
    | _ => cases hop
  | _ => cases hop

/-! ## One operation -/

section Effects

variable {db db' : Database} {op : Operation} {id : DocumentId} {d : Document} {row : Bytes}

/-- A row of the archive stays, or it holds a draft and becomes the row of what that is settled
to. -/
theorem row_of_effect (hdb : db.Integrity) (hfits : op.Fits) (heffect : Effect op db db')
    (hrow : db.documents.get? id.bytes = some row) (hload : Archive.load id db = .ok d) :
    db'.documents.get? id.bytes = some row ∨
      ∃ s row', op.Settles id ∧ d.status = .draft ∧ s.Fits ∧ encode (d.settle s) = .ok row' ∧
        db'.documents.get? id.bytes = some row' := by
  -- a settled row is the one at hand, or another that leaves it alone
  have settled {id' : DocumentId} {d' : Document} {s : Settlement} {row' : Bytes}
      (hasked : op.Settles id') (hload' : Archive.load id' db = .ok d')
      (hdraft : d'.status = .draft) (hs : s.Fits) (hrow' : encode (d'.settle s) = .ok row') :
      (db.documents.insert id'.bytes row').get? id.bytes = some row ∨
        ∃ s row'', op.Settles id ∧ d.status = .draft ∧ s.Fits ∧
          encode (d.settle s) = .ok row'' ∧
          (db.documents.insert id'.bytes row').get? id.bytes = some row'' := by
    by_cases hid : id = id'
    · subst hid
      rw [hload] at hload'
      cases hload'
      exact .inr ⟨s, row', hasked, hdraft, hs, hrow', SortedMap.get?_insert_self ..⟩
    · have hne : id.bytes ≠ id'.bytes := fun h => hid (Ident.bytes_injective h)
      rw [SortedMap.get?_insert_ne _ hne]
      exact .inl hrow
  cases heffect with
  | none => exact .inl hrow
  | moved asked applied =>
    left
    rw [Stock.applyBatch_frame applied]
    exact hrow
  | @drafted d' row' asked draft encoded fresh =>
    left
    have hne : id.bytes ≠ d'.id.bytes := by
      intro h
      rw [h, fresh] at hrow
      cases hrow
    exact (SortedMap.get?_insert_ne _ hne row').trans hrow
  | settled asked loaded draft encoded =>
    exact settled (.inl ⟨_, asked⟩) loaded draft (Operation.fits_settlement hfits asked) encoded
  | posted asked ready applied encoded =>
    exact settled (.inr ⟨_, _, asked⟩) ready.loaded ready.draft
      (Posting.fits_recordOf _ (Operation.fits_approver hfits asked) _) encoded
  | fellShort asked ready refused encoded =>
    exact settled (.inr ⟨_, _, asked⟩) ready.loaded ready.draft
      (hdb.fits_shortfall ready.loaded refused _) encoded
  | product => exact .inl hrow
  | warehouse => exact .inl hrow
  | removed => exact .inl hrow

/-- A settled document is loaded as it was. -/
theorem Archive.load_of_effect (hdb : db.Integrity) (hfits : op.Fits) (heffect : Effect op db db')
    (hload : Archive.load id db = .ok d) (hsettled : d.status ≠ .draft) :
    Archive.load id db' = .ok d := by
  obtain ⟨row, hrow, -, hd⟩ := hdb.isRow_of_load hload
  rcases row_of_effect hdb hfits heffect hrow hload with hsame | ⟨-, -, -, hdraft, -⟩
  · exact Archive.load_of_row hsame hd.decodeRow
  · exact absurd hdraft hsettled

/-- A row that was not there before was put there by an operation that takes the document in. -/
theorem draft_of_effect (heffect : Effect op db db')
    (hbefore : db.documents.get? id.bytes = none)
    (hafter : db'.documents.get? id.bytes = some row) : ∃ d, op.draft? = some d ∧ d.id = id := by
  have unwritten (hsame : db'.documents = db.documents) :
      ∃ d, op.draft? = some d ∧ d.id = id := by
    rw [hsame, hbefore] at hafter
    cases hafter
  -- a row that is written again was there before
  have rewritten {id' : DocumentId} {d' : Document} {row' : Bytes}
      (hload : Archive.load id' db = .ok d')
      (hget : (db.documents.insert id'.bytes row').get? id.bytes = some row) :
      ∃ d, op.draft? = some d ∧ d.id = id := by
    obtain ⟨old, hold, -⟩ := Archive.load_eq_ok hload
    by_cases hid : id.bytes = id'.bytes
    · rw [← hid, hbefore] at hold
      cases hold
    · rw [SortedMap.get?_insert_ne _ hid, hbefore] at hget
      cases hget
  cases heffect with
  | moved asked applied => exact unwritten (by rw [Stock.applyBatch_frame applied])
  | @drafted d' row' asked draft encoded fresh =>
    refine ⟨d', asked, ?_⟩
    by_contra hne
    have hbytes : id.bytes ≠ d'.id.bytes := fun h => hne (Ident.bytes_injective h).symm
    rw [SortedMap.get?_insert_ne _ hbytes, hbefore] at hafter
    cases hafter
  | settled asked loaded draft encoded => exact rewritten loaded hafter
  | posted asked ready applied encoded => exact rewritten ready.loaded hafter
  | fellShort asked ready refused encoded => exact rewritten ready.loaded hafter
  | _ => exact unwritten rfl

/-- A document that was not there before was taken in by an operation that has succeeded. -/
theorem Operation.takes_in {hook : LedgerHook σ} {world : Database × σ}
    (hbefore : world.1.documents.get? id.bytes = none)
    (hafter : (op.run hook.run world).2.1.documents.get? id.bytes = some row) :
    ∃ d answer, op.draft? = some d ∧ d.id = id ∧ (op.run hook.run world).1 = .ok answer := by
  obtain ⟨db', heffect, hcore⟩ := effect_run hook op world
  obtain ⟨d, hd, hid⟩ := draft_of_effect heffect hbefore (by rw [← hcore.documents, hafter])
  cases hanswer : (op.run hook.run world).1 with
  | ok answer => exact ⟨d, answer, hd, hid, rfl⟩
  | error e =>
    rw [unchanged_of_draft hd hanswer, hbefore] at hafter
    cases hafter

end Effects

/-! ## A run of operations -/

/-- The world behind the first `n` of the operations. -/
def worldAfter (hook : SaleHook σ) (ops : List Operation) (world : Database × σ) (n : Nat) :
    Database × σ :=
  runAll hook (ops.take n) world

theorem worldAfter_succ {hook : SaleHook σ} {ops : List Operation} {world : Database × σ} {n : Nat}
    {op : Operation} (h : ops[n]? = some op) :
    worldAfter hook ops world (n + 1) = (op.run hook (worldAfter hook ops world n)).2 :=
  foldl_take_succ h world

/-- Behind the last operation nothing changes. -/
theorem worldAfter_of_length_le {hook : SaleHook σ} {ops : List Operation} {n : Nat}
    (h : ops.length ≤ n) (world : Database × σ) :
    worldAfter hook ops world n = runAll hook ops world := by
  rw [worldAfter, List.take_of_length_le h]

theorem worldAfter_add (hook : SaleHook σ) (ops : List Operation) (world : Database × σ)
    (m n : Nat) :
    worldAfter hook ops world (m + n) =
      worldAfter hook (ops.drop m) (worldAfter hook ops world m) n := by
  unfold worldAfter runAll
  rw [List.take_add, List.foldl_append]

variable {hook : LedgerHook σ} {world : Database × σ} {d : Document} {row : Bytes}

/-- The row of a document is written once at most. -/
theorem rows_of_run {ops : List Operation} (hfits : ∀ op ∈ ops, op.Fits)
    (h : Reachable hook anyOperation world) (hd : d.IsRow row)
    (hrow : world.1.documents.get? d.id.bytes = some row) :
    (∀ n, (worldAfter hook.run ops world n).1.documents.get? d.id.bytes = some row) ∨
      ∃ k op s row', ops[k]? = some op ∧ op.Settles d.id ∧ d.status = .draft ∧
        (d.settle s).IsRow row' ∧
        (∀ n ≤ k, (worldAfter hook.run ops world n).1.documents.get? d.id.bytes = some row) ∧
        ∀ n > k, (worldAfter hook.run ops world n).1.documents.get? d.id.bytes = some row' := by
  induction ops generalizing world d row with
  | nil =>
    left
    intro n
    rw [worldAfter, List.take_nil]
    exact hrow
  | cons op ops ih =>
    obtain ⟨hop, hops⟩ := List.forall_mem_cons.mp hfits
    have hnext : Reachable hook anyOperation (op.run hook.run world).2 := .step h hop trivial
    obtain ⟨db', heffect, hcore⟩ := effect_run hook op world
    have hload := Archive.load_of_row hrow hd.decodeRow
    rcases row_of_effect h.integrity hop heffect hrow hload with
      hsame | ⟨s, row', hasked, hdraft, hs, hencoded, hwritten⟩
    · rw [← hcore.documents] at hsame
      rcases ih hops hnext hd hsame with hall | ⟨k, op', s, row', hk, hrest⟩
      · left
        intro n
        cases n with
        | zero => exact hrow
        | succ n => exact hall n
      · obtain ⟨hasked, hdraft, hd', hbefore, hafter⟩ := hrest
        refine .inr ⟨k + 1, op', s, row', hk, hasked, hdraft, hd', fun n hn => ?_, fun n hn => ?_⟩
        · cases n with
          | zero => exact hrow
          | succ n => exact hbefore n (Nat.le_of_succ_le_succ hn)
        · cases n with
          | zero => cases hn
          | succ n => exact hafter n (Nat.lt_of_succ_lt_succ hn)
    · have hd' : (d.settle s.stored).IsRow row' := by
        rw [← Document.stored_settle hd.stored]
        exact Document.isRow_stored (hd.fits.settle hs) hencoded
      have hid : (d.settle s.stored).id = d.id := (Document.sameContent_settle d s.stored).id
      rw [← hcore.documents] at hwritten
      -- the document is settled now, so no further operation writes its row
      rcases ih hops hnext hd' (by rw [hid]; exact hwritten) with
        hall | ⟨-, -, -, -, -, -, hagain, -⟩
      · rw [hid] at hall
        refine .inr ⟨0, op, s.stored, row', rfl, hasked, hdraft, hd', fun n hn => ?_,
          fun n hn => ?_⟩
        · rw [Nat.le_zero.mp hn]
          exact hrow
        · cases n with
          | zero => cases hn
          | succ n => exact hall n
      · rw [Document.status_settle] at hagain
        exact absurd hagain s.stored.target_ne_draft

/-- How a document fares while operations are carried out: `row n` and `load n` are its row and
what is loaded behind the first `n` of them. -/
inductive Course (d : Document) (ops : List Operation) (row : Nat → Option Bytes)
    (load : Nat → Except ArchiveError Document) : Prop
  /-- It stays a draft, and its row the same. -/
  | draft {r : Bytes} (rows : ∀ n, row n = some r) (loads : ∀ n, load n = .ok d) :
    Course d ops row load
  /-- It is a draft up to an operation that settles it, and stays settled from then on. In both
  times its row is the same. -/
  | settled {k : Nat} {op : Operation} {s : Settlement} {r r' : Bytes} (turn : ops[k]? = some op)
    (asked : op.Settles d.id) (rowsBefore : ∀ n ≤ k, row n = some r)
    (loadsBefore : ∀ n ≤ k, load n = .ok d) (rowsAfter : ∀ n > k, row n = some r')
    (loadsAfter : ∀ n > k, load n = .ok (d.settle s)) : Course d ops row load

theorem course_of_run {ops : List Operation} (hfits : ∀ op ∈ ops, op.Fits)
    (h : Reachable hook anyOperation world) (hd : d.IsRow row)
    (hrow : world.1.documents.get? d.id.bytes = some row) :
    Course d ops (fun n => (worldAfter hook.run ops world n).1.documents.get? d.id.bytes)
      fun n => Archive.load d.id (worldAfter hook.run ops world n).1 := by
  rcases rows_of_run hfits h hd hrow with
    hall | ⟨k, op, s, row', hk, hasked, -, hd', hbefore, hafter⟩
  · exact .draft hall fun n => Archive.load_of_row (hall n) hd.decodeRow
  · exact .settled hk hasked hbefore
      (fun n hn => Archive.load_of_row (hbefore n hn) hd.decodeRow) hafter
      (fun n hn => Archive.load_of_row (hafter n hn) hd'.decodeRow)

/-- At every moment of its course a document is there, with the content it began with. -/
theorem Course.kept {ops : List Operation} {row : Nat → Option Bytes}
    {load : Nat → Except ArchiveError Document} (h : Course d ops row load) (n : Nat) :
    ∃ r d', row n = some r ∧ load n = .ok d' ∧ d'.SameContent d := by
  cases h with
  | draft rows loads => exact ⟨_, d, rows n, loads n, d.sameContent_refl⟩
  | @settled k op s r r' turn asked rowsBefore loadsBefore rowsAfter loadsAfter =>
    rcases Nat.lt_or_ge k n with hn | hn
    · exact ⟨r', d.settle s, rowsAfter n hn, loadsAfter n hn, d.sameContent_settle s⟩
    · exact ⟨r, d, rowsBefore n hn, loadsBefore n hn, d.sameContent_refl⟩

/-- A document that was taken in was a draft, and takes its course from there. -/
theorem Operation.course_of_draft (h : Reachable hook anyOperation world) {op : Operation}
    (hop : op.Fits) (hasked : op.draft? = some d) {answer : Answer}
    (hok : (op.run hook.run world).1 = .ok answer) {ops : List Operation}
    (hfits : ∀ op ∈ ops, op.Fits) :
    d.status = .draft ∧ Course d.stored ops
      (fun n => (worldAfter hook.run ops (op.run hook.run world).2 n).1.documents.get? d.id.bytes)
      fun n => Archive.load d.id (worldAfter hook.run ops (op.run hook.run world).2 n).1 := by
  obtain ⟨hdraft, row, hencoded, -, hdb⟩ := Archive.insert_eq_ok (insert_of_run hasked hok)
  have hd := Document.isRow_stored (fits_draft hop hasked) hencoded
  have hrow : (op.run hook.run world).2.1.documents.get? d.id.bytes = some row := by
    rw [hdb]
    exact SortedMap.get?_insert_self ..
  exact ⟨hdraft, course_of_run hfits (.step h hop trivial) hd hrow⟩

/-- Whatever follows the insertion of a document: its row stays, and holds the content it was
inserted with; nothing else is taken in under its identifier; and its row changes at most once, by
an operation that settles the draft. -/
theorem Document.lifecycle (h : Reachable hook anyOperation world) {op : Operation}
    (hop : op.Fits) (hasked : op.draft? = some d) {answer : Answer}
    (hok : (op.run hook.run world).1 = .ok answer) {ops : List Operation}
    (hfits : ∀ op ∈ ops, op.Fits) :
    let later := worldAfter hook.run ops (op.run hook.run world).2
    (∀ n, ∃ row d', (later n).1.documents.get? d.id.bytes = some row ∧
        Archive.load d.id (later n).1 = .ok d' ∧ d'.SameContent d.stored) ∧
      (∀ n (d' : Document), d'.id = d.id → Archive.insert d' (later n).1 = .error d'.refusal) ∧
      (∀ n (op' : Operation) (d' : Document), op'.draft? = some d' → d'.id = d.id →
        ∃ e, (op'.run hook.run (later n)).1 = .error e) ∧
      d.status = .draft ∧
      Course d.stored ops (fun n => (later n).1.documents.get? d.id.bytes)
        fun n => Archive.load d.id (later n).1 := by
  intro later
  obtain ⟨hdraft, row, hencoded, -, hdb⟩ :=
    Archive.insert_eq_ok (Operation.insert_of_run hasked hok)
  have hd := Document.isRow_stored (Operation.fits_draft hop hasked) hencoded
  have hrow : (op.run hook.run world).2.1.documents.get? d.id.bytes = some row := by
    rw [hdb]
    exact SortedMap.get?_insert_self ..
  have hcourse : Course d.stored ops (fun n => (later n).1.documents.get? d.id.bytes)
      fun n => Archive.load d.id (later n).1 := course_of_run hfits (.step h hop trivial) hd hrow
  have htaken : ∀ n (d' : Document), d'.id = d.id →
      Archive.insert d' (later n).1 = .error d'.refusal := by
    intro n d' hid
    obtain ⟨r, -, hr, -⟩ := hcourse.kept n
    exact Archive.insert_of_taken (by rw [hid]; exact hr)
  refine ⟨hcourse.kept, htaken, fun n op' d' hasked' hid => ?_, hdraft, hcourse⟩
  cases hanswer : (op'.run hook.run (later n)).1 with
  | error e => exact ⟨e, rfl⟩
  | ok answer' =>
    have hinsert := Operation.insert_of_run hasked' hanswer
    rw [htaken n d' hid] at hinsert
    cases hinsert

/-- Nine units are to go out of three: the draft fails when it is posted, as the last of the
operations that follow its insertion. -/
theorem Document.lifecycle_history :
    ∃ world : Database × Unit, Reachable .silent anyOperation world ∧
      let f := Stock.oneLine "f" .outbound (some ⟨"w"⟩) none 9
      let op : Operation := .archive (.insert f)
      let later := worldAfter SaleHook.none (Stock.history.drop 5) (op.run SaleHook.none world).2
      op.Fits ∧ (op.run SaleHook.none world).1 = .ok .done ∧
        (∃ d', Archive.load f.id (later 3).1 = .ok d' ∧ d'.status = .failed ∧
          d'.SameContent f.stored) ∧
        Course f.stored (Stock.history.drop 5) (fun n => (later n).1.documents.get? f.id.bytes)
          fun n => Archive.load f.id (later n).1 := by
  have hreach : Reachable .silent anyOperation
      (runAll LedgerHook.silent.run (Stock.history.take 4) (∅, ())) :=
    (Stock.reachable_history 4).mono fun _ _ _ => trivial
  refine ⟨_, hreach, ?_⟩
  intro f op later
  have hfits : op.Fits := show Document.Fits f by decide
  have hdone : (op.run SaleHook.none
      (runAll LedgerHook.silent.run (Stock.history.take 4) (∅, ()))).1 = .ok .done := by
    decide +kernel
  obtain ⟨hkept, -, -, -, hcourse⟩ := Document.lifecycle hreach hfits rfl hdone
    fun op' h => Stock.fits_history op' (List.mem_of_mem_drop h)
  obtain ⟨row, d', -, hload, hsame⟩ := hkept 3
  have hfailed : (Archive.load f.id (later 3).1).map Document.status = .ok .failed := by
    decide +kernel
  refine ⟨hfits, hdone, ⟨d', hload, ?_, hsame⟩, hcourse⟩
  have hstatus : (Except.ok d' : Except ArchiveError Document).map Document.status = .ok .failed :=
    hload ▸ hfailed
  exact Except.ok.inj hstatus

/-- A document whose identifier is taken is refused as a duplicate only if it is a draft. -/
theorem Archive.insert_again_notDraft :
    let d := Stock.oneLine "d" .inbound none (some ⟨"w"⟩) 5
    ∃ db, insert d ∅ = .ok ((), db) ∧
      insert { d with status := .posted } db = .error (.notDraft ⟨"d"⟩ .posted) ∧
      insert { d with status := .posted } db ≠ .error (.duplicate ⟨"d"⟩) := by
  intro d
  have hinsert : (insert d ∅).isOk = true := by decide +kernel
  cases hresult : insert d ∅ with
  | error e =>
    rw [hresult] at hinsert
    cases hinsert
  | ok result =>
    have hrefused : insert { d with status := .posted } result.2 =
        .error (.notDraft ⟨"d"⟩ .posted) := rfl
    refine ⟨result.2, rfl, hrefused, ?_⟩
    rw [hrefused]
    simp

end Depot
