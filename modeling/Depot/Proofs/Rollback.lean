import Depot.Proofs.Posting
import Depot.Proofs.RoundTrip
import Depot.Proofs.Transaction
/-!
# An error leaves no trace

An operation that answers with an error has left every row of every table as it was, whatever the
tables hold: records that cannot be read, quantities of other than eight bytes, keys of no form
(`error_leaves_no_trace`). No history is assumed, and nothing of the hook.

The one exception is a posting for which the stock does not suffice: it writes the row of the
document, which has failed, and no other (`Remains.shortfall`).

## How the proof goes

An operation other than a posting is a single unit of work, which is committed as a whole or not
at all (`UnitOfWork.commit`). A posting is committed with one of two outcomes, and only the
rejected one is an error for the caller; a posting that aborts never reports a shortfall
(`Posting.attempt_ne_insufficient`), so the error tells the two apart. The hook of a sale runs once
the answer is fixed.

That an aborted unit of work leaves nothing is no accident of how it is written here: on a working
copy, where rows are written before others are read, batches and postings leave the same
(`Depot.Proofs.Transaction`).

## The side condition

The medium keeps what is committed. If postings are synced and the medium does not confirm one, its
failure is answered although the commit stands: the document may be posted, failed or withdrawn, and
the hook of a posted sale has not run (`Posting.postSynced_of_unconfirmed`,
`Posting.voidSynced_of_unconfirmed`). Every other error leaves what it leaves without syncing
(`remains_postSynced`), and with a medium that confirms, syncing changes nothing
(`Posting.postSynced_of_confirmed`, `Posting.voidSynced_of_confirmed`).
-/

namespace Depot

variable {σ ε α : Type}

/-! ## Postings that abort -/

namespace Posting

theorem ofArchive_ne_refused (e : ArchiveError) (r : Refusal) :
    PostingError.ofArchive e ≠ .refused r := by
  cases e <;> nofun

/-- An error that a step maps into another kind is none of a shortfall. -/
theorem mapError_ne_refused {step : Except ε α} {f : ε → PostingError} {r : Refusal}
    (hf : ∀ e, f e ≠ .refused r) : step.mapError f ≠ .error (.refused r) := by
  intro h
  obtain ⟨e, -, he⟩ := mapError_eq_error h
  exact hf e he

theorem loadDraft_ne_refused (id : DocumentId) (db : Database) (r : Refusal) :
    loadDraft id db ≠ .error (.refused r) := by
  intro h
  rcases bind_eq_error h with hload | ⟨d, -, h⟩
  · exact mapError_ne_refused (fun e => ofArchive_ne_refused e r) hload
  · by_cases hs : d.status = .draft
    · simp only [hs, ne_eq, not_true_eq_false, if_false] at h
      cases h
    · simp only [hs, ne_eq, not_false_eq_true, if_true] at h
      cases h

theorem checkWarehouse_ne_refused (db : Database) (id : WarehouseId) (r : Refusal) :
    checkWarehouse db id ≠ .error (.refused r) := by
  intro h
  rcases bind_eq_error h with hfound | ⟨found, -, h⟩
  · exact mapError_ne_refused (fun _ => by simp) hfound
  · cases found <;> cases h

theorem checkProduct_ne_refused (db : Database) (line : DocumentLine) (r : Refusal) :
    checkProduct db line ≠ .error (.refused r) := by
  intro h
  rcases bind_eq_error h with hfound | ⟨found, -, h⟩
  · exact mapError_ne_refused (fun _ => by simp) hfound
  · cases found <;> cases h

/-- A shortfall is never the reason to abort: it is committed. -/
theorem attempt_ne_insufficient (id : DocumentId) (approver : String) (now : Timestamp)
    (db : Database) (s : Shortfall) :
    attempt id approver now db ≠ .error (.refused (.insufficient s)) := by
  intro h
  rcases bind_eq_error h with hload | ⟨d, -, h⟩
  · exact loadDraft_ne_refused id db _ hload
  rcases bind_eq_error h with hvalid | ⟨-, -, h⟩
  · exact mapError_ne_refused (fun _ => by simp) hvalid
  rcases bind_eq_error h with hwarehouses | ⟨-, -, h⟩
  · obtain ⟨w, -, hw⟩ := exists_of_forM_eq_error hwarehouses
    exact checkWarehouse_ne_refused db w _ hw
  rcases bind_eq_error h with hproducts | ⟨-, -, h⟩
  · obtain ⟨line, -, hline⟩ := exists_of_forM_eq_error hproducts
    exact checkProduct_ne_refused db line _ hline
  split at h
  · rcases bind_eq_error h with hposted | ⟨posted, -, h⟩
    · exact mapError_ne_refused (fun e => ofArchive_ne_refused e _) hposted
    · cases h
  · rcases bind_eq_error h with hfailed | ⟨failed, -, h⟩
    · exact mapError_ne_refused (fun e => ofArchive_ne_refused e _) hfailed
    · cases h
  · rename_i e hother hbatch
    cases e with
    | store e => cases h
    | refused r =>
      cases h
      exact hother s rfl

end Posting

/-! ## What an error leaves -/

/-- The database behind an operation that answers with an error. -/
inductive Remains (op : Operation) (db : Database) : ServiceError → Database → Prop
  /-- It is as it was. A posting that leaves it so reports no shortfall. -/
  | unchanged {e : ServiceError}
    (other : op.approval?.isSome → ∀ s, e ≠ .posting (.refused (.insufficient s))) :
    Remains op db e db
  /-- The stock does not suffice for the document that was to be posted. Its row is written, and
  holds it as failed; every other row is as it was. -/
  | shortfall {id : DocumentId} {approver : String} {now : Timestamp} {d : Document}
    {s : Shortfall} {row : Bytes} (asked : op.approval? = some (id, approver, now))
    (ready : Posting.Ready id approver db d)
    (refused : Stock.applyBatch d.batch db = .error (.refused (.insufficient s)))
    (encoded : encode (d.settle (Posting.shortfallRecord s now)) = .ok row) :
    Remains op db (.posting (.refused (.insufficient s)))
      { db with documents := db.documents.insert id.bytes row }

/-- Every error but that of a shortfall leaves the database as it was. -/
theorem Remains.eq_of_ne {op : Operation} {db db' : Database} {e : ServiceError}
    (h : Remains op db e db') (he : ∀ s, e ≠ .posting (.refused (.insufficient s))) : db' = db := by
  cases h with
  | unchanged other => rfl
  | shortfall asked ready refused encoded => exact absurd rfl (he _)

/-- The world behind an operation that answers with an error: the hook has not run. -/
structure RemainsWorld (op : Operation) (world : Database × σ) (e : ServiceError)
    (world' : Database × σ) : Prop where
  database : Remains op world.1 e world'.1
  state : world'.2 = world.2

section Remains

variable {op : Operation} {world : Database × σ} {e : ServiceError} {hook : SaleHook σ}

theorem remains_update {work : UnitOfWork ε α} {error : ε → ServiceError} {answer : α → Answer}
    (hop : op.approval? = none) (h : (update work error answer world).1 = .error e) :
    RemainsWorld op world e (update work error answer world).2 := by
  rw [(update_eq_error h).2]
  exact ⟨.unchanged (by simp [hop]), rfl⟩

theorem remains_query {read : Database → Except ε α} {error : ε → ServiceError}
    {answer : α → Answer} (hop : op.approval? = none) :
    RemainsWorld op world e (query read error answer world).2 :=
  ⟨.unchanged (by simp [hop]), rfl⟩

/-- A posting that fails was aborted, or committed with a shortfall. -/
theorem remains_post {id : DocumentId} {approver : String} {now : Timestamp}
    (hop : op.approval? = some (id, approver, now)) {e : PostingError}
    (h : (Posting.post hook id approver now world).1 = .error e) :
    RemainsWorld op world (.posting e) (Posting.post hook id approver now world).2 := by
  cases hattempt : Posting.attempt id approver now world.1 with
  | error e' =>
    rw [Posting.post_of_error hattempt] at h ⊢
    cases h
    refine ⟨.unchanged fun _ s hs => ?_, rfl⟩
    cases hs
    exact Posting.attempt_ne_insufficient id approver now world.1 s hattempt
  | ok result =>
    obtain ⟨outcome, db⟩ := result
    obtain ⟨d, hready, hended⟩ := Posting.attempt_eq_ok hattempt
    rcases hended with ⟨levels, moved, row, -, -, rfl, -⟩ | ⟨s, row, hrefused, hrow, rfl, rfl⟩
    · rw [Posting.post_of_posted hattempt] at h
      cases h
    · rw [Posting.post_of_rejected hattempt] at h ⊢
      cases h
      exact ⟨.shortfall hop hready hrefused hrow, rfl⟩

theorem remains_run (h : (op.run hook world).1 = .error e) :
    RemainsWorld op world e (op.run hook world).2 := by
  -- the answer of a posting, wrapped by the layers above it
  have unwrap {answer : Except PostingError Document}
      (hanswer : (answer.mapError ServiceError.posting).map Answer.document = .error e) :
      ∃ e', answer = .error e' ∧ ServiceError.posting e' = e := by
    cases answer with
    | error e' =>
      cases hanswer
      exact ⟨e', rfl, rfl⟩
    | ok d => cases hanswer
  cases op with
  | stock op =>
    cases op with
    | applyDelta | applyBatch => exact remains_update rfl h
    | _ => exact remains_query rfl
  | catalog op =>
    cases op with
    | product | warehouse | warehouses => exact remains_query rfl
    | _ => exact remains_update rfl h
  | archive op =>
    cases op with
    | insert | transition => exact remains_update rfl h
    | _ => exact remains_query rfl
  | posting op =>
    cases op with
    | post id approver now =>
      obtain ⟨e', he', rfl⟩ := unwrap h
      exact remains_post rfl he'
    | void => exact remains_update rfl h
  | receivables op =>
    cases op with
    | record | onSalePosted => exact remains_update rfl h
    | _ => exact remains_query rfl
  | service op =>
    cases op with
    | create | void => exact remains_update rfl h
    | post id approver now recordedAt =>
      obtain ⟨e', he', rfl⟩ := unwrap h
      have hremains : RemainsWorld (.service (.post id approver now recordedAt)) (world.1, ())
          (.posting e') (Posting.post (Receivables.hook recordedAt) id approver now
            (world.1, ())).2 :=
        remains_post rfl he'
      exact ⟨hremains.database, rfl⟩
    | _ => exact remains_query rfl

/-- What the hook reports has no effect on the answer, once the posting is committed. -/
theorem answer_of_posted {id : DocumentId} {approver : String} {now : Timestamp} {d : Document}
    {db : Database} (hop : op.approval? = some (id, approver, now))
    (h : Posting.attempt id approver now world.1 = .ok (.posted d, db)) :
    (op.run hook world).1 = .ok (.document d) := by
  cases op with
  | posting op =>
    cases op with
    | post =>
      cases hop
      simp only [Operation.run, PostingOperation.run, Posting.post_of_posted h]
      rfl
    | void => cases hop
  | service op =>
    cases op with
    | post _ _ _ recordedAt =>
      cases hop
      have hattempt : Posting.attempt id approver now ((world.1, ()) : Database × Unit).1 =
          .ok (.posted d, db) := h
      have hpost : (Posting.post (Receivables.hook recordedAt) id approver now (world.1, ())).1 =
          .ok d :=
        congrArg Prod.fst (Posting.post_of_posted hattempt)
      simp only [Operation.run, ServiceOperation.run, Service.post, hpost]
      rfl
    | _ => cases hop
  | _ => cases hop

end Remains

/-! ## Syncing -/

namespace Posting

theorem confirm_eq_ok_iff {sync : Bool} {medium : Except StorageFault Unit} :
    confirm sync medium = .ok () ↔ (sync = true → medium = .ok ()) := by
  cases sync <;> cases medium <;> simp [confirm, Except.mapError]

section Sync

variable {sync : Bool} {medium : Except StorageFault Unit}

/-- On a medium that confirms, if it is asked at all, synced postings are postings. -/
theorem postSynced_of_confirmed (h : sync = true → medium = .ok ()) (hook : SaleHook σ)
    (id : DocumentId) (approver : String) (now : Timestamp) (world : Database × σ) :
    postSynced sync medium hook id approver now world = post hook id approver now world := by
  rw [postSynced, confirm_eq_ok_iff.mpr h, UnitOfWork.commitOn_ok]
  rfl

/-- On a medium that confirms, if it is asked at all, synced voidings are voidings. -/
theorem voidSynced_of_confirmed (h : sync = true → medium = .ok ()) (id : DocumentId)
    (voidedBy : String) (reason : Option String) (now : Timestamp) (db : Database) :
    voidSynced sync medium id voidedBy reason now db =
      UnitOfWork.commit (void id voidedBy reason now) db := by
  rw [voidSynced, confirm_eq_ok_iff.mpr h, UnitOfWork.commitOn_ok]

/-- A posting that the medium does not confirm leaves what was committed, and nothing else: the hook
has not run. The failure of the medium is answered wherever there was something to confirm. -/
theorem postSynced_of_unconfirmed (fault : StorageFault) (hook : SaleHook σ) (id : DocumentId)
    (approver : String) (now : Timestamp) (world : Database × σ) :
    postSynced true (.error fault) hook id approver now world =
      ((UnitOfWork.commit (attempt id approver now) world.1).1.bind fun _ =>
          .error (.store (.storage fault)),
        (UnitOfWork.commit (attempt id approver now) world.1).2, world.2) := by
  have hconfirm : confirm true (.error fault) = .error (.store (.storage fault)) := rfl
  rw [postSynced, hconfirm, UnitOfWork.commitOn_error]
  cases (UnitOfWork.commit (attempt id approver now) world.1).1 <;> rfl

/-- A voiding that the medium does not confirm stands. -/
theorem voidSynced_of_unconfirmed (fault : StorageFault) (id : DocumentId) (voidedBy : String)
    (reason : Option String) (now : Timestamp) (db : Database) :
    voidSynced true (.error fault) id voidedBy reason now db =
      ((UnitOfWork.commit (void id voidedBy reason now) db).1.bind fun _ =>
          .error (.store (.storage fault)),
        (UnitOfWork.commit (void id voidedBy reason now) db).2) :=
  UnitOfWork.commitOn_error _ _ db

end Sync

end Posting

/-- Whatever the medium answers, every error of a posting but the medium's own leaves what an error
leaves. -/
theorem remains_postSynced {sync : Bool} {medium : Except StorageFault Unit} {hook : SaleHook σ}
    {op : Operation} {world : Database × σ} {id : DocumentId} {approver : String} {now : Timestamp}
    (hop : op.approval? = some (id, approver, now)) {e : PostingError}
    (h : (Posting.postSynced sync medium hook id approver now world).1 = .error e)
    (he : ∀ fault, e ≠ .store (.storage fault)) :
    RemainsWorld op world (.posting e)
      (Posting.postSynced sync medium hook id approver now world).2 := by
  by_cases hmedium : sync = true → medium = .ok ()
  · rw [Posting.postSynced_of_confirmed hmedium] at h ⊢
    exact remains_post hop h
  · obtain ⟨rfl, hfailed⟩ := Classical.not_imp.mp hmedium
    cases medium with
    | ok => exact absurd rfl hfailed
    | error fault =>
      rw [Posting.postSynced_of_unconfirmed] at h ⊢
      cases hattempt : Posting.attempt id approver now world.1 with
      | error e' =>
        -- there was nothing to confirm
        have hpost : Posting.post hook id approver now world = (.error e', world) :=
          Posting.post_of_error hattempt
        simp only [UnitOfWork.commit, hattempt] at h ⊢
        cases h
        have hremains := remains_post hop (congrArg Prod.fst hpost)
        rw [hpost] at hremains
        exact hremains
      | ok result =>
        simp only [UnitOfWork.commit, hattempt] at h
        cases h
        exact absurd rfl (he fault)

/-- A refused batch goes back to the caller's transaction with nothing written to its copy. -/
theorem Stock.applyInPlace_of_refused {batch : Batch} {db : Database} {r : Refusal}
    (h : applyBatch batch db = .error (.refused r)) :
    applyInPlace batch db = (.ok (.error r), db) := by
  have hwork := work_applyInPlace batch db
  rw [h] at hwork
  unfold Transaction.work at hwork
  split at hwork
  · rename_i hcopy
    cases hwork
    exact hcopy
  · cases hwork

/-- Whatever the tables hold, and whatever the hook does: an error leaves the world as it was, but
for the row of a document that the stock does not suffice for; a hook takes nothing back; and the
same is left by transactions that write a working copy row by row. The medium is taken to keep what
is committed. -/
theorem error_leaves_no_trace (hook : SaleHook σ) (op : Operation) (world : Database × σ) :
    (∀ e, (op.run hook world).1 = .error e → RemainsWorld op world e (op.run hook world).2) ∧
      (∀ id approver now d db, op.approval? = some (id, approver, now) →
        Posting.attempt id approver now world.1 = .ok (.posted d, db) →
        (op.run hook world).1 = .ok (.document d)) ∧
      (∀ batch r, Stock.applyBatch batch world.1 = .error (.refused r) →
        Stock.applyInPlace batch world.1 = (.ok (.error r), world.1)) ∧
      (∀ batch, (Stock.applyAlone batch).settle world.1 =
        UnitOfWork.commit (Stock.applyBatch batch) world.1) ∧
      ∀ id approver now, (Posting.attemptInPlace id approver now).settle world.1 =
        UnitOfWork.commit (Posting.attempt id approver now) world.1 :=
  ⟨fun _ h => remains_run h, fun _ _ _ _ _ hop h => answer_of_posted hop h,
    fun _ _ h => Stock.applyInPlace_of_refused h, fun batch => Stock.settle_applyAlone batch _,
    fun id approver now => Posting.settle_attemptInPlace id approver now _⟩

/-- A draft that transfers one piece out of five, to a warehouse whose number of rows is held by a
single byte. -/
def brokenCount : Database :=
  let transfer : Document :=
    { Document.draft ⟨"d"⟩ .transfer "a" (.ofUnixNanos 0) with
      source := some ⟨"v"⟩, destination := some ⟨"w"⟩, lines := [⟨⟨"p"⟩, 1, none⟩] }
  let key : StockKey := ⟨⟨"v"⟩, ⟨"p"⟩⟩
  { Database.empty with
    documents := .insert ∅ (Bytes.ofText "d") (formOf transfer)
    stock := .insert ∅ (key.bytes?.getD []) (Bytes.ofUInt64 5)
    occupancy := (SortedMap.insert ∅ (Bytes.ofText "v") (Bytes.ofUInt64 1)).insert
      (Bytes.ofText "w") [1]
    warehouses := (SortedMap.insert ∅ (Bytes.ofText "v") (Warehouse.bytes ⟨⟨"v"⟩, "l"⟩)).insert
      (Bytes.ofText "w") (Warehouse.bytes ⟨⟨"w"⟩, "l"⟩)
    products := .insert ∅ (Bytes.ofText "p") (Product.bytes ⟨⟨"p"⟩, "n", 1⟩) }

/-- The broken number is met when the piece is out of its warehouse already, on the copy. -/
theorem error_leaves_no_trace_brokenCount :
    let op : Operation := .posting (.post ⟨"d"⟩ "b" (.ofUnixNanos 1))
    (Posting.attemptInPlace ⟨"d"⟩ "b" (.ofUnixNanos 1) brokenCount).2.stock ≠ brokenCount.stock ∧
      ∃ e, (op.run SaleHook.none (brokenCount, ())).1 = .error e ∧
        (op.run SaleHook.none (brokenCount, ())).2 = (brokenCount, ()) := by
  intro op
  have hwritten : (Posting.attemptInPlace ⟨"d"⟩ "b" (.ofUnixNanos 1) brokenCount).2.stock ≠
      brokenCount.stock := by decide +kernel
  have hanswer : (op.run SaleHook.none (brokenCount, ())).1 =
      .error (.posting (.store (.corruptQuantity (Bytes.ofText "w")))) := by decide +kernel
  have hremains := (error_leaves_no_trace SaleHook.none op (brokenCount, ())).1 _ hanswer
  refine ⟨hwritten, _, hanswer, ?_⟩
  exact Prod.ext (hremains.database.eq_of_ne (by simp)) hremains.state

end Depot
