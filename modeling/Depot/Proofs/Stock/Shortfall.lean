import Depot.Proofs.Document.Turn
import Depot.Proofs.Rollback
/-!
# What a reported shortfall tells

Whenever an operation reports a shortfall, a movement that it asks stock for takes more than is
there (`FallsShort`). The quantity that is reported as available is the stored one. The quantity
that is reported as requested is cut to 64 bits, so where the largest quantity of all is on hand the
two are the same, though less is there than was asked for (`shortfall_of_largest`). Everywhere else
the reported quantities tell that the stock did not suffice, and for a single movement they always
do, since such a movement is a number of 64 bits with a sign (`shortfall_told`).

## How the proof goes

Shortfalls are found in two places, by a batch that is planned and by the check of a transfer that
is made, and both compare exact numbers before they cut the one that is reported. No other step
reports one (`NoShortfall`).
-/

namespace Depot

/-- The shortfall that an error reports. -/
def ServiceError.shortfall? : ServiceError → Option Shortfall
  | .posting (.refused (.insufficient s)) | .stock (.refused (.insufficient s)) => some s
  | _ => none

theorem ServiceError.shortfall?_posting {e : PostingError} {s : Shortfall} :
    (posting e).shortfall? = some s ↔ e = .refused (.insufficient s) := by
  cases e with
  | refused r => cases r <;> simp [shortfall?]
  | _ => simp [shortfall?]

theorem ServiceError.shortfall?_stock {e : StockError} {s : Shortfall} :
    (stock e).shortfall? = some s ↔ e = .refused (.insufficient s) := by
  cases e with
  | refused r => cases r <;> simp [shortfall?]
  | store => simp [shortfall?]

/-- The operation asks stock for the movements of the batch. -/
inductive Operation.Asks (op : Operation) (db : Database) : Batch → Prop
  /-- It applies the batch. -/
  | moved {batch : Batch} (asked : op.batch? = some batch) : Asks op db batch
  /-- It posts a document of the archive. -/
  | posted {id : DocumentId} {approver : String} {now : Timestamp} {d : Document}
    (asked : op.approval? = some (id, approver, now)) (loaded : Archive.load id db = .ok d) :
    Asks op db d.batch
  /-- It makes a transfer, whose source has to cover it. -/
  | made {id : DocumentId} {request : Service.DraftRequest} {now : Timestamp}
    (asked : op = .service (.create id request now))
    (transfer : (request.document id now).kind = .transfer) :
    Asks op db (request.document id now).batch

/-! ## Steps that report none -/

section NoShortfall

variable {ε α : Type}

/-- No error of the step reports a shortfall, once it is `wrap`ped as an error of the service. -/
abbrev NoShortfall (wrap : ε → ServiceError) (step : Except ε α) : Prop :=
  ErrorsMeet (fun e => e.shortfall? = none) wrap step

/-- Errors of other layers are of another kind. -/
theorem noShortfall_of_wrap {wrap : ε → ServiceError} (h : ∀ e, (wrap e).shortfall? = none)
    (step : Except ε α) : NoShortfall wrap step := fun e _ => h e

theorem noShortfall_of_store (step : Except StoreError α) :
    NoShortfall ServiceError.stock (step.mapError StockError.store) := by
  intro e he
  obtain ⟨e, -, rfl⟩ := mapError_eq_error he
  rfl

/-- What such a step reports is no shortfall. -/
theorem absurd_of_noShortfall {step : Except ServiceError α} (h : NoShortfall (·) step)
    {e : ServiceError} (he : step = .error e) {s : Shortfall} (hs : e.shortfall? = some s)
    {P : Prop} : P := by
  rw [h e he] at hs
  cases hs

end NoShortfall

theorem Stock.noShortfall_quantity (key : StockKey) (db : Database) :
    NoShortfall .stock (quantity key db) :=
  noShortfall_of_store _

theorem Stock.noShortfall_warehouseLevels (warehouse : WarehouseId) (db : Database) :
    NoShortfall .stock (warehouseLevels warehouse db) := by
  unfold warehouseLevels
  split
  · exact errorsMeet_error rfl
  · exact noShortfall_of_store _

theorem Stock.noShortfall_productTotal (product : ProductId) (db : Database) :
    NoShortfall .stock (productTotal product db) :=
  noShortfall_of_store _

theorem Posting.noShortfall_void (id : DocumentId) (voidedBy : String) (reason : Option String)
    (now : Timestamp) (db : Database) : NoShortfall .posting (void id voidedBy reason now db) := by
  intro e he
  have hrefused (r : Refusal) : e ≠ .refused r := by
    rintro rfl
    rcases bind_eq_error he with hdraft | ⟨d, -, he⟩
    · exact loadDraft_ne_refused id db r hdraft
    · exact mapError_ne_refused (fun e => ofArchive_ne_refused e r) he
  cases e with
  | refused r => exact absurd rfl (hrefused r)
  | _ => rfl

namespace Service

theorem noShortfall_keep (d : Document) (db : Database) : NoShortfall (·) (keep d db) := by
  refine ErrorsMeet.bind (noShortfall_of_wrap (fun _ => rfl) _).lift fun _ _ => ?_
  refine ErrorsMeet.bind (ErrorsMeet.forM fun w _ => ?_) fun _ _ => ?_
  · exact ErrorsMeet.bind (noShortfall_of_wrap (fun _ => rfl) _).lift fun _ _ => errorsMeet_ok _
  refine ErrorsMeet.bind (ErrorsMeet.forM fun line _ => ?_) fun _ _ => ?_
  · exact ErrorsMeet.bind (noShortfall_of_wrap (fun _ => rfl) _).lift fun _ _ => errorsMeet_ok _
  exact ErrorsMeet.bind (noShortfall_of_wrap (fun _ => rfl) _).lift fun _ _ => errorsMeet_ok _

theorem noShortfall_lookUpWarehouse (id : Option WarehouseId) (db : Database) :
    NoShortfall (·) (lookUpWarehouse id db) := by
  cases id with
  | none => exact errorsMeet_ok _
  | some id => exact (noShortfall_of_wrap (fun _ => rfl) _).lift

theorem noShortfall_details (id : DocumentId) (db : Database) :
    NoShortfall (·) (details id db) := by
  refine ErrorsMeet.bind (noShortfall_of_wrap (fun _ => rfl) _).lift fun d _ => ?_
  refine ErrorsMeet.bind (noShortfall_lookUpWarehouse d.source db) fun _ _ => ?_
  refine ErrorsMeet.bind (noShortfall_lookUpWarehouse d.destination db) fun _ _ => ?_
  refine ErrorsMeet.bind (ErrorsMeet.mapM fun line _ => ?_) fun _ _ => errorsMeet_ok _
  exact (noShortfall_of_wrap (fun _ => rfl) _).lift

theorem noShortfall_warehouseStock (id : WarehouseId) (db : Database) :
    NoShortfall (·) (warehouseStock id db) :=
  ErrorsMeet.bind (noShortfall_of_wrap (fun _ => rfl) _).lift
    fun _ _ => (Stock.noShortfall_warehouseLevels id db).lift

end Service

/-! ## Where shortfalls are found -/

/-- A shortfall that is found when a transfer is made. -/
theorem Service.fallsShort_of_checkAvailable {d : Document} {db : Database} {e : ServiceError}
    (h : checkAvailable d db = .error e) {s : Shortfall} (hs : e.shortfall? = some s) :
    ∃ m ∈ d.batch.toList, Stock.FallsShort db m s := by
  obtain ⟨⟨key, delta⟩, hm, hfail⟩ := exists_of_forM_eq_error h
  refine ⟨(key, delta), hm, ?_⟩
  dsimp only at hfail
  split at hfail
  · cases hfail
  · rcases bind_eq_error hfail with hread | ⟨available, hread, hfail⟩
    · exact absurd_of_noShortfall (Stock.noShortfall_quantity key db).lift hread hs
    · have hquantity := mapError_eq_ok hread
      have hshort : key.warehouse.bytes.length ≤ StockKey.maxWarehouseLength := by
        by_contra hlong
        rw [Stock.quantity_eq_error (Nat.lt_of_not_le hlong)] at hquantity
        cases hquantity
      have honHand : Stock.onHand db key = available := by rw [Stock.onHand, hquantity]
      split at hfail
      · cases hfail
        cases hs
        refine ⟨hshort, ?_, by rw [honHand]⟩
        rw [honHand]
        omega
      · cases hfail

theorem Service.fallsShort_of_create {id : DocumentId} {request : DraftRequest} {now : Timestamp}
    {db : Database} {e : ServiceError} (h : create id request now db = .error e) {s : Shortfall}
    (hs : e.shortfall? = some s) :
    (request.document id now).kind = .transfer ∧
      ∃ m ∈ (request.document id now).batch.toList, Stock.FallsShort db m s := by
  unfold create at h
  dsimp only at h
  split at h
  · rename_i hkind
    refine ⟨hkind, ?_⟩
    rcases bind_eq_error h with hvalid | ⟨-, -, h⟩
    · exact absurd_of_noShortfall (noShortfall_of_wrap (fun _ => rfl) _).lift hvalid hs
    rcases bind_eq_error h with hcheck | ⟨-, -, hkeep⟩
    · exact fallsShort_of_checkAvailable hcheck hs
    · exact absurd_of_noShortfall (noShortfall_keep _ db) hkeep hs
  · exact absurd_of_noShortfall (noShortfall_keep _ db) h hs

/-- A shortfall that a batch is refused for. -/
theorem Stock.fallsShort_of_refused {db : Database} (hdb : db.HoldsQuantities) {batch : Batch}
    {e : StockError} (h : applyBatch batch db = .error e) {s : Shortfall}
    (hs : (ServiceError.stock e).shortfall? = some s) :
    ∃ m ∈ batch.toList, FallsShort db m s := by
  rw [ServiceError.shortfall?_stock.mp hs] at h
  exact fallsShort_of_applyBatch hdb h

section Told

variable {σ : Type} {hook : LedgerHook σ} {op : Operation} {world : Database × σ}
  {e : ServiceError} {s : Shortfall}

/-- A posting that reports a shortfall has found it in the batch of the document, and has written
the row of the document only. -/
theorem Operation.shortfall_of_approval {id : DocumentId} {approver : String} {now : Timestamp}
    (hop : op.approval? = some (id, approver, now)) (he : (op.run hook.run world).1 = .error e)
    (hs : e.shortfall? = some s) :
    ∃ d row, Posting.Ready id approver world.1 d ∧
      Stock.applyBatch d.batch world.1 = .error (.refused (.insufficient s)) ∧
      encode (d.settle (Posting.shortfallRecord s now)) = .ok row ∧
      (op.run hook.run world).2.1 =
        { world.1 with documents := world.1.documents.insert id.bytes row } := by
  have hposting : e = .posting (.refused (.insufficient s)) := by
    obtain ⟨τ, run, t, hanswer, -⟩ := run_of_approval hook hop world
    rw [he] at hanswer
    cases hpost : (Posting.post run.run id approver now (world.1, t)).1 with
    | ok d =>
      rw [hpost] at hanswer
      cases hanswer
    | error e' =>
      rw [hpost] at hanswer
      cases hanswer
      rw [ServiceError.shortfall?_posting.mp hs]
  subst hposting
  have hremains := (remains_run he).database
  generalize (op.run hook.run world).2.1 = db at hremains ⊢
  cases hremains with
  | unchanged other => exact absurd rfl (other (by rw [hop]; rfl) s)
  | shortfall asked ready refused encoded =>
    cases hop.symm.trans asked
    exact ⟨_, _, ready, refused, encoded, rfl⟩

/-- Every shortfall that an operation reports is one of a movement that it asks stock for. -/
theorem Operation.exists_fallsShort (hdb : world.1.HoldsQuantities)
    (he : (op.run hook.run world).1 = .error e) (hs : e.shortfall? = some s) :
    ∃ batch, op.Asks world.1 batch ∧ ∃ m ∈ batch.toList, Stock.FallsShort world.1 m s := by
  -- the error is none of a step that reports no shortfall
  have reported {α : Type} {step : Except ServiceError α} {P : Prop} (hnone : NoShortfall (·) step)
      (hstep : step = .error e) : P := absurd_of_noShortfall hnone hstep hs
  have posts {id : DocumentId} {approver : String} {now : Timestamp}
      (hop : op.approval? = some (id, approver, now)) :
      ∃ batch, op.Asks world.1 batch ∧ ∃ m ∈ batch.toList, Stock.FallsShort world.1 m s := by
    obtain ⟨d, -, hready, hrefused, -⟩ := shortfall_of_approval hop he hs
    exact ⟨d.batch, .posted hop hready.loaded, Stock.fallsShort_of_applyBatch hdb hrefused⟩
  cases op with
  | stock op =>
    cases op with
    | applyDelta key delta =>
      obtain ⟨⟨e', hwork, rfl⟩, -⟩ := update_eq_error he
      rcases bind_eq_error hwork with hbatch | ⟨_, -, hwork⟩
      · exact ⟨_, .moved rfl, Stock.fallsShort_of_refused hdb hbatch hs⟩
      · cases hwork
    | applyBatch batch =>
      obtain ⟨⟨e', hwork, rfl⟩, -⟩ := update_eq_error he
      exact ⟨batch, .moved rfl, Stock.fallsShort_of_refused hdb hwork hs⟩
    | quantity key => exact reported (Stock.noShortfall_quantity key _).query he
    | levels w => exact reported (Stock.noShortfall_warehouseLevels w _).query he
    | total p => exact reported (Stock.noShortfall_productTotal p _).query he
  | catalog op =>
    cases op with
    | product | warehouse | warehouses =>
      exact reported (noShortfall_of_wrap (fun _ => rfl) _).query he
    | _ => exact reported (noShortfall_of_wrap (fun _ => rfl) _).update he
  | archive op =>
    cases op with
    | insert | transition => exact reported (noShortfall_of_wrap (fun _ => rfl) _).update he
    | _ => exact reported (noShortfall_of_wrap (fun _ => rfl) _).query he
  | posting op =>
    cases op with
    | post => exact posts rfl
    | void => exact reported (Posting.noShortfall_void _ _ _ _ _).update he
  | receivables op =>
    cases op with
    | record | onSalePosted => exact reported (noShortfall_of_wrap (fun _ => rfl) _).update he
    | _ => exact reported (noShortfall_of_wrap (fun _ => rfl) _).query he
  | service op =>
    cases op with
    | create id request now =>
      obtain ⟨⟨e', hwork, rfl⟩, -⟩ := update_eq_error he
      obtain ⟨hkind, hshort⟩ := Service.fallsShort_of_create hwork hs
      exact ⟨_, .made rfl hkind, hshort⟩
    | post => exact posts rfl
    | void => exact reported (Posting.noShortfall_void _ _ _ _ _).lift.update he
    | document | documentsByStatus | pendingDocuments =>
      exact reported (noShortfall_of_wrap (fun _ => rfl) _).lift.query he
    | details id => exact reported (Service.noShortfall_details id _).query he
    | stockQuantity key => exact reported (Stock.noShortfall_quantity key _).lift.query he
    | warehouseStock id => exact reported (Service.noShortfall_warehouseStock id _).query he
    | productTotal id => exact reported (Stock.noShortfall_productTotal id _).lift.query he

/-! ## What shortfalls tell -/

/-- What is requested is cut to 64 bits, so it is more than what is available if any quantity is. -/
theorem Stock.FallsShort.lt_iff {db : Database} {m : StockKey × Int} (h : FallsShort db m s) :
    s.available < s.requested ↔ s.available.toNat ≠ maxUInt64 := by
  have hmax : maxUInt64 = 0xFFFFFFFFFFFFFFFF := rfl
  have hlacks := h.lacks
  have hlt := (onHand db m.1).toNat_lt
  rw [h.told, UInt64.lt_iff_toNat_lt]
  dsimp only
  rw [toNat_clamp]
  omega

/-- A movement of 64 bits with a sign takes less than the largest quantity. -/
theorem Stock.FallsShort.lt_of_fitsInt64 {db : Database} {m : StockKey × Int}
    (h : FallsShort db m s) (hm : fitsInt64 m.2 = true) : s.available < s.requested := by
  have hmax : maxUInt64 = 0xFFFFFFFFFFFFFFFF := rfl
  have hlacks := h.lacks
  simp only [fitsInt64, decide_eq_true_eq] at hm
  rw [h.lt_iff, h.told]
  dsimp only
  omega

/-- What a shortfall that an operation has reported tells of the world before and behind it. -/
structure ShortfallTold (op : Operation) (world world' : Database × σ) (s : Shortfall) :
    Prop where
  /-- A movement that was asked for takes more than is there. -/
  asked : ∃ batch, op.Asks world.1 batch ∧ ∃ m ∈ batch.toList, Stock.FallsShort world.1 m s
  before : Stock.quantity ⟨s.warehouse, s.product⟩ world.1 = .ok s.available
  behind : Stock.quantity ⟨s.warehouse, s.product⟩ world'.1 = .ok s.available
  /-- The reported quantities say so, except at the largest quantity. -/
  strict : s.available < s.requested ↔ s.available.toNat ≠ maxUInt64
  single : ∀ key delta, op = .stock (.applyDelta key delta) → s.available < s.requested
  /-- A document that was to be posted holds the shortfall. -/
  recorded : ∀ id approver now, op.approval? = some (id, approver, now) →
    ∃ d, Archive.load id world'.1 = .ok d ∧ d.status = .failed ∧
      d.failure = some ⟨.insufficientStock s, now.stored⟩

/-- In every reachable world: a shortfall that an operation reports, and that a document records if
one was to be posted, is a real one. -/
theorem shortfall_told (h : Reachable hook anyOperation world) (hfits : op.Fits)
    (he : (op.run hook.run world).1 = .error e) (hs : e.shortfall? = some s) :
    ShortfallTold op world (op.run hook.run world).2 s := by
  have hdb := h.integrity
  obtain ⟨batch, hasks, m, hm, hshort⟩ := Operation.exists_fallsShort hdb.quantities he hs
  have hread : Stock.quantity ⟨s.warehouse, s.product⟩ world.1 = .ok s.available := by
    rw [hshort.told]
    exact Stock.quantity_eq_onHand hdb.stock hshort.short
  refine ⟨⟨batch, hasks, m, hm, hshort⟩, hread, ?_, hshort.lt_iff, ?_, ?_⟩
  · have hremains := (remains_run he).database
    generalize (op.run hook.run world).2.1 = db at hremains ⊢
    cases hremains with
    | unchanged => exact hread
    | shortfall => exact hread
  · rintro key delta rfl
    cases hasks with
    | moved asked =>
      cases asked
      rw [Batch.toList_ofList_single, List.mem_singleton] at hm
      subst hm
      exact hshort.lt_of_fitsInt64 hfits
    | posted asked => cases asked
    | made asked => cases asked
  · intro id approver now hop
    obtain ⟨d, row, hready, hrefused, hencoded, hdb'⟩ := Operation.shortfall_of_approval hop he hs
    refine ⟨_, hdb.load_settle hready.loaded (hdb.fits_shortfall hready.loaded hrefused now)
      hencoded (by rw [hdb']), rfl, rfl⟩

end Told

/-- Nine units are to go out of three. -/
theorem shortfall_told_history :
    ∃ world : Database × Unit, Reachable .silent anyOperation world ∧
      let op : Operation := .posting (.post ⟨"f"⟩ "b" (.ofUnixNanos 3))
      let s : Shortfall := ⟨⟨"w"⟩, ⟨"p"⟩, 3, 9⟩
      op.Fits ∧
        (op.run SaleHook.none world).1 = .error (.posting (.refused (.insufficient s))) ∧
        (ServiceError.posting (.refused (.insufficient s))).shortfall? = some s ∧
        ShortfallTold op world (op.run SaleHook.none world).2 s ∧ s.available < s.requested := by
  have hreach : Reachable .silent anyOperation
      (runAll LedgerHook.silent.run (Stock.history.take 7) (∅, ())) :=
    (Stock.reachable_history 7).mono fun _ _ _ => trivial
  refine ⟨_, hreach, ?_⟩
  intro op s
  have hfits : op.Fits := show Cbor.TextFits "b" by decide
  have hanswer : (op.run LedgerHook.silent.run
      (runAll LedgerHook.silent.run (Stock.history.take 7) (∅, ()))).1 =
        .error (.posting (.refused (.insufficient s))) := by decide +kernel
  have htold := shortfall_told hreach hfits hanswer rfl
  exact ⟨hfits, hanswer, rfl, htold, htold.strict.mpr (by decide)⟩

/-- All but one of what is asked for is there, which is as much as there can be. -/
theorem shortfall_of_largest :
    let key : StockKey := ⟨⟨"w"⟩, ⟨"p"⟩⟩
    let fill : Operation := .stock (.applyBatch (.ofList [(key, 18446744073709551615)]))
    let take : Operation := .stock (.applyBatch (.ofList [(key, -18446744073709551616)]))
    let world := (fill.run SaleHook.none ((∅, ()) : Database × Unit)).2
    Reachable .silent anyOperation world ∧ take.Fits ∧
      ∃ s, (take.run SaleHook.none world).1 = .error (.stock (.refused (.insufficient s))) ∧
        Stock.quantity key world.1 = .ok s.available ∧ ¬ s.available < s.requested := by
  intro key fill take world
  have hfill : fill.Fits := by
    show ∀ m ∈ Batch.toList _, _
    decide
  have htake : take.Fits := by
    show ∀ m ∈ Batch.toList _, _
    decide
  exact ⟨.step (.start ()) hfill trivial, htake,
    ⟨key.warehouse, key.product, 18446744073709551615, 18446744073709551615⟩,
    by decide +kernel, by decide +kernel, by decide⟩

end Depot
