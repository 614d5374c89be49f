import Depot.Proofs.Catalog.Alike
/-!
# Edits of the catalog are seen in the catalog only

What the catalog says of its entries, the names, prices and locations, has no influence on
documents, stock and debt: documents carry prices of their own. In two databases that differ in this
only, every operation answers the same, up to the entries that it hands out, and leaves two such
databases behind (`sameRun_run`). So changes of entries can be put anywhere into a run, or taken out
of it, and no other operation answers differently (`Catalog.edits_unseen`).

## How the proof goes

One operation of two runs is a matter of the functions it calls (`Alike`). A run with changes of
entries is compared to the run without them: a change leaves a database with the same references as
before, so the other run has nothing to do in the meantime. Two runs that differ in their changes
only have the same run without them.

## The side conditions

The engine's hook does not look at what the entries say (`SaleHook.Blind`). That of the service does
not, nor does the one that does nothing (`Receivables.blind_hook`, `SaleHook.blind_none`). The texts
of the operations fit in memory.
-/

namespace Depot

variable {σ ε α β : Type} {hook : SaleHook σ} {a b : Database}

/-! ## What is shown of an answer -/

/-- The operation hands out entries as it finds them in the catalog. -/
def Operation.showsCatalog : Operation → Bool
  | .catalog (.product _) | .catalog (.updateProduct ..) | .catalog (.warehouse _) => true
  | .catalog .warehouses | .catalog (.relabelWarehouse ..) | .service (.details _) => true
  | _ => false

/-- The answer without what entries of the catalog say. -/
def Answer.redacted : Answer → Answer
  | .product _ => .product .blank
  | .warehouse _ => .warehouse .blank
  | .warehouses ws => .warehouses (ws.map fun _ => .blank)
  | .details x => .details x.redacted
  | answer => answer

/-- The answer to an operation, less what entries say that were found in the catalog. The entry of
a product or warehouse that was asked to be added is shown as it is. -/
def Operation.shown (op : Operation) (answer : Answer) : Answer :=
  if op.showsCatalog then answer.redacted else answer

/-! ## One operation -/

/-- Two runs of an operation show the same answer, and leave the same behind but for what the
entries of the catalog say. -/
structure Operation.SameRun (op : Operation)
    (x y : Except ServiceError Answer × (Database × σ)) : Prop where
  answer : x.1.map op.shown = y.1.map op.shown
  references : x.2.1.SameReferences y.2.1
  state : x.2.2 = y.2.2

section SameRun

variable {op : Operation} {error : ε → ServiceError} {R : α → α → Prop} {answer : α → Answer}

theorem shown_of_alike {x y : Except ε α} (h : Alike R x y)
    (hshown : ∀ x y, R x y → op.shown (answer x) = op.shown (answer y)) :
    ((x.mapError error).map answer).map op.shown =
      ((y.mapError error).map answer).map op.shown := by
  cases h with
  | error e => rfl
  | ok h =>
    simp only [mapError_ok, Except.map]
    rw [hshown _ _ h]

theorem sameRun_update {work : UnitOfWork ε α} (hab : a.SameReferences b)
    (h : Alike (Behind R) (work a) (work b))
    (hshown : ∀ x y, R x y → op.shown (answer x) = op.shown (answer y)) (s : σ) :
    op.SameRun (update work error answer (a, s)) (update work error answer (b, s)) := by
  obtain ⟨hresult, hdb⟩ := h.commit hab
  exact ⟨shown_of_alike hresult hshown, hdb, rfl⟩

theorem sameRun_query {read : Database → Except ε α} (hab : a.SameReferences b)
    (h : Alike R (read a) (read b))
    (hshown : ∀ x y, R x y → op.shown (answer x) = op.shown (answer y)) (s : σ) :
    op.SameRun (query read error answer (a, s)) (query read error answer (b, s)) :=
  ⟨shown_of_alike h hshown, hab, rfl⟩

/-- The same answer shows the same. -/
theorem shown_of_eq (x y : α) (h : x = y) : op.shown (answer x) = op.shown (answer y) := by
  rw [h]

end SameRun

/-- Every operation runs the same where only entries of the catalog say something else. -/
theorem sameRun_run (hblind : hook.Blind) (h : a.SameReferences b) {op : Operation}
    (hfits : op.Fits) (s : σ) : op.SameRun (op.run hook (a, s)) (op.run hook (b, s)) := by
  cases op with
  | stock op =>
    cases op with
    | applyDelta key delta => exact sameRun_update h (h.applyDelta key delta) shown_of_eq s
    | applyBatch batch => exact sameRun_update h (h.applyBatch batch) shown_of_eq s
    | quantity key => exact sameRun_query h (alike_of_eq (h.quantity key).symm) shown_of_eq s
    | levels w => exact sameRun_query h (alike_of_eq (h.levels w).symm) shown_of_eq s
    | total p => exact sameRun_query h (alike_of_eq (h.total p).symm) shown_of_eq s
  | catalog op =>
    cases op with
    | addProduct id name unitPrice =>
      exact sameRun_update h (h.addProduct unitPrice hfits.1 hfits.2) shown_of_eq s
    | product id => exact sameRun_query h (h.product id) (fun _ _ _ => rfl) s
    | updateProduct id name unitPrice =>
      exact sameRun_update h (h.updateProduct id unitPrice hfits) (fun _ _ _ => rfl) s
    | addWarehouse id location =>
      exact sameRun_update h (h.addWarehouse hfits.1 hfits.2) shown_of_eq s
    | warehouse id => exact sameRun_query h (h.warehouse id) (fun _ _ _ => rfl) s
    | warehouses =>
      refine sameRun_query h h.warehousesListed (fun vs ws hlength => ?_) s
      simp [Operation.shown, Operation.showsCatalog, Answer.redacted, List.map_const', hlength]
    | relabelWarehouse id location =>
      exact sameRun_update h (h.relabelWarehouse id hfits) (fun _ _ _ => rfl) s
    | removeWarehouse id => exact sameRun_update h (h.removeWarehouse id) shown_of_eq s
  | archive op =>
    cases op with
    | insert d => exact sameRun_update h (h.insert d) shown_of_eq s
    | load id => exact sameRun_query h (alike_of_eq (h.load id).symm) shown_of_eq s
    | list => exact sameRun_query h (alike_of_eq h.list.symm) shown_of_eq s
    | listByStatus status =>
      exact sameRun_query h (alike_of_eq (h.listByStatus status).symm) shown_of_eq s
    | transition id source target record =>
      exact sameRun_update h (h.transition id source target record) shown_of_eq s
  | posting op =>
    cases op with
    | post id approver now =>
      obtain ⟨hanswer, hdb, hstate⟩ := h.post hblind id approver now s
      refine ⟨?_, hdb, hstate⟩
      show Except.map _ (Except.map _ (Except.mapError _ (Posting.post hook id approver now
        (a, s)).1)) = _
      rw [hanswer]
      rfl
    | void id voidedBy reason now =>
      exact sameRun_update h (h.void id voidedBy reason now) shown_of_eq s
  | receivables op =>
    cases op with
    | record customer document totalValue now =>
      exact sameRun_update h (h.record customer document totalValue now) shown_of_eq s
    | balance customer =>
      exact sameRun_query h (alike_of_eq (h.balance customer).symm) shown_of_eq s
    | purchases customer =>
      exact sameRun_query h (alike_of_eq (h.purchasesOf customer).symm) shown_of_eq s
    | onSalePosted d now => exact sameRun_update h (h.onSalePosted d now) shown_of_eq s
  | service op =>
    cases op with
    | create id request now => exact sameRun_update h (h.create id request now) shown_of_eq s
    | post id approver now recordedAt =>
      obtain ⟨hanswer, hdb, -⟩ := h.post (Receivables.blind_hook recordedAt) id approver now ()
      refine ⟨?_, hdb, rfl⟩
      show Except.map _ (Except.map _ (Except.mapError _ (Posting.post (Receivables.hook recordedAt)
        id approver now (a, ())).1)) = _
      rw [hanswer]
      rfl
    | void id voidedBy reason now =>
      exact sameRun_update h ((h.void id voidedBy reason now).mapError _) shown_of_eq s
    | document id => exact sameRun_query h (alike_of_eq (h.document id).symm) shown_of_eq s
    | details id =>
      refine sameRun_query h (h.details id) (fun x y hxy => ?_) s
      simp [Operation.shown, Operation.showsCatalog, Answer.redacted, hxy]
    | documentsByStatus status =>
      exact sameRun_query h ((alike_of_eq (h.listByStatus status).symm).mapError _) shown_of_eq s
    | pendingDocuments =>
      exact sameRun_query h ((alike_of_eq (h.listByStatus .draft).symm).mapError _) shown_of_eq s
    | stockQuantity key =>
      exact sameRun_query h ((alike_of_eq (h.quantity key).symm).mapError _) shown_of_eq s
    | warehouseStock w =>
      exact sameRun_query h (alike_of_eq (h.warehouseStock w).symm) shown_of_eq s
    | productTotal p =>
      exact sameRun_query h ((alike_of_eq (h.total p).symm).mapError _) shown_of_eq s

/-! ## Runs -/

/-- The operation changes what an entry of the catalog says. -/
def Operation.isEdit : Operation → Bool
  | .catalog (.updateProduct ..) | .catalog (.relabelWarehouse ..) => true
  | _ => false

/-- A change of an entry leaves a database with the same references behind. -/
theorem references_edit (hook : SaleHook σ) (h : a.SameReferences a) {op : Operation}
    (hedit : op.isEdit = true) (hfits : op.Fits) (s : σ) :
    a.SameReferences (op.run hook (a, s)).2.1 ∧ (op.run hook (a, s)).2.2 = s := by
  cases op with
  | catalog op =>
    cases op with
    | updateProduct id name unitPrice =>
      refine ⟨?_, rfl⟩
      simp only [Operation.run, CatalogOperation.run, update, UnitOfWork.commit]
      cases hwork : Catalog.updateProduct id name unitPrice a with
      | error e => exact h
      | ok result => exact h.updateProduct_self hfits hwork
    | relabelWarehouse id location =>
      refine ⟨?_, rfl⟩
      simp only [Operation.run, CatalogOperation.run, update, UnitOfWork.commit]
      cases hwork : Catalog.relabelWarehouse id location a with
      | error e => exact h
      | ok result => exact h.relabelWarehouse_self hfits hwork
    | _ => cases hedit
  | _ => cases hedit

/-- The operations of a run with what their answers show, less the changes of entries. -/
def transcript (hook : SaleHook σ) :
    List Operation → Database × σ → List (Operation × Except ServiceError Answer)
  | [], _ => []
  | op :: ops, world =>
    let rest := transcript hook ops (op.run hook world).2
    if op.isEdit then rest else (op, (op.run hook world).1.map op.shown) :: rest

/-- The operations of a run that change no entry. -/
def withoutEdits (ops : List Operation) : List Operation := ops.filter fun op => !op.isEdit

/-- A run shows what the run without the changes of entries shows. -/
theorem transcript_withoutEdits (hblind : hook.Blind) {ops : List Operation}
    (hfits : ∀ op ∈ ops, op.Fits) (h : a.SameReferences b) (s : σ) :
    transcript hook ops (a, s) = transcript hook (withoutEdits ops) (b, s) ∧
      (runAll hook ops (a, s)).1.SameReferences (runAll hook (withoutEdits ops) (b, s)).1 ∧
      (runAll hook ops (a, s)).2 = (runAll hook (withoutEdits ops) (b, s)).2 := by
  induction ops generalizing a b s with
  | nil => exact ⟨rfl, h, rfl⟩
  | cons op ops ih =>
    obtain ⟨hop, hops⟩ := List.forall_mem_cons.mp hfits
    cases hedit : op.isEdit with
    | true =>
      -- the other run waits
      obtain ⟨hsame, hstate⟩ := references_edit hook h.refl_left hedit hop s
      have hrest := ih hops (hsame.symm.trans h) s
      have hwithout : withoutEdits (op :: ops) = withoutEdits ops := by
        simp [withoutEdits, hedit]
      have hworld : (op.run hook (a, s)).2 = ((op.run hook (a, s)).2.1, s) :=
        Prod.ext rfl hstate
      rw [hwithout, transcript, if_pos hedit, runAll, List.foldl_cons, hworld]
      exact hrest
    | false =>
      obtain ⟨hanswer, hsame, hstate⟩ := sameRun_run hblind h hop s
      have hrest := ih hops hsame (op.run hook (a, s)).2.2
      have hwithout : withoutEdits (op :: ops) = op :: withoutEdits ops := by
        simp [withoutEdits, hedit]
      have hworld : (op.run hook (b, s)).2 =
          ((op.run hook (b, s)).2.1, (op.run hook (a, s)).2.2) := Prod.ext rfl hstate.symm
      rw [hwithout, transcript, transcript, if_neg (by simp [hedit]), if_neg (by simp [hedit]),
        hanswer, runAll, runAll, List.foldl_cons, List.foldl_cons, hworld]
      exact ⟨congrArg _ hrest.1, hrest.2⟩

/-- An operation that hands out no entries shows its answer. -/
theorem map_shown {op : Operation} (h : op.showsCatalog = false)
    (result : Except ServiceError Answer) : result.map op.shown = result := by
  cases result <;> simp [Except.map, Operation.shown, h]

theorem map_redacted {op : Operation} {x y : Except ServiceError Answer}
    (h : x.map op.shown = y.map op.shown) : x.map Answer.redacted = y.map Answer.redacted := by
  cases hshows : op.showsCatalog with
  | false =>
    rw [map_shown hshows, map_shown hshows] at h
    rw [h]
  | true =>
    have hshown : op.shown = Answer.redacted := by
      funext answer
      simp [Operation.shown, hshows]
    rwa [hshown] at h

/-- Where two databases differ in what the catalog says of its entries, every operation answers the
same, up to the entries that it hands out, fails for the same reason, and leaves two such databases
behind. So do two runs that differ in their changes of entries only. -/
theorem Catalog.edits_unseen (hblind : hook.Blind) (h : a.SameReferences b) (s : σ) :
    (∀ op : Operation, op.Fits →
      let x := op.run hook (a, s)
      let y := op.run hook (b, s)
      (op.showsCatalog = false → x.1 = y.1) ∧
        x.1.map Answer.redacted = y.1.map Answer.redacted ∧
        x.2.1.SameReferences y.2.1 ∧ x.2.2 = y.2.2) ∧
    ∀ ops ops' : List Operation, (∀ op ∈ ops, op.Fits) → (∀ op ∈ ops', op.Fits) →
      withoutEdits ops = withoutEdits ops' →
      transcript hook ops (a, s) = transcript hook ops' (b, s) ∧
        (runAll hook ops (a, s)).1.SameReferences (runAll hook ops' (b, s)).1 ∧
        (runAll hook ops (a, s)).2 = (runAll hook ops' (b, s)).2 := by
  constructor
  · intro op hfits
    obtain ⟨hanswer, hreferences, hstate⟩ := sameRun_run hblind h hfits s
    refine ⟨fun hshows => ?_, map_redacted hanswer, hreferences, hstate⟩
    rw [map_shown hshows, map_shown hshows] at hanswer
    exact hanswer
  · intro ops ops' hfits hfits' hwithout
    obtain ⟨hleft, hreferences, hstate⟩ := transcript_withoutEdits hblind hfits h s
    obtain ⟨hright, hreferences', hstate'⟩ :=
      transcript_withoutEdits hblind hfits' h.symm.refl_left s
    rw [← hwithout] at hright hreferences' hstate'
    exact ⟨hleft.trans hright.symm, hreferences.trans hreferences'.symm,
      hstate.trans hstate'.symm⟩

/-! ### A sale while its product becomes dearer -/

/-- A warehouse and a product that costs one. -/
def Catalog.opening : List Operation :=
  [.catalog (.addWarehouse ⟨"w"⟩ "l"), .catalog (.addProduct ⟨"p"⟩ "n" 1)]

/-- The product costs nine, and the warehouse is somewhere else. -/
def Catalog.changes : List Operation :=
  [.catalog (.updateProduct ⟨"p"⟩ none (some 9)), .catalog (.relabelWarehouse ⟨"w"⟩ "m")]

/-- Five units come in. -/
def Catalog.arrival : List Operation :=
  [.stock (.applyDelta ⟨⟨"w"⟩, ⟨"p"⟩⟩ 5),
    .service (.create ⟨"d"⟩ ⟨.sale ⟨"w"⟩ (some ⟨"c"⟩), [⟨⟨"p"⟩, 5, some 1⟩], "a", none⟩
      (.ofUnixNanos 0))]

/-- They are sold, for five in all. -/
def Catalog.sale : List Operation :=
  [.posting (.post ⟨"d"⟩ "b" (.ofUnixNanos 1)), .receivables (.balance ⟨"c"⟩)]

/-- The customer owes five, whenever the product became dearer. -/
theorem Catalog.edits_unseen_sale :
    let hook : SaleHook Unit := Receivables.hook (.ofUnixNanos 1)
    ∃ a b : Database, a ≠ b ∧ hook.Blind ∧ a.SameReferences b ∧
      (∀ op ∈ arrival ++ sale, op.Fits) ∧ (∀ op ∈ arrival ++ changes ++ sale, op.Fits) ∧
      withoutEdits (arrival ++ changes ++ sale) = withoutEdits (arrival ++ sale) ∧
      transcript hook (arrival ++ changes ++ sale) (a, ()) =
        transcript hook (arrival ++ sale) (b, ()) ∧
      (.receivables (.balance ⟨"c"⟩), .ok (.quantity 5)) ∈
        transcript hook (arrival ++ sale) (b, ()) := by
  intro hook
  have hblind : hook.Blind := Receivables.blind_hook _
  have hopening : ∀ op ∈ opening, op.Fits := by
    simp only [opening, List.forall_mem_cons, Operation.Fits]
    exact ⟨⟨by decide, by decide⟩, ⟨by decide, by decide⟩, by simp⟩
  have hchanges : ∀ op ∈ changes, op.Fits := by
    simp only [changes, List.forall_mem_cons, Operation.Fits]
    exact ⟨by simp, by decide, by simp⟩
  have harrival : ∀ op ∈ arrival, op.Fits := by
    have hdraft : (Service.DraftRequest.document ⟨.sale ⟨"w"⟩ (some ⟨"c"⟩),
        [⟨⟨"p"⟩, 5, some 1⟩], "a", none⟩ ⟨"d"⟩ (.ofUnixNanos 0)).Fits := by decide
    simp only [arrival, List.forall_mem_cons, Operation.Fits]
    exact ⟨by decide, hdraft, by simp⟩
  have hsale : ∀ op ∈ sale, op.Fits := by
    simp only [sale, List.forall_mem_cons, Operation.Fits]
    exact ⟨by decide, trivial, by simp⟩
  have hfits : ∀ op ∈ arrival ++ sale, op.Fits := by
    simpa only [List.forall_mem_append] using ⟨harrival, hsale⟩
  have hfits' : ∀ op ∈ arrival ++ changes ++ sale, op.Fits := by
    simpa only [List.forall_mem_append] using ⟨⟨harrival, hchanges⟩, hsale⟩
  have hreach : Reachable (σ := Unit) .silent anyOperation
      (runAll LedgerHook.silent.run opening (∅, ())) :=
    .runAll hopening (fun _ _ _ => trivial) (.start ())
  have hself := Database.SameReferences.of_integrity hreach.integrity
  have hedited := (transcript_withoutEdits hblind hchanges hself ()).2.1.symm
  have hwithout : withoutEdits (arrival ++ changes ++ sale) = withoutEdits (arrival ++ sale) := by
    decide
  have hrun := (edits_unseen hblind hedited ()).2 _ _ hfits' hfits hwithout
  exact ⟨_, _, by decide +kernel, hblind, hedited, hfits, hfits', hwithout, hrun.1,
    by decide +kernel⟩

end Depot
