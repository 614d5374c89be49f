import Depot.Proofs.Document.Lifecycle
import Depot.Proofs.Receivables.Debt
import Depot.Proofs.Receivables.Unseen
import Depot.Proofs.RoundTrip
/-!
# The sale hook is told of the sales, and changes nothing

Every posting runs a hook, be it the engine's or the service's. Whatever the hooks answer, and
whatever they write of what customers owe, no operation but those of the ledger answers differently,
and no other table does. And a hook is called for nothing but a sale that is posted: once, with the
document that is loaded from then on (`Posting.hook_observes`).

Here each operation has a hook of its own (`Operation.perform`). As the system has it, the service
has the ledger's (`Operation.run_eq_perform`).

## How the proof goes

Two runs with different hooks agree step by step on the tables that no hook writes (`SameSeen`).

The calls are those that a hook with a log writes down (`LedgerHook.logged`). What one operation
adds to the log is read off how a posting concludes (`tells_of_perform`). A document that a hook was
told of is settled. It stays so, and is not posted again: no identifier is in the log twice
(`Told`).
-/

namespace Depot

variable {σ τ ε α : Type}

/-! ## Operations with hooks of their own -/

/-- The answers and the databases are the same, and the states of the hooks are related. -/
structure SameWith (R : σ → τ → Prop) (x : Except ε α × (Database × σ))
    (y : Except ε α × (Database × τ)) : Prop where
  answer : x.1 = y.1
  database : x.2.1 = y.2.1
  state : R x.2.2 y.2.2

/-- The hooks write the same, and keep their states related. -/
def SaleHook.SameWith (R : σ → τ → Prop) (hook : SaleHook σ) (hook' : SaleHook τ) : Prop :=
  ∀ d db s t, R s t → (hook d (db, s)).2.1 = (hook' d (db, t)).2.1 ∧
    R (hook d (db, s)).2.2 (hook' d (db, t)).2.2

/-- A posting passes the states of such hooks on. -/
theorem Posting.sameWith_post {R : σ → τ → Prop} {hook : SaleHook σ} {hook' : SaleHook τ}
    (hhooks : hook.SameWith R hook') (id : DocumentId) (approver : String) (now : Timestamp)
    (db : Database) {s : σ} {t : τ} (h : R s t) :
    SameWith R (post hook id approver now (db, s)) (post hook' id approver now (db, t)) := by
  have hattempt : Alike (fun x y => x.1 = y.1 ∧ x.2 = y.2) (attempt id approver now db)
      (attempt id approver now db) :=
    (alike_of_eq rfl).mono fun x y hxy => by rw [hxy]; exact ⟨rfl, rfl⟩
  obtain ⟨hanswer, hdatabase, hstate⟩ :=
    post_alike (Q := fun x y => x.1 = y.1 ∧ R x.2 y.2) hattempt ⟨rfl, h⟩
      (fun _ _ hdb => ⟨hdb, h⟩) fun d db₁ db₂ hdb => by
        subst hdb
        exact hhooks d db₁ s t h
  exact ⟨hanswer, hdatabase, hstate⟩

namespace Operation

variable {op : Operation}

/-- Carry out an operation. If it posts a document, this is the hook that runs for a sale. -/
def perform (hook : SaleHook σ) (op : Operation) (world : Database × σ) :
    Except ServiceError Answer × (Database × σ) :=
  match op.approval? with
  | some (id, approver, now) =>
    let (result, world) := Posting.post hook id approver now world
    ((result.mapError .posting).map .document, world)
  | none => op.run hook world

/-- The hook that an operation has in the system: that of the engine, or the ledger's. -/
def ownHook (engine : LedgerHook σ) : Operation → LedgerHook σ
  | .service (.post _ _ _ recordedAt) => .ledger recordedAt
  | _ => engine

theorem perform_of_some {id : DocumentId} {approver : String} {now : Timestamp}
    (h : op.approval? = some (id, approver, now)) (hook : SaleHook σ) (world : Database × σ) :
    op.perform hook world =
      (((Posting.post hook id approver now world).1.mapError .posting).map .document,
        (Posting.post hook id approver now world).2) := by
  unfold perform
  rw [h]

theorem perform_of_none (h : op.approval? = none) (hook : SaleHook σ) :
    op.perform hook = op.run hook := by
  funext world
  unfold perform
  rw [h]

/-- The system carries out every operation with the hook that it has there. -/
theorem run_eq_perform (engine : LedgerHook σ) (op : Operation) (world : Database × σ) :
    op.run engine.run world = op.perform (op.ownHook engine).run world := by
  cases op with
  | service op =>
    cases op with
    | post id approver now recordedAt =>
      -- the service runs the ledger's hook without a state
      obtain ⟨db, s⟩ := world
      have hhooks : SaleHook.SameWith (fun (_ : Unit) t => t = s) (Receivables.hook recordedAt)
          (Receivables.hook recordedAt) := fun d db' u t h => ⟨rfl, h⟩
      obtain ⟨hanswer, hdatabase, hstate⟩ :=
        Posting.sameWith_post hhooks id approver now db (s := ()) rfl
      have hrun : (service (.post id approver now recordedAt)).run engine.run (db, s) =
          (((Posting.post (Receivables.hook recordedAt) id approver now (db, ())).1.mapError
            .posting).map .document,
            (Posting.post (Receivables.hook recordedAt) id approver now (db, ())).2.1, s) := rfl
      rw [perform_of_some rfl, hrun, hanswer, hdatabase]
      exact Prod.ext rfl (Prod.ext rfl hstate.symm)
    | _ => rfl
  | posting op => cases op <;> rfl
  | _ => rfl

/-- An operation that posts nothing does the same whatever hook there is. -/
theorem sameWith_run {R : σ → τ → Prop} (h : op.approval? = none) (hook : SaleHook σ)
    (hook' : SaleHook τ) (db : Database) {s : σ} {t : τ} (hst : R s t) :
    SameWith R (op.run hook (db, s)) (op.run hook' (db, t)) := by
  cases op with
  | posting op | service op =>
    cases op with
    | post => cases h
    | _ => exact ⟨rfl, rfl, hst⟩
  | stock op | catalog op | archive op | receivables op => cases op <;> exact ⟨rfl, rfl, hst⟩

/-- An operation of the ledger. -/
def IsLedger : Operation → Prop
  | .receivables _ => True
  | _ => False

theorem not_writesReceivables (hop : ¬ op.IsLedger) (h : op.approval? = none) :
    ¬ op.WritesReceivables := by
  cases op with
  | posting op | service op =>
    cases op with
    | post => cases h
    | _ => exact id
  | receivables => exact absurd trivial hop
  | _ => exact id

theorem sameWith_perform {R : σ → τ → Prop} {hook : SaleHook σ} {hook' : SaleHook τ}
    (hhooks : hook.SameWith R hook') (op : Operation) (db : Database) {s : σ} {t : τ} (h : R s t) :
    SameWith R (op.perform hook (db, s)) (op.perform hook' (db, t)) := by
  cases hasked : op.approval? with
  | none =>
    rw [perform_of_none hasked, perform_of_none hasked]
    exact sameWith_run hasked hook hook' db h
  | some asked =>
    obtain ⟨id, approver, now⟩ := asked
    obtain ⟨hanswer, hdatabase, hstate⟩ := Posting.sameWith_post hhooks id approver now db h
    rw [perform_of_some hasked, perform_of_some hasked, hanswer]
    exact ⟨rfl, hdatabase, hstate⟩

/-- What hooks do is not seen by an operation. -/
theorem sameSeen_perform (hop : ¬ op.IsLedger) (hook : LedgerHook σ) (hook' : LedgerHook τ)
    {a b : Database} (h : a.SameCore b) (s : σ) (t : τ) :
    SameSeen (op.perform hook.run (a, s)) (op.perform hook'.run (b, t)) := by
  cases hasked : op.approval? with
  | none =>
    rw [perform_of_none hasked, perform_of_none hasked]
    exact sameSeen_run (not_writesReceivables hop hasked) hook.run hook'.run h s t
  | some asked =>
    obtain ⟨id, approver, now⟩ := asked
    obtain ⟨hanswer, hcore⟩ := sameSeen_post hook hook' h id approver now s t
    rw [perform_of_some hasked, perform_of_some hasked, hanswer]
    exact ⟨rfl, hcore⟩

theorem effect_perform (hook : LedgerHook σ) (op : Operation) (world : Database × σ) :
    ∃ db', Effect op world.1 db' ∧ Database.SameCore db' (op.perform hook.run world).2.1 := by
  cases hasked : op.approval? with
  | none =>
    rw [perform_of_none hasked]
    exact effect_run hook op world
  | some asked =>
    rw [perform_of_some hasked]
    exact effect_post hook op hasked world

end Operation

/-! ## A log of the calls -/

/-- A call of a hook: the document that it is handed, and the database at this time. -/
structure HookCall where
  document : Document
  database : Database

/-- The hook, which writes down its calls besides. -/
def LedgerHook.logged (hook : LedgerHook σ) : LedgerHook (σ × List HookCall) where
  run d world :=
    let (result, db, s) := hook.run d (world.1, world.2.1)
    (result, db, s, world.2.2 ++ [⟨d, world.1⟩])
  sameCore d world := hook.sameCore d (world.1, world.2.1)

/-- The log changes nothing. -/
theorem LedgerHook.sameWith_logged (hook : LedgerHook σ) :
    hook.run.SameWith (fun s t => t.1 = s) hook.logged.run := by
  intro d db s t h
  subst h
  exact ⟨rfl, rfl⟩

/-- The operation has posted this sale, and answers so. -/
structure Operation.Sells (op : Operation) (answer : Except ServiceError Answer) (d : Document) :
    Prop where
  asked : op.approval?.isSome
  answered : answer = .ok (.document d)
  sale : d.kind = .sale

/-- What hooks are told of an operation that is carried out in this world and ends so. -/
inductive Tells (op : Operation) (world : Database × (σ × List HookCall))
    (ended : Except ServiceError Answer × (Database × (σ × List HookCall))) : Prop
  /-- It has posted no sale, and no hook is called. -/
  | nothing (other : ∀ d, ¬ op.Sells ended.1 d) (calls : ended.2.2.2 = world.2.2)
  /-- It has posted a sale, and its hook is called once, when this is written, and handed what is
  loaded then. A time inside a leap second, which no clock gives, is not kept as it is. -/
  | sale {approver : String} {now : Timestamp} {d : Document} {db : Database}
    (asked : op.approval? = some (d.id, approver, now)) (sells : op.Sells ended.1 d)
    (before : ∃ draft, Archive.load d.id world.1 = .ok draft ∧ draft.status = .draft)
    (posted : d.status = .posted) (calls : ended.2.2.2 = world.2.2 ++ [⟨d, db⟩])
    (loaded : Archive.load d.id db = .ok d.stored) (kept : now.IsRegular → d.stored = d)
    (behind : Database.SameCore db ended.2.1)

theorem Posting.stored_recordOf {now : Timestamp} (h : now.IsRegular) (d : Document)
    (approver : String) : (recordOf d approver now).stored = recordOf d approver now := by
  simp only [recordOf, Settlement.stored, PostingRecord.stored, Timestamp.stored_of_regular h]

theorem tells_of_perform {op : Operation} {world : Database × (σ × List HookCall)}
    (hdb : world.1.Integrity) (hfits : op.Fits) (hook : LedgerHook σ) :
    Tells op world (op.perform hook.logged.run world) := by
  cases hasked : op.approval? with
  | none =>
    have hstate := (Operation.sameWith_run (R := fun s _ => s = world.2) hasked hook.logged.run
      hook.logged.run world.1 (t := world.2) rfl).state
    rw [Operation.perform_of_none hasked]
    refine .nothing (fun d h => ?_) (congrArg Prod.snd hstate)
    have hposts := h.asked
    rw [hasked] at hposts
    cases hposts
  | some asked =>
    obtain ⟨id, approver, now⟩ := asked
    have hpost := Posting.post_concludes hook.logged.run id approver now world
    rw [Operation.perform_of_some hasked]
    generalize Posting.post hook.logged.run id approver now world = ended at hpost ⊢
    cases hpost with
    | failed e => exact .nothing (fun d h => by cases h.answered) rfl
    | fellShort => exact .nothing (fun d h => by cases h.answered) rfl
    | @posted d levels moved db row ready applied encoded written =>
      obtain ⟨oldRow, -, rfl, hrow⟩ := hdb.isRow_of_load ready.loaded
      by_cases hsale : d.kind = .sale
      · have hdocuments : db.documents = world.1.documents.insert d.id.bytes row := by
          rw [written]
        have hload := Posting.load_settled hrow
          (Posting.fits_recordOf d (Operation.fits_approver hfits hasked) now) encoded hdocuments
        have hstored := Document.stored_settle hrow.stored (Posting.recordOf d approver now)
        simp only [hsale, if_true]
        refine .sale (d := d.settle (Posting.recordOf d approver now)) hasked
          ⟨by rw [hasked]; rfl, rfl, hsale⟩ ⟨d, ready.loaded, ready.draft⟩ rfl rfl ?_
          (fun hregular => ?_) (hook.sameCore _ (db, world.2.1))
        · rw [hstored]
          exact hload
        · rw [hstored, Posting.stored_recordOf hregular]
      · simp only [hsale, if_false]
        refine .nothing (fun d' h => ?_) rfl
        cases h.answered
        exact hsale h.sale

/-! ## Runs -/

/-- Carry out operations in order, each with its hook. -/
def runEach (hooks : Operation → LedgerHook σ) (ops : List Operation) (world : Database × σ) :
    Database × σ :=
  ops.foldl (fun world op => (op.perform (hooks op).run world).2) world

/-- In the system the engine's hook is the same all along. -/
theorem runEach_ownHook (engine : LedgerHook σ) (ops : List Operation) (world : Database × σ) :
    runEach (Operation.ownHook engine) ops world = runAll engine.run ops world := by
  unfold runEach runAll
  simp only [Operation.run_eq_perform]

section Runs

variable {hooks : Operation → LedgerHook σ} {hooks' : Operation → LedgerHook τ}
  {ops : List Operation}

theorem sameWith_runEach {R : σ → τ → Prop}
    (hhooks : ∀ op, (hooks op).run.SameWith R (hooks' op).run) (ops : List Operation)
    (db : Database) {s : σ} {t : τ} (h : R s t) :
    (runEach hooks ops (db, s)).1 = (runEach hooks' ops (db, t)).1 ∧
      R (runEach hooks ops (db, s)).2 (runEach hooks' ops (db, t)).2 := by
  induction ops generalizing db s t with
  | nil => exact ⟨rfl, h⟩
  | cons op ops ih =>
    obtain ⟨-, hdatabase, hstate⟩ := Operation.sameWith_perform (hhooks op) op db h
    have hrest := ih (op.perform (hooks op).run (db, s)).2.1 hstate
    have hworld : (op.perform (hooks' op).run (db, t)).2 =
        ((op.perform (hooks op).run (db, s)).2.1, (op.perform (hooks' op).run (db, t)).2.2) :=
      Prod.ext hdatabase.symm rfl
    simp only [runEach, List.foldl_cons]
    rw [hworld]
    exact hrest

theorem sameSeen_runEach (hops : ∀ op ∈ ops, ¬ op.IsLedger) {a b : Database} (h : a.SameCore b)
    (s : σ) (t : τ) :
    Database.SameCore (runEach hooks ops (a, s)).1 (runEach hooks' ops (b, t)).1 := by
  induction ops generalizing a b s t with
  | nil => exact h
  | cons op ops ih =>
    obtain ⟨hop, hops⟩ := List.forall_mem_cons.mp hops
    exact ih hops (Operation.sameSeen_perform hop (hooks op) (hooks' op) h s t).core _ _

/-- The calls up to this world: every document that a hook was told of is settled, and was told
once. -/
structure Told (world : Database × (σ × List HookCall)) : Prop where
  integrity : world.1.Integrity
  once : (world.2.2.map fun call => call.document.id).Nodup
  settled : ∀ call ∈ world.2.2, ∃ d,
    Archive.load call.document.id world.1 = .ok d ∧ d.status ≠ .draft

theorem Told.perform {world : Database × (σ × List HookCall)} (h : Told world) {op : Operation}
    (hfits : op.Fits) (hook : LedgerHook σ) : Told (op.perform hook.logged.run world).2 := by
  obtain ⟨db', heffect, hcore⟩ := Operation.effect_perform hook.logged op world
  have hdb := hcore.integrity (h.integrity.of_effect hfits heffect)
  have hstays : ∀ call ∈ world.2.2, ∃ d,
      Archive.load call.document.id (op.perform hook.logged.run world).2.1 = .ok d ∧
        d.status ≠ .draft := by
    intro call hcall
    obtain ⟨d, hload, hsettled⟩ := h.settled call hcall
    refine ⟨d, ?_, hsettled⟩
    rw [Archive.load_congr hcore.documents]
    exact Archive.load_of_effect h.integrity hfits heffect hload hsettled
  cases tells_of_perform h.integrity hfits hook with
  | nothing other calls => exact ⟨hdb, by rw [calls]; exact h.once, by rw [calls]; exact hstays⟩
  | @sale approver now d db asked sells before posted calls loaded kept behind =>
    refine ⟨hdb, ?_, ?_⟩
    · -- who is in the log already is settled, and this one was a draft
      rw [calls, List.map_append, List.map_singleton]
      refine List.nodup_append.mpr ⟨h.once, List.nodup_singleton _, fun id hid id' hid' heq => ?_⟩
      obtain ⟨call, hcall, rfl⟩ := List.mem_map.mp hid
      obtain ⟨d', hload, hsettled⟩ := h.settled call hcall
      obtain ⟨draft, hbefore, hdraft⟩ := before
      rw [heq, List.mem_singleton.mp hid', hbefore] at hload
      cases hload
      exact hsettled hdraft
    · rw [calls]
      intro call hcall
      rcases List.mem_append.mp hcall with hcall | hcall
      · exact hstays call hcall
      · rw [List.mem_singleton.mp hcall]
        refine ⟨d.stored, ?_, ?_⟩
        · rw [Archive.load_congr behind.documents]
          exact loaded
        · show d.status ≠ .draft
          simp [posted]

theorem told_runEach (hfits : ∀ op ∈ ops, op.Fits) {world : Database × (σ × List HookCall)}
    (h : Told world) : Told (runEach (fun op => (hooks op).logged) ops world) := by
  induction ops generalizing world with
  | nil => exact h
  | cons op ops ih =>
    obtain ⟨hop, hops⟩ := List.forall_mem_cons.mp hfits
    exact ih hops (h.perform hop (hooks op))

/-- Whatever hooks the postings have, in a run of all operations but those of the ledger:

* Every operation answers the same as with any other hooks, and leaves the same behind but for what
  customers owe.
* A log of the calls can be taken on the way. It changes nothing.
* The calls are those for the sales that are posted, each when it is posted (`Tells`).
* No document is handed to a hook twice. -/
theorem Posting.hook_observes (hooks : Operation → LedgerHook σ) (hfits : ∀ op ∈ ops, op.Fits)
    (hops : ∀ op ∈ ops, ¬ op.IsLedger) (s : σ) :
    let world n := runEach hooks (ops.take n) (∅, s)
    let watched n := runEach (fun op => (hooks op).logged) (ops.take n) (∅, s, [])
    (∀ (τ : Type) (hooks' : Operation → LedgerHook τ) (t : τ) (n : Nat) (op : Operation),
      ops[n]? = some op → SameSeen (op.perform (hooks op).run (world n))
        (op.perform (hooks' op).run (runEach hooks' (ops.take n) (∅, t)))) ∧
    (∀ n, (watched n).1 = (world n).1 ∧ (watched n).2.1 = (world n).2) ∧
    (∀ n op, ops[n]? = some op →
      Tells op (watched n) (op.perform (hooks op).logged.run (watched n))) ∧
    ∀ n, ((watched n).2.2.map fun call => call.document.id).Nodup := by
  intro world watched
  have htold (n : Nat) : Told (watched n) :=
    told_runEach (fun op hop => hfits op (List.mem_of_mem_take hop))
      ⟨Database.integrity_empty, List.nodup_nil, fun _ hcall => by cases hcall⟩
  refine ⟨fun τ hooks' t n op hop => ?_, fun n => ?_, fun n op hop => ?_, fun n => (htold n).once⟩
  · have hcore : Database.SameCore (world n).1 (runEach hooks' (ops.take n) (∅, t)).1 :=
      sameSeen_runEach (fun op hop => hops op (List.mem_of_mem_take hop)) (.refl ∅) s t
    exact Operation.sameSeen_perform (hops op (List.mem_of_getElem? hop)) _ _ hcore _ _
  · obtain ⟨hdatabase, hstate⟩ := sameWith_runEach (fun op => (hooks op).sameWith_logged)
      (ops.take n) ∅ (t := (s, [])) rfl
    exact ⟨hdatabase.symm, hstate⟩
  · exact tells_of_perform (htold n).integrity (hfits op (List.mem_of_getElem? hop)) (hooks op)

end Runs

/-- A hook that counts its calls, and reports that each of them failed. -/
def LedgerHook.counting : LedgerHook Nat where
  run _ world := (.error "out of order", (world.1, world.2 + 1))
  sameCore _ world := .refl world.1

/-- Of three documents that are to be posted two are sales, and stock suffices for one of them: the
hook is told of this one. -/
theorem Posting.hook_observes_salesHistory :
    let ops := Receivables.salesHistory
    let world n := runEach (fun _ => .counting) (ops.take n) (∅, 0)
    let watched n := runEach (fun _ => LedgerHook.counting.logged) (ops.take n) (∅, 0, [])
    (∀ op ∈ ops, op.Fits) ∧ (∀ op ∈ ops, ¬ op.IsLedger) ∧
      (world 8).2 = 1 ∧ (watched 8).1 = (world 8).1 ∧
      (watched 8).2.2.map HookCall.document = [Receivables.soldDocument] ∧
      ∀ n (op : Operation), ops[n]? = some op →
        (op.perform LedgerHook.counting.run (world n)).1 =
          (op.run LedgerHook.silent.run (runAll LedgerHook.silent.run (ops.take n) (∅, ()))).1 := by
  intro ops world watched
  have hops : ∀ op ∈ ops, ¬ op.IsLedger := by
    simp [ops, Receivables.salesHistory, Receivables.saleDraft, Operation.IsLedger]
  obtain ⟨hsame, hlog, -, -⟩ :=
    hook_observes (fun _ => .counting) Receivables.fits_salesHistory hops 0
  obtain ⟨hdatabase, hcount⟩ := hlog 8
  have hcalled : (watched 8).2.1 = 1 := by decide +kernel
  refine ⟨Receivables.fits_salesHistory, hops, hcount.symm.trans hcalled, hdatabase,
    by decide +kernel, fun n op hop => ?_⟩
  have hanswer := (hsame Unit (Operation.ownHook .silent) () n op hop).answer
  rw [runEach_ownHook, ← Operation.run_eq_perform] at hanswer
  exact hanswer

end Depot
