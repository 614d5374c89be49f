import Depot.Proofs.Service.Drafts
/-!
# What the archive lists

Behind every run of operations, the archive lists one document for each identifier under which a
draft was taken in, in the order of identifiers, and each is what is loaded under its identifier.
The listings by status are parts of this one, in the same order, and each document is in the part of
its status and in no other (`Archive.list_of_run`).

## How the proof goes

The rows of a reachable archive can be read and are kept under the identifiers of their documents
(`Database.Integrity`), whichever identifier an operation was given. So a listing is its rows, in
the order of their keys, and what is left to say is which rows there are. The row of a draft that
was taken in stays (`Course.kept`). A row that is there at the end was not there at the beginning,
so an operation of the run put it there, and only one that takes a draft in puts down a new row
(`Operation.takes_in`).
-/

namespace Depot

variable {σ : Type}

/-- An operation of the run has taken in a draft with this identifier. -/
def TakenIn (hook : SaleHook σ) (ops : List Operation) (world : Database × σ) (id : DocumentId) :
    Prop :=
  ∃ n op d answer, AnsweredAt hook ops world n op answer ∧ op.draft? = some d ∧ d.id = id

namespace Archive

/-- The listing of an archive whose documents have the identifiers that are `taken`. -/
structure Listing (db : Database) (taken : DocumentId → Prop) (docs : List Document) : Prop where
  listed : list db = .ok docs
  increasing : docs.Pairwise fun a b => compare a.id.bytes b.id.bytes = .lt
  taken : ∀ id, taken id ↔ ∃ d ∈ docs, d.id = id
  loads : ∀ id d, load id db = .ok d ↔ d ∈ docs ∧ d.id = id

/-- The listings by status, as parts of the listing of all documents. -/
structure Filing (db : Database) (docs : List Document) (part : DocumentStatus → List Document) :
    Prop where
  listed : ∀ status, listByStatus status db = .ok (part status)
  served : ∀ status, Service.documentsByStatus status db = .ok (part status)
  pending : Service.pendingDocuments db = .ok (part .draft)
  sublist : ∀ status, (part status).Sublist docs
  filed : ∀ d ∈ docs, ∀ status, d ∈ part status ↔ d.status = status

/-! ## One archive -/

section Single

variable {db : Database} {docs : List Document}

theorem load_iff_mem (hdb : db.Integrity) (h : list db = .ok docs) (id : DocumentId)
    (d : Document) : load id db = .ok d ↔ d ∈ docs ∧ d.id = id := by
  constructor
  · intro hload
    obtain ⟨-, -, rfl, -⟩ := hdb.isRow_of_load hload
    exact ⟨(mem_list hdb h d).mpr hload, rfl⟩
  · rintro ⟨hmem, rfl⟩
    exact (mem_list hdb h d).mp hmem

/-- What is listed can be listed by status. -/
theorem exists_filing (h : list db = .ok docs) : ∃ part, Filing db docs part := by
  have hlisted (status : DocumentStatus) :
      listByStatus status db = .ok (docs.filter fun d => d.status == status) := bind_ok h rfl
  have hserved (status : DocumentStatus) : Service.documentsByStatus status db =
      .ok (docs.filter fun d => d.status == status) := by
    rw [Service.documentsByStatus, hlisted, mapError_ok]
  refine ⟨fun status => docs.filter fun d => d.status == status, hlisted, hserved, hserved .draft,
    fun _ => List.filter_sublist, fun d hd status => ?_⟩
  rw [List.mem_filter, beq_iff_eq]
  exact ⟨And.right, fun hstatus => ⟨hd, hstatus⟩⟩

end Single

/-! ## Runs -/

section Run

variable {hook : LedgerHook σ} {ops : List Operation} {s : σ}

/-- A document that was taken in is there at the end. -/
theorem exists_load_of_takenIn (hfits : ∀ op ∈ ops, op.Fits) {id : DocumentId}
    (h : TakenIn hook.run ops (∅, s) id) :
    ∃ d, load id (runAll hook.run ops (∅, s)).1 = .ok d := by
  obtain ⟨n, op, d, answer, ⟨hop, hok⟩, hasked, rfl⟩ := h
  have hreach : Reachable hook anyOperation (worldAfter hook.run ops (∅, s) n) :=
    reachable_worldAfter hfits (fun _ _ _ => trivial) s n
  have hrest : ∀ op ∈ ops.drop (n + 1), op.Fits := fun op h => hfits op (List.mem_of_mem_drop h)
  obtain ⟨-, hcourse⟩ :=
    Operation.course_of_draft hreach (hfits op (List.mem_of_getElem? hop)) hasked hok hrest
  obtain ⟨-, d', -, hload, -⟩ := hcourse.kept ops.length
  rw [← worldAfter_succ hop, ← worldAfter_add,
    worldAfter_of_length_le (Nat.le_add_left _ _)] at hload
  exact ⟨d', hload⟩

/-- A document that is there at the end was taken in. -/
theorem takenIn_of_load {id : DocumentId} {d : Document}
    (h : load id (runAll hook.run ops (∅, s)).1 = .ok d) : TakenIn hook.run ops (∅, s) id := by
  obtain ⟨row, hrow, -⟩ := load_eq_ok h
  obtain ⟨n, op, -, hop, hbefore, hafter⟩ := exists_turn hook.run ops (∅, s) (m := 0)
    (P := fun world => world.1.documents.get? id.bytes = none) rfl (by rw [hrow]; nofun)
  obtain ⟨row', hrow'⟩ := Option.ne_none_iff_exists'.mp hafter
  obtain ⟨d', answer, hasked, hid, hok⟩ := Operation.takes_in hbefore hrow'
  exact ⟨n, op, d', answer, ⟨hop, hok⟩, hasked, hid⟩

/-- Whatever operations were carried out: the archive lists exactly one document for each identifier
under which a draft was taken in, in the order of identifiers; each is what is loaded; and each is
listed by its status, and by no other, in the same order. -/
theorem list_of_run (hfits : ∀ op ∈ ops, op.Fits) (s : σ) :
    let world := runAll hook.run ops (∅, s)
    ∃ docs, Listing world.1 (TakenIn hook.run ops (∅, s)) docs ∧
      ∃ part, Filing world.1 docs part := by
  intro world
  have hreach : Reachable hook anyOperation world :=
    .runAll hfits (fun _ _ _ => trivial) (.start s)
  have hdb := hreach.integrity
  obtain ⟨docs, hdocs⟩ := exists_list hdb
  have hloads := load_iff_mem hdb hdocs
  refine ⟨docs, ⟨hdocs, increasing_list hdb hdocs, fun id => ?_, hloads⟩, exists_filing hdocs⟩
  constructor
  · intro htaken
    obtain ⟨d, hload⟩ := exists_load_of_takenIn hfits htaken
    exact ⟨d, (hloads id d).mp hload⟩
  · rintro ⟨d, hmem, hid⟩
    exact takenIn_of_load ((hloads id d).mpr ⟨hmem, hid⟩)

/-- Two drafts come out of order, one of them twice, and one is voided. -/
def arrivals : List Operation :=
  let insert (id : String) : Operation :=
    .archive (.insert (Stock.oneLine id .inbound none (some ⟨"w"⟩) 1))
  [insert "b", insert "a", insert "b", .posting (.void ⟨"a"⟩ "c" none (.ofUnixNanos 1))]

theorem list_of_run_arrivals :
    (∀ op ∈ arrivals, op.Fits) ∧
      let world := runAll SaleHook.none arrivals ((∅, ()) : Database × Unit)
      ∃ docs part, Listing world.1 (TakenIn SaleHook.none arrivals (∅, ())) docs ∧
        Filing world.1 docs part ∧ docs.map Document.id = [⟨"a"⟩, ⟨"b"⟩] ∧
        (part .draft).map Document.id = [⟨"b"⟩] ∧ (part .failed).map Document.id = [⟨"a"⟩] := by
  have hfits : ∀ op ∈ arrivals, op.Fits := by
    have hdrafts : ∀ op ∈ arrivals, ∀ d ∈ op.draft?, d.Fits := by decide
    simp only [arrivals, Operation.draft?, List.forall_mem_cons] at hdrafts
    simp only [arrivals, List.forall_mem_cons]
    exact ⟨hdrafts.1 _ rfl, hdrafts.2.1 _ rfl, hdrafts.2.2.1 _ rfl, ⟨by decide, by simp⟩, by simp⟩
  refine ⟨hfits, ?_⟩
  intro world
  obtain ⟨docs, hlisting, part, hfiling⟩ := @list_of_run Unit .silent arrivals hfits ()
  have hids : (list world.1).map (·.map Document.id) = .ok [⟨"a"⟩, ⟨"b"⟩] := by decide +kernel
  have hdrafts : (listByStatus .draft world.1).map (·.map Document.id) = .ok [⟨"b"⟩] := by
    decide +kernel
  have hfailed : (listByStatus .failed world.1).map (·.map Document.id) = .ok [⟨"a"⟩] := by
    decide +kernel
  have hlisted : list world.1 = .ok docs := hlisting.listed
  have hparts (status : DocumentStatus) : listByStatus status world.1 = .ok (part status) :=
    hfiling.listed status
  rw [hlisted] at hids
  rw [hparts] at hdrafts hfailed
  exact ⟨docs, part, hlisting, hfiling, Except.ok.inj hids, Except.ok.inj hdrafts,
    Except.ok.inj hfailed⟩

end Run

end Archive

end Depot
