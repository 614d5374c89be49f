import Depot.Proofs.Integrity
import Mathlib.Algebra.BigOperators.Group.List.Basic
/-!
# Listings and sums over the archive

A listing of the archive holds exactly the documents that can be loaded, each once (`mem_list`,
`pairwise_list`). A number that every document counts is summed over the rows of the archive
(`rowValue`), where an update changes it by the row put in less the row taken out; the sum over the
rows is the sum over the listing (`sum_listed`).
-/

namespace Depot.Archive

variable {db : Database}

/-! ## Listings -/

theorem list_eq_ok {docs : List Document} (h : list db = .ok docs) :
    db.documents.toList.mapM (fun row => (decodeRow row.2 : Except StoreError Document)) =
      .ok docs :=
  mapError_eq_ok h

theorem exists_list (hdb : db.Integrity) : ∃ docs, list db = .ok docs := by
  obtain ⟨docs, hdocs⟩ := exists_mapM_eq_ok (l := db.documents.toList)
    (f := fun row => (decodeRow row.2 : Except StoreError Document)) fun row hrow => by
      obtain ⟨d, -, hd⟩ := hdb.documents row.1 row.2 (SortedMap.mem_toList_iff.mp hrow)
      exact ⟨d, hd.decodeRow⟩
  refine ⟨docs, ?_⟩
  unfold list Table.records
  rw [hdocs]
  rfl

/-- The row of a document has the key of its identifier. -/
theorem id_of_row (hdb : db.Integrity) {key row : Bytes} {d : Document}
    (hrow : db.documents.get? key = some row) (hd : decodeRow row = .ok d) : d.id.bytes = key := by
  obtain ⟨d', hid, hd'⟩ := hdb.documents key row hrow
  rw [hd'.decodeRow] at hd
  cases hd
  exact hid

/-- What is listed is what can be loaded. -/
theorem mem_list (hdb : db.Integrity) {docs : List Document} (h : list db = .ok docs)
    (d : Document) : d ∈ docs ↔ load d.id db = .ok d := by
  rw [mem_of_mapM_eq_ok (list_eq_ok h)]
  constructor
  · rintro ⟨⟨key, row⟩, hrow, hd⟩
    have hrow := SortedMap.mem_toList_iff.mp hrow
    rw [← id_of_row hdb hrow hd] at hrow
    exact load_of_row hrow hd
  · intro hload
    obtain ⟨row, hrow, hd⟩ := load_eq_ok hload
    exact ⟨(_, row), SortedMap.mem_toList_iff.mpr hrow, hd⟩

/-- The documents are listed in the order of their identifiers, byte by byte. -/
theorem increasing_list (hdb : db.Integrity) {docs : List Document} (h : list db = .ok docs) :
    docs.Pairwise fun a b => compare a.id.bytes b.id.bytes = .lt := by
  have hkeys : docs.map (fun d => d.id.bytes) = db.documents.toList.map Prod.fst :=
    map_of_mapM_eq_ok (list_eq_ok h) fun row hrow d hd =>
      id_of_row hdb (SortedMap.mem_toList_iff.mp hrow) hd
  have hincreasing : (db.documents.toList.map Prod.fst).Pairwise (compare · · = .lt) :=
    List.pairwise_map.mpr db.documents.increasing
  rw [← hkeys, List.pairwise_map] at hincreasing
  exact hincreasing

/-- No two listed documents have the same identifier. -/
theorem pairwise_list (hdb : db.Integrity) {docs : List Document} (h : list db = .ok docs) :
    docs.Pairwise fun a b => a.id ≠ b.id := by
  refine (increasing_list hdb h).imp fun {a b} hlt hid => ?_
  rw [hid, SortedMap.compare_eq_iff.mpr rfl] at hlt
  cases hlt

/-- A row that is written leaves every other document alone. -/
theorem load_insert_of_ne {id id' : DocumentId} (h : id' ≠ id) {row : Bytes} {db' : Database}
    (hdb' : db'.documents = db.documents.insert id.bytes row) : load id' db' = load id' db := by
  have hne : id'.bytes ≠ id.bytes := fun hb => h (Ident.bytes_injective hb)
  unfold load Table.record?
  rw [hdb', SortedMap.get?_insert_ne _ hne]

/-- The row that a document is settled to holds the settled document, under the same identifier. -/
theorem decodeRow_settle (hdb : db.Integrity) {id : DocumentId} {d : Document}
    (hload : load id db = .ok d) {s : Settlement} (hs : s.Fits) {row : Bytes}
    (hrow : encode (d.settle s) = .ok row) :
    decodeRow row = .ok (d.settle s).stored ∧ (d.settle s).stored.id = id := by
  obtain ⟨old, -, rfl, hd⟩ := hdb.isRow_of_load hload
  exact ⟨(Document.isRow_stored (hd.fits.settle hs) hrow).decodeRow, by cases s <;> rfl⟩

/-! ## Sums -/

/-- What a row of the archive counts if its document counts `f`. -/
def rowValue (f : Document → Int) (row : Bytes × Bytes) : Int :=
  match (decodeRow row.2 : Except StoreError Document) with
  | .ok d => f d
  | .error _ => 0

theorem rowValue_eq (f : Document → Int) {key row : Bytes} {d : Document}
    (h : decodeRow row = .ok d) : rowValue f (key, row) = f d := by
  unfold rowValue
  rw [h]

/-- A row adds what its document counts, if it takes the place of none or of a document that counts
nothing. -/
theorem sum_insert (hdb : db.Integrity) (f : Document → Int) {id : DocumentId}
    (hold : ∀ d, load id db = .ok d → f d = 0) {row : Bytes} {d : Document}
    (hd : decodeRow row = .ok d) :
    (db.documents.insert id.bytes row).sum (rowValue f) =
      db.documents.sum (rowValue f) + f d := by
  have hpart : SortedMap.part (rowValue f) id.bytes (db.documents.get? id.bytes) = 0 := by
    cases hrow : db.documents.get? id.bytes with
    | none => rfl
    | some old =>
      obtain ⟨d', hload, -, hd'⟩ := hdb.load_eq hrow
      exact (rowValue_eq f hd'.decodeRow).trans (hold d' hload)
  rw [SortedMap.sum_insert, hpart, rowValue_eq f hd, Int.sub_zero]

/-- The sum over the rows is the sum over the listing. -/
theorem sum_listed (f : Document → Int) {docs : List Document} (h : list db = .ok docs) :
    db.documents.sum (rowValue f) = (docs.map f).sum := by
  have hmap : docs.map f = db.documents.toList.map (rowValue f) :=
    map_of_mapM_eq_ok (list_eq_ok h) fun row _ d hd => (rowValue_eq f hd).symm
  rw [hmap, SortedMap.sum]

/-- A number that only some documents count is summed over these. -/
theorem sum_listed_if (p : Document → Prop) [DecidablePred p] (f : Document → Int)
    {docs : List Document} (h : list db = .ok docs) :
    db.documents.sum (rowValue fun d => if p d then f d else 0) =
      ((docs.filter fun d => p d).map f).sum := by
  rw [sum_listed _ h, List.sum_map_ite, List.sum_map_zero, add_zero]

end Depot.Archive
