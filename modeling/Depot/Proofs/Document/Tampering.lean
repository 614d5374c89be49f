import Depot.Proofs.Normalisation
/-!
# A posted document shows tampering with its lines

The posting record holds the digest of the lines as they were posted. A document that carries this
record verifies with those lines and with no others: one more or less, another order, another
product, quantity or price, or a price of zero where there was none. The rest of the document may be
what it likes (`Document.tampering_shows`).

## How the proof goes

Digests are compared as texts, which are equal just if the digests are (`Bytes.hex_injective`). That
equal digests are those of equal byte strings is the assumption on SHA-256, made for the two strings
at hand (`NoCollision`). That equal byte strings are the stored forms of equal lists is the round
trip of lists of lines.
-/

namespace Depot

open Cbor

/-- SHA-256 tells the two byte strings apart if they differ. -/
def NoCollision (a b : Bytes) : Prop := sha256 a = sha256 b → a = b

/-- Lists of lines with the same stored form are the same list. -/
theorem linesBytes_injective {l l' : List DocumentLine} (hl : LawfulStored.Fits l)
    (hl' : LawfulStored.Fits l') (h : linesBytes l = linesBytes l') : l = l' := by
  have hforms : RoundTrips (List DocumentLine) := LawfulStored.roundTrips _
  have storable {lines : List DocumentLine} (hfits : LawfulStored.Fits lines) :
      Storable lines := ⟨hfits, fun t ht => by
    obtain ⟨line, -, hline⟩ := List.mem_flatMap.mp ht
    cases hline⟩
  exact hforms.injective (storable hl) (storable hl') (encode_lines l) (h ▸ encode_lines l')

namespace Document

/-- What a document with the digest of some lines answers with others in their place. -/
theorem verifyContent_withLines {e : Document} {record : PostingRecord}
    (hrecord : e.posting = some record) {posted lines : List DocumentLine}
    (hdigest : record.contentHash = Bytes.hex (sha256 (linesBytes posted))) :
    { e with lines := lines }.verifyContent = true ↔
      sha256 (linesBytes lines) = sha256 (linesBytes posted) := by
  simp only [verifyContent, hrecord, contentHash, beq_iff_eq, hdigest]
  exact ⟨fun h => (Bytes.hex_injective h).symm, fun h => congrArg Bytes.hex h.symm⟩

/-- Only the lines and the posting record of a document decide whether it verifies. -/
theorem verifyContent_congr {e e' : Document} (hlines : e'.lines = e.lines)
    (hposting : e'.posting = e.posting) : e'.verifyContent = e.verifyContent := by
  simp only [verifyContent, contentHash, hlines, hposting]

end Document

namespace Posting

variable {σ : Type}

/-- The record was written by a posting of a document with these lines: it stands in the document
that was answered, or in the one that is loaded from the database that the posting has left. -/
inductive Wrote (hook : SaleHook σ) (id : DocumentId) (approver : String) (now : Timestamp)
    (world : Database × σ) (lines : List DocumentLine) (record : PostingRecord) : Prop
  | answered {d : Document} (posted : (post hook id approver now world).1 = .ok d)
    (sameLines : d.lines = lines) (carried : d.posting = some record)
  | loaded {d d' : Document} (posted : (post hook id approver now world).1 = .ok d)
    (sameLines : d.lines = lines)
    (kept : Archive.load id (UnitOfWork.commit (attempt id approver now) world.1).2 = .ok d')
    (carried : d'.posting = some record)

variable {hook : SaleHook σ} {id : DocumentId} {approver : String} {now : Timestamp}
  {world : Database × σ}

/-- A posting answers the document that it has loaded, settled by the record with the digest of its
lines, and has written this document. -/
theorem exists_of_posted {d : Document} (h : (post hook id approver now world).1 = .ok d) :
    ∃ draft row, Archive.load id world.1 = .ok draft ∧
      d = draft.settle (recordOf draft approver now) ∧ encode d = .ok row ∧
      (UnitOfWork.commit (attempt id approver now) world.1).2.documents.get? id.bytes =
        some row := by
  unfold post UnitOfWork.commit at h
  unfold UnitOfWork.commit
  cases hwork : attempt id approver now world.1 with
  | error e =>
    rw [hwork] at h
    cases h
  | ok result =>
    obtain ⟨outcome, db⟩ := result
    rw [hwork] at h
    obtain ⟨draft, hready, hended⟩ := attempt_eq_ok hwork
    rcases hended with ⟨levels, moved, row, -, hrow, rfl, rfl⟩ | ⟨s, row, -, -, rfl, -⟩
    · cases h
      exact ⟨draft, row, hready.loaded, rfl, hrow, SortedMap.get?_insert_self ..⟩
    · cases h

section Wrote

variable {lines : List DocumentLine} {record : PostingRecord}
  (hmemory : ∀ row, world.1.documents.get? id.bytes = some row → InMemory row)
  (happrover : TextFits approver)

include hmemory happrover

/-- The lines of a document that was posted fit, and what is loaded of it is what was answered. -/
theorem loaded_of_posted {d : Document} (h : (post hook id approver now world).1 = .ok d) :
    LawfulStored.Fits d.lines ∧
      Archive.load id (UnitOfWork.commit (attempt id approver now) world.1).2 = .ok d.stored := by
  obtain ⟨draft, row, hload, rfl, hrow, hwritten⟩ := exists_of_posted h
  obtain ⟨oldRow, hold, hdraft⟩ := Archive.load_eq_ok hload
  have hnormal : Normal draft := normal_of_decode (hmemory oldRow hold) (decodeRow_eq_ok.mp hdraft)
  have hfits : (draft.settle (recordOf draft approver now)).Fits :=
    Document.Fits.settle hnormal.fits (fits_recordOf draft happrover now)
  exact ⟨⟨hfits.lineCount, hfits.lines⟩,
    Archive.load_of_row hwritten (decodeRow_of_reads (Document.reads_encode hfits hrow))⟩

/-- A record that a posting has written holds the digest of the posted lines. -/
theorem Wrote.contentHash (h : Wrote hook id approver now world lines record) :
    LawfulStored.Fits lines ∧ record.contentHash = Bytes.hex (sha256 (linesBytes lines)) := by
  cases h with
  | answered posted sameLines carried =>
    obtain ⟨hfits, -⟩ := loaded_of_posted hmemory happrover posted
    obtain ⟨draft, -, -, rfl, -⟩ := exists_of_posted posted
    cases sameLines
    cases carried
    exact ⟨hfits, rfl⟩
  | loaded posted sameLines kept carried =>
    obtain ⟨hfits, hstored⟩ := loaded_of_posted hmemory happrover posted
    obtain ⟨draft, -, -, rfl, -⟩ := exists_of_posted posted
    cases kept.symm.trans hstored
    cases sameLines
    cases carried
    exact ⟨hfits, rfl⟩

end Wrote

end Posting

/-- Whatever else a document with the record of a posting holds: it verifies with the posted lines,
and with no other lines from whose stored form SHA-256 tells theirs. Only the lines and the posting
record have a part in this. -/
theorem Document.tampering_shows {σ : Type} {hook : SaleHook σ} {id : DocumentId}
    {approver : String} {now : Timestamp} {world : Database × σ} {posted : List DocumentLine}
    {record : PostingRecord}
    (hmemory : ∀ row, world.1.documents.get? id.bytes = some row → InMemory row)
    (happrover : TextFits approver)
    (hwrote : Posting.Wrote hook id approver now world posted record) {e : Document}
    (hrecord : e.posting = some record) :
    (∀ lines, LawfulStored.Fits lines → NoCollision (linesBytes lines) (linesBytes posted) →
      ({ e with lines := lines }.verifyContent = true ↔ lines = posted)) ∧
    ∀ e' : Document, e'.lines = e.lines → e'.posting = e.posting →
      e'.verifyContent = e.verifyContent := by
  obtain ⟨hposted, hdigest⟩ := hwrote.contentHash hmemory happrover
  refine ⟨fun lines hlines hcollision => ?_, fun e' => verifyContent_congr⟩
  rw [verifyContent_withLines hrecord hdigest]
  constructor
  · intro hsame
    exact linesBytes_injective hlines hposted (hcollision hsame)
  · rintro rfl
    rfl

/-- Five units come in for a price of one each. The document that is loaded afterwards verifies as
it is, but not without a price, nor with the price zero. -/
theorem Document.tampering_shows_price :
    let world := runAll SaleHook.none (Stock.history.take 3) ((∅, ()) : Database × Unit)
    let draft := Stock.oneLine "d" .inbound none (some ⟨"w"⟩) 5
    let record : PostingRecord := ⟨"b", .ofUnixNanos 1,
      "46e7671c5bdac69152efd5cdde417be6d46269238554f2b711a5c015ba6fc0d7"⟩
    let e := draft.settle (.posting record)
    let priced (price : Option UInt64) : Document := { e with lines := [⟨⟨"p"⟩, 5, price⟩] }
    (∀ row, world.1.documents.get? draft.id.bytes = some row → InMemory row) ∧ TextFits "b" ∧
      Posting.Wrote SaleHook.none draft.id "b" (.ofUnixNanos 1) world draft.lines record ∧
      Archive.load draft.id (UnitOfWork.commit
        (Posting.attempt draft.id "b" (.ofUnixNanos 1)) world.1).2 = .ok e ∧
      e.verifyContent = true ∧ (priced none).verifyContent = false ∧
      (priced (some 0)).verifyContent = false := by
  intro world draft record e priced
  have hrow : ((world.1.documents.get? draft.id.bytes).all fun row => decide (InMemory row)) =
      true := by decide +kernel
  have hmemory : ∀ row, world.1.documents.get? draft.id.bytes = some row → InMemory row := by
    intro row h
    rw [h] at hrow
    exact of_decide_eq_true hrow
  have happrover : TextFits "b" := by decide
  have hposted : (Posting.post SaleHook.none draft.id "b" (.ofUnixNanos 1) world).1 = .ok e := by
    decide +kernel
  obtain ⟨-, hloaded⟩ := Posting.loaded_of_posted hmemory happrover hposted
  have hstored : e.stored = e := by decide
  rw [hstored] at hloaded
  have hwrote : Posting.Wrote SaleHook.none draft.id "b" (.ofUnixNanos 1) world draft.lines
      record := .loaded hposted rfl hloaded rfl
  obtain ⟨-, hdigest⟩ := hwrote.contentHash hmemory happrover
  obtain ⟨hverifies, -⟩ := Document.tampering_shows hmemory happrover hwrote (e := e) rfl
  have hfits (price : Option UInt64) : LawfulStored.Fits [(⟨⟨"p"⟩, 5, price⟩ : DocumentLine)] := by
    have hproduct : TextFits "p" := by decide
    refine ⟨show 1 ≤ maxUInt64 by decide, fun line hline => ?_⟩
    cases List.mem_singleton.mp hline
    exact hproduct
  have other (price : Option UInt64) (hne : [⟨⟨"p"⟩, 5, price⟩] ≠ draft.lines)
      (hother : Bytes.hex (sha256 (linesBytes [⟨⟨"p"⟩, 5, price⟩])) ≠ record.contentHash) :
      (priced price).verifyContent = false := by
    rw [Bool.eq_false_iff]
    intro h
    refine hne ((hverifies _ (hfits price) fun heq => absurd ?_ hother).mp h)
    rw [heq, hdigest]
  refine ⟨hmemory, happrover, hwrote, hloaded, ?_, ?_, ?_⟩
  · exact (hverifies draft.lines (hfits (some 1)) fun _ => rfl).mpr rfl
  · exact other none (by decide) (by decide +kernel)
  · exact other (some 0) (by decide) (by decide +kernel)

end Depot
