import Depot.Proofs.Document.Turn
/-!
# Which documents verify

A posting seals the lines of a document, so a posted document verifies. A document that is not
posted should have no seal, but the archive looks only at the status of a draft it takes in and not
at its records: a draft may bring a posting record of its own, and with the digest of its lines in
it, it verifies as a draft and, once it was voided, as a failed document
(`Document.sealed_draft_verifies`).

What holds is `Document.only_posted_verify`. Whatever is asked after a draft was taken in, as long
as documents are settled by posting and voiding only, a posted document verifies and its record was
written by a posting that succeeded; any other verifies just if the draft did when it was taken in.
So only posted documents verify exactly if the draft did not.

## How the proof goes

The lines of a document never change, nor does their digest. Its posting record is the one it came
with until it is settled, which happens once at most (`Course`), and of the ways to settle it
(`Turn`) only that of a posting writes this record.
-/

namespace Depot

variable {σ : Type}

/-! ## Seals -/

namespace Document

/-- Times are rounded when a document is stored; its seal stays. -/
theorem verifyContent_stored (d : Document) : d.stored.verifyContent = d.verifyContent := by
  cases h : d.posting <;>
    simp [verifyContent, contentHash, stored, PostingRecord.stored, h]

/-- A record of a failure is none of a posting. -/
theorem verifyContent_failure (d : Document) (r : FailureRecord) :
    (d.settle (.failure r)).verifyContent = d.verifyContent := rfl

/-- A posting seals the lines as they are. -/
theorem verifyContent_recordOf (d : Document) (approver : String) (now : Timestamp) :
    (d.settle (Posting.recordOf d approver now)).verifyContent = true :=
  beq_self_eq_true d.contentHash

/-- The operation, carried out in this world, has posted the document: it has answered the posted
document, whose record tells the approver, the time and the digest of the lines. -/
def PostedBy (d : Document) (hook : SaleHook σ) (op : Operation) (world : Database × σ) : Prop :=
  ∃ approver now answer, op.approval? = some (d.id, approver, now) ∧
    (op.run hook world).1 = .ok (.document answer) ∧ d = answer.stored ∧
    d.posting = some ⟨approver, now.stored, d.contentHash⟩

/-- One of the first `n` operations of the run has posted the document. -/
def PostedBefore (d : Document) (hook : SaleHook σ) (ops : List Operation) (world : Database × σ)
    (n : Nat) : Prop :=
  ∃ k < n, ∃ op, ops[k]? = some op ∧ d.PostedBy hook op (worldAfter hook ops world k)

end Document

/-! ## One operation -/

/-- A posting is all that seals a document. -/
theorem Turn.seals {hook : SaleHook σ} {op : Operation} {world : Database × σ} {d d' : Document}
    (h : Turn hook op world d d') (hstored : d.stored = d) (hdraft : d.status = .draft)
    (hregular : op.IsRegular) :
    (d'.status = .posted → d'.verifyContent = true ∧ d'.PostedBy hook op world) ∧
      (d'.status ≠ .posted → d'.verifyContent = d.verifyContent) := by
  cases h with
  | kept =>
    refine ⟨fun hposted => ?_, fun _ => rfl⟩
    rw [hdraft] at hposted
    cases hposted
  | settled asked =>
    obtain ⟨r, rfl⟩ := hregular.voids asked
    exact ⟨nofun, fun _ => d.verifyContent_failure _⟩
  | @posted approver now asked ready answered =>
    refine ⟨fun _ => ⟨d.verifyContent_recordOf approver now.stored, ?_⟩, fun hne => absurd rfl hne⟩
    have hkept := Document.stored_settle hstored (Posting.recordOf d approver now)
    exact ⟨approver, now, _, asked, answered, hkept.symm, rfl⟩
  | fellShort => exact ⟨nofun, fun _ => d.verifyContent_failure _⟩

/-! ## Runs -/

section Run

variable {hook : LedgerHook σ} {world : Database × σ} {d : Document}

/-- At every place of a run, a stored draft that was there at the beginning is sealed by a posting
or by what it came with. -/
theorem Course.seals {ops : List Operation} (hfits : ∀ op ∈ ops, op.Fits)
    (hregular : ∀ op ∈ ops, op.IsRegular) (h : Reachable hook anyOperation world)
    (hstored : d.stored = d) (hdraft : d.status = .draft)
    (hcourse : Course d ops (fun n => (worldAfter hook.run ops world n).1.documents.get? d.id.bytes)
      fun n => Archive.load d.id (worldAfter hook.run ops world n).1) (n : Nat) :
    ∃ d', Archive.load d.id (worldAfter hook.run ops world n).1 = .ok d' ∧
      (d'.status = .posted → d'.verifyContent = true ∧ d'.PostedBefore hook.run ops world n) ∧
      (d'.status ≠ .posted → d'.verifyContent = d.verifyContent) := by
  -- what holds of the draft
  have unsealed {P : Prop} : (d.status = .posted → P) ∧
      (d.status ≠ .posted → d.verifyContent = d.verifyContent) := by
    refine ⟨fun hposted => ?_, fun _ => rfl⟩
    rw [hdraft] at hposted
    cases hposted
  cases hcourse with
  | draft rows loads => exact ⟨d, loads n, unsealed⟩
  | @settled k op s r r' turn asked rowsBefore loadsBefore rowsAfter loadsAfter =>
    rcases Nat.lt_or_ge k n with hn | hn
    · have hop := List.mem_of_getElem? turn
      have hreach : Reachable hook anyOperation (worldAfter hook.run ops world k) :=
        .runAll (fun op h => hfits op (List.mem_of_mem_take h)) (fun _ _ _ => trivial) h
      obtain ⟨found, hfound, hturn⟩ := turn_of_settles hreach.integrity
        (loadsBefore k (Nat.le_refl k)) (hfits op hop) asked
      have hafter := loadsAfter (k + 1) (Nat.lt_succ_self k)
      rw [worldAfter_succ turn, hfound] at hafter
      have hsettled := Except.ok.inj hafter
      obtain ⟨hposted, hother⟩ := hturn.seals hstored hdraft (hregular op hop)
      rw [hsettled] at hposted hother
      exact ⟨d.settle s, loadsAfter n hn,
        fun h => ⟨(hposted h).1, k, hn, op, turn, (hposted h).2⟩, hother⟩
    · exact ⟨d, loadsBefore n hn, unsealed⟩

/-- Whatever follows after a draft was taken in, as long as documents are settled by posting and
voiding only: a posted document verifies, and was posted by an operation of the run; any other
verifies if the draft did. So that only posted documents verify depends on the draft alone. -/
theorem Document.only_posted_verify (h : Reachable hook anyOperation world) {op : Operation}
    (hop : op.Fits) (hasked : op.draft? = some d) {answer : Answer}
    (hok : (op.run hook.run world).1 = .ok answer) {ops : List Operation}
    (hfits : ∀ op ∈ ops, op.Fits) (hregular : ∀ op ∈ ops, op.IsRegular) :
    let taken := (op.run hook.run world).2
    let later := worldAfter hook.run ops taken
    (∀ n, ∃ d', Archive.load d.id (later n).1 = .ok d' ∧
        (d'.status = .posted → d'.verifyContent = true ∧ d'.PostedBefore hook.run ops taken n) ∧
        (d'.status ≠ .posted → d'.verifyContent = d.verifyContent)) ∧
      (d.verifyContent = false ↔ ∀ n d', Archive.load d.id (later n).1 = .ok d' →
        d'.verifyContent = true → d'.status = .posted ∧ d'.PostedBefore hook.run ops taken n) := by
  intro taken later
  obtain ⟨hdraft, hcourse⟩ := Operation.course_of_draft h hop hasked hok hfits
  have hall (n : Nat) : ∃ d', Archive.load d.id (later n).1 = .ok d' ∧
      (d'.status = .posted → d'.verifyContent = true ∧ d'.PostedBefore hook.run ops taken n) ∧
      (d'.status ≠ .posted → d'.verifyContent = d.verifyContent) := by
    rw [← d.verifyContent_stored]
    exact Course.seals hfits hregular (.step h hop trivial) d.stored_stored hdraft hcourse n
  refine ⟨hall, fun hunsealed n d' hload hverifies => ?_, fun hclaim => ?_⟩
  · obtain ⟨found, hfound, hposted, hother⟩ := hall n
    cases hload.symm.trans hfound
    by_cases hstatus : d'.status = .posted
    · exact ⟨hstatus, (hposted hstatus).2⟩
    · rw [hother hstatus, hunsealed] at hverifies
      cases hverifies
  · -- no operation has posted the draft when it was just taken in
    obtain ⟨found, hfound, hposted, hother⟩ := hall 0
    have hnone : found.status ≠ .posted := by
      intro hstatus
      obtain ⟨-, k, hk, -⟩ := hposted hstatus
      exact absurd hk (Nat.not_lt_zero k)
    by_contra hsealed
    rw [Bool.not_eq_false, ← hother hnone] at hsealed
    exact hnone (hclaim 0 found hfound hsealed).1

end Run

/-- Five units come in: the draft does not verify, and the posted document does. -/
theorem Document.only_posted_verify_history :
    ∃ world : Database × Unit, Reachable .silent anyOperation world ∧
      let d := Stock.oneLine "d" .inbound none (some ⟨"w"⟩) 5
      let op : Operation := .archive (.insert d)
      let ops := Stock.history.drop 3
      let taken := (op.run SaleHook.none world).2
      op.Fits ∧ (op.run SaleHook.none world).1 = .ok .done ∧
        ((∀ op ∈ ops, op.Fits) ∧ ∀ op ∈ ops, op.IsRegular) ∧ d.verifyContent = false ∧
        ∃ d', Archive.load d.id (worldAfter SaleHook.none ops taken 3).1 = .ok d' ∧
          d'.verifyContent = true ∧ d'.status = .posted ∧
          d'.PostedBefore SaleHook.none ops taken 3 := by
  have hreach : Reachable .silent anyOperation
      (runAll LedgerHook.silent.run (Stock.history.take 2) (∅, ())) :=
    (Stock.reachable_history 2).mono fun _ _ _ => trivial
  refine ⟨_, hreach, ?_⟩
  intro d op ops taken
  have hop : op.Fits := show Document.Fits d by decide
  have hdone : (op.run SaleHook.none
      (runAll LedgerHook.silent.run (Stock.history.take 2) (∅, ()))).1 = .ok .done := by
    decide +kernel
  have hfits : ∀ op ∈ ops, op.Fits := fun op h => Stock.fits_history op (List.mem_of_mem_drop h)
  have hregular : ∀ op ∈ ops, op.IsRegular := by
    simp [ops, Stock.history, Operation.IsRegular]
  obtain ⟨hall, hclaim⟩ := Document.only_posted_verify hreach hop rfl hdone hfits hregular
  obtain ⟨d', hd', hposted, -⟩ := hall 3
  have hload : Archive.load d.id (worldAfter LedgerHook.silent.run ops taken 3).1 = .ok d' := hd'
  have hstatus : (Archive.load d.id (worldAfter LedgerHook.silent.run ops taken 3).1).map
      Document.status = .ok .posted := by decide +kernel
  rw [hload] at hstatus
  have hverifies := (hposted (Except.ok.inj hstatus)).1
  exact ⟨hop, hdone, ⟨hfits, hregular⟩, rfl, d', hload, hverifies,
    hclaim.mp rfl 3 d' hload hverifies⟩

/-- A draft that brings a posting record with the digest of its lines. -/
def Document.sealedDraft : Document :=
  { Document.draft ⟨"d"⟩ .outbound "a" (.ofUnixNanos 0) with
    source := some ⟨"w"⟩
    lines := [⟨⟨"p"⟩, 1, none⟩]
    posting := some ⟨"m", .ofUnixNanos 0,
      "94fcdfb2577ae6e8e04d9367b5dcb24f85267029e9be8607c32df06bc55eeefe"⟩ }

/-- It is taken in, and verifies though nobody has posted it, as a draft and when it was voided. -/
theorem Document.sealed_draft_verifies :
    let ops : List Operation :=
      [.archive (.insert sealedDraft), .posting (.void ⟨"d"⟩ "c" none (.ofUnixNanos 1))]
    let later := worldAfter SaleHook.none ops ((∅, ()) : Database × Unit)
    (∀ op ∈ ops, op.Fits) ∧ (∀ op ∈ ops, op.IsRegular) ∧
      (∃ d, Archive.load ⟨"d"⟩ (later 1).1 = .ok d ∧ d.verifyContent = true ∧
        d.status = .draft) ∧
      ∃ d, Archive.load ⟨"d"⟩ (later 2).1 = .ok d ∧ d.verifyContent = true ∧
        d.status = .failed := by
  intro ops later
  have hfits : sealedDraft.Fits := by decide
  have hsealed : sealedDraft.verifyContent = true := by decide +kernel
  have hdraft : Archive.load ⟨"d"⟩ (later 1).1 = .ok sealedDraft := by decide +kernel
  have hfailed : Archive.load ⟨"d"⟩ (later 2).1 =
      .ok (sealedDraft.settle (.failure ⟨.voided "c" none, .ofUnixNanos 1⟩)) := by decide +kernel
  refine ⟨?_, ?_, ⟨_, hdraft, hsealed, rfl⟩, _, hfailed, hsealed, rfl⟩
  · simp only [ops, List.forall_mem_cons]
    exact ⟨hfits, ⟨by decide, by simp⟩, by simp⟩
  · simp [ops, Operation.IsRegular]

end Depot
