import Depot.Document.ContentHash
import Depot.Proofs.Cbor.Records
import Depot.Proofs.Steps
/-!
# Stored documents are read back

What is read back from the stored form of a document is the document itself, except that each of
its times is replaced by the time so many nanoseconds after the start of 1970 (`Document.stored`):
the two differ only in how a leap second is written. Times that were read or taken from a clock
are already in that form, so a document that was read once is read back unchanged.

`Document.Fits` says that texts and lists have fewer than 2^64 bytes and entries, which every text
and list in memory has.

Main statements: `Document.reads_encode`, `Document.encode_stored` and `Document.encode_isOk_iff`,
which says when a document has a stored form.
-/

namespace Depot

open Cbor

/-! ## Times -/

namespace Timestamp

/-- The time that is read back from the stored form. -/
def stored (t : Timestamp) : Timestamp :=
  match t.unixNanos? with
  | some n => ofUnixNanos n
  | none => t

theorem fitsInt64_of_unixNanos? {t : Timestamp} {n : Int} (h : t.unixNanos? = some n) :
    fitsInt64 n = true := by
  simp only [unixNanos?, Option.ite_none_right_eq_some, Bool.and_eq_true, Option.some.injEq] at h
  obtain ⟨⟨-, hn⟩, rfl⟩ := h
  exact hn

theorem unixNanos?_stored (t : Timestamp) : t.stored.unixNanos? = t.unixNanos? := by
  unfold stored
  split
  · rename_i n h
    rw [h, unixNanos?_ofUnixNanos (fitsInt64_of_unixNanos? h)]
  · rfl

theorem encode_eq_ok {t : Timestamp} {b : Bytes} (h : encode t = .ok b) :
    ∃ n, t.unixNanos? = some n ∧ b = writeInt n := by
  simp only [encode] at h
  split at h
  · rename_i n hn
    cases h
    exact ⟨n, hn, rfl⟩
  · cases h

theorem encode_isOk_iff (t : Timestamp) : (∃ b, encode t = .ok b) ↔ t.unixNanos?.isSome := by
  simp only [encode]
  cases t.unixNanos? <;> simp

theorem encode_stored (t : Timestamp) : encode t.stored = encode t := by
  simp only [encode, unixNanos?_stored]

theorem reads_encode {t : Timestamp} {b : Bytes} (h : encode t = .ok b) :
    Reads Stored.read b t.stored := by
  intro rest
  obtain ⟨n, hn, rfl⟩ := encode_eq_ok h
  have hr := reads_writeInt (fitsInt64_of_unixNanos? hn) rest
  simp only [Stored.read, hr, bind, Except.bind, stored, hn]
  rfl

end Timestamp

/-- What is written for an optional field is read back, if it is for every value. -/
theorem readsOption_mapM {α : Type} [Stored α] {back : α → α} {o : Option α} {b : Option Bytes}
    (h : o.mapM encode = .ok b)
    (hr : ∀ x ∈ o, ∀ c, encode x = .ok c → Reads Stored.read c (back x) ∧ Present c) :
    ReadsOption Stored.read b (o.map back) := by
  cases o with
  | none =>
    cases h
    trivial
  | some x =>
    cases hx : encode x with
    | error fault => simp [hx, Functor.map, Except.map] at h
    | ok c =>
      simp only [Option.mapM_some, hx, Functor.map, Except.map, Except.ok.injEq] at h
      subst h
      exact hr x rfl c hx

/-! ## Identifiers, kinds and statuses -/

/-- Every alternative without fields is read back by its index. -/
theorem reads_plain {α : Type} {alternative? : Int → Option α} {index : Nat} {x : α}
    (hindex : index ≤ maxInt64) (h : alternative? index = some x) :
    Reads (readPlain alternative?) (writeAlternative index []) x := by
  intro rest
  rw [readPlain, readAlternativeHead_writeAlternative index hindex]
  simp only [bind, Except.bind, h, skip_writeRecord_nil]
  rfl

theorem DocumentKind.reads_encode (kind : DocumentKind) :
    Reads Stored.read (writeAlternative kind.index []) kind := by
  cases kind <;> exact reads_plain (by decide) rfl

theorem DocumentStatus.reads_encode (status : DocumentStatus) :
    Reads Stored.read (writeAlternative status.index []) status := by
  cases status <;> exact reads_plain (by decide) rfl

/-- The texts of an identifier that may be absent fit. -/
def IdentFits {e : Entity} (o : Option (Ident e)) : Prop := ∀ i ∈ o, TextFits i.text

instance {e : Entity} (o : Option (Ident e)) : Decidable (IdentFits o) :=
  inferInstanceAs (Decidable (∀ i ∈ o, TextFits i.text))

theorem readsOption_ident {e : Entity} {o : Option (Ident e)} (h : IdentFits o) :
    ReadsOption Stored.read (o.map fun i => writeText i.text) o :=
  readsOption_map fun i hi => ⟨reads_ident (h i hi), present_writeText (h i hi)⟩

/-! ## Lines -/

/-- The texts of the line fit. -/
def DocumentLine.Fits (line : DocumentLine) : Prop := TextFits line.product.text

instance : DecidablePred DocumentLine.Fits := fun line =>
  inferInstanceAs (Decidable (TextFits line.product.text))

theorem DocumentLine.reads_bytes {line : DocumentLine} (h : line.Fits) :
    Reads Stored.read line.bytes line := by
  intro rest
  have hprice : ReadsOption readUInt64 (line.unitPrice.map fun price => writeNat price.toNat)
      line.unitPrice := readsOption_map fun price _ => by
    have hle : price.toNat ≤ maxUInt64 := Nat.le_of_lt_succ price.toNat_lt
    have hp := present_head .unsigned hle (by decide) (by decide) []
    rw [List.append_nil] at hp
    exact ⟨reads_uint64 price, hp⟩
  refine bind_ok (readArrayHead_writeRecord (by simp [maxUInt64]) rest) ?_
  refine bind_ok (readField_body (reads_ident h) _ rest) ?_
  refine bind_ok (readField_body (reads_uint64 line.quantity) _ rest) ?_
  refine bind_ok (readOptional_body hprice _ rest) ?_
  exact bind_ok (readRecordEnd_body rest) rfl

/-! ## Records of a document's life -/

namespace PostingRecord

/-- The texts of the record fit. -/
def Fits (r : PostingRecord) : Prop := TextFits r.approvedBy ∧ TextFits r.contentHash

instance : DecidablePred Fits := fun r =>
  inferInstanceAs (Decidable (TextFits r.approvedBy ∧ TextFits r.contentHash))

/-- The record that is read back. -/
def stored (r : PostingRecord) : PostingRecord := { r with postedAt := r.postedAt.stored }

theorem encode_stored (r : PostingRecord) : encode r.stored = encode r := by
  show (encode r.postedAt.stored >>= fun t => _) = _
  rw [Timestamp.encode_stored]
  rfl

theorem encode_isOk_iff (r : PostingRecord) :
    (∃ b, encode r = .ok b) ↔ r.postedAt.unixNanos?.isSome := by
  rw [← Timestamp.encode_isOk_iff]
  constructor
  · rintro ⟨b, hb⟩
    obtain ⟨t, ht, -⟩ := bind_eq_ok hb
    exact ⟨t, ht⟩
  · rintro ⟨t, ht⟩
    exact ⟨_, bind_ok ht rfl⟩

theorem reads_encode {r : PostingRecord} (hfits : r.Fits) {b : Bytes} (h : encode r = .ok b) :
    Reads Stored.read b r.stored ∧ Present b := by
  obtain ⟨t, ht, hb⟩ := bind_eq_ok h
  cases hb
  refine ⟨fun rest => ?_, present_writeRecord (by simp [maxUInt64])⟩
  refine bind_ok (readArrayHead_writeRecord (by simp [maxUInt64]) rest) ?_
  refine bind_ok (readField_body (reads_writeText hfits.1) _ rest) ?_
  refine bind_ok (readField_body (Timestamp.reads_encode ht) _ rest) ?_
  refine bind_ok (readField_body (reads_writeText hfits.2) _ rest) ?_
  exact bind_ok (readRecordEnd_body rest) rfl

end PostingRecord

/-- The texts of the shortfall fit. -/
def Shortfall.Fits (s : Shortfall) : Prop := TextFits s.warehouse.text ∧ TextFits s.product.text

instance : DecidablePred Shortfall.Fits := fun s =>
  inferInstanceAs (Decidable (TextFits s.warehouse.text ∧ TextFits s.product.text))

/-- The fields of a shortfall as they are written. -/
def Shortfall.fields (s : Shortfall) : List (Option Bytes) :=
  [writeText s.warehouse.text, writeText s.product.text, writeNat s.available.toNat,
    writeNat s.requested.toNat]

theorem Shortfall.reads_fields {s : Shortfall} (h : s.Fits) :
    Reads Stored.read (writeRecord s.fields) s := by
  intro rest
  refine bind_ok (readArrayHead_writeRecord (by simp [fields, maxUInt64]) rest) ?_
  refine bind_ok (readField_body (reads_ident h.1) _ rest) ?_
  refine bind_ok (readField_body (reads_ident h.2) _ rest) ?_
  refine bind_ok (readField_body (reads_uint64 s.available) _ rest) ?_
  refine bind_ok (readField_body (reads_uint64 s.requested) _ rest) ?_
  exact bind_ok (readRecordEnd_body rest) rfl

namespace FailureReason

/-- The texts of the reason fit. -/
def Fits : FailureReason → Prop
  | insufficientStock s => s.Fits
  | voided voidedBy reason => TextFits voidedBy ∧ ∀ text ∈ reason, TextFits text

instance : DecidablePred Fits
  | insufficientStock s => inferInstanceAs (Decidable s.Fits)
  | voided voidedBy reason =>
    inferInstanceAs (Decidable (TextFits voidedBy ∧ ∀ text ∈ reason, TextFits text))

/-- The stored form of a reason. It holds no time, so every reason has one. -/
def bytes : FailureReason → Bytes
  | insufficientStock s => writeAlternative 0 [some (writeRecord s.fields)]
  | voided voidedBy reason => writeAlternative 1 [some (writeText voidedBy), reason.map writeText]

theorem encode_eq (r : FailureReason) : encode r = .ok r.bytes := by
  cases r <;> rfl

theorem reads_bytes {r : FailureReason} (h : r.Fits) : Reads Stored.read r.bytes r := by
  intro rest
  cases r with
  | insufficientStock s =>
    refine bind_ok (readAlternativeHead_writeAlternative 0 (by decide) _ rest) ?_
    refine bind_ok (readArrayHead_writeRecord (by simp [maxUInt64]) rest) ?_
    refine bind_ok (readField_body (Shortfall.reads_fields h) _ rest) ?_
    exact bind_ok (readRecordEnd_body rest) rfl
  | voided voidedBy reason =>
    have hreason : ReadsOption readText (reason.map writeText) reason :=
      readsOption_map fun text ht =>
        ⟨reads_writeText (h.2 text ht), present_writeText (h.2 text ht)⟩
    refine bind_ok (readAlternativeHead_writeAlternative 1 (by decide) _ rest) ?_
    refine bind_ok (readArrayHead_writeRecord (by simp [maxUInt64]) rest) ?_
    refine bind_ok (readField_body (reads_writeText h.1) _ rest) ?_
    refine bind_ok (readOptional_body hreason _ rest) ?_
    exact bind_ok (readRecordEnd_body rest) rfl

end FailureReason

namespace FailureRecord

/-- The texts of the record fit. -/
def Fits (r : FailureRecord) : Prop := r.reason.Fits

instance : DecidablePred Fits := fun r => inferInstanceAs (Decidable r.reason.Fits)

/-- The record that is read back. -/
def stored (r : FailureRecord) : FailureRecord := { r with failedAt := r.failedAt.stored }

theorem encode_stored (r : FailureRecord) : encode r.stored = encode r := by
  show (encode r.reason >>= fun b => encode r.failedAt.stored >>= fun t => _) = _
  rw [Timestamp.encode_stored]
  rfl

theorem encode_isOk_iff (r : FailureRecord) :
    (∃ b, encode r = .ok b) ↔ r.failedAt.unixNanos?.isSome := by
  rw [← Timestamp.encode_isOk_iff]
  constructor
  · rintro ⟨b, hb⟩
    obtain ⟨reason, -, hrest⟩ := bind_eq_ok hb
    obtain ⟨t, ht, -⟩ := bind_eq_ok hrest
    exact ⟨t, ht⟩
  · rintro ⟨t, ht⟩
    exact ⟨_, bind_ok r.reason.encode_eq (bind_ok ht rfl)⟩

theorem reads_encode {r : FailureRecord} (hfits : r.Fits) {b : Bytes} (h : encode r = .ok b) :
    Reads Stored.read b r.stored ∧ Present b := by
  obtain ⟨c, hc, h⟩ := bind_eq_ok h
  obtain ⟨t, ht, hb⟩ := bind_eq_ok h
  rw [FailureReason.encode_eq] at hc
  cases hc
  cases hb
  refine ⟨fun rest => ?_, present_writeRecord (by simp [maxUInt64])⟩
  refine bind_ok (readArrayHead_writeRecord (by simp [maxUInt64]) rest) ?_
  refine bind_ok (readField_body (FailureReason.reads_bytes hfits) _ rest) ?_
  refine bind_ok (readField_body (Timestamp.reads_encode ht) _ rest) ?_
  exact bind_ok (readRecordEnd_body rest) rfl

end FailureRecord

/-! ## Documents -/

/-- The texts and lists of a document have fewer than 2^64 bytes and entries, as all those in
memory have. -/
structure Document.Fits (d : Document) : Prop where
  id : TextFits d.id.text
  createdBy : TextFits d.createdBy
  source : IdentFits d.source
  destination : IdentFits d.destination
  customer : IdentFits d.customer
  note : ∀ text ∈ d.note, TextFits text
  lineCount : d.lines.length ≤ maxUInt64
  lines : ∀ line ∈ d.lines, line.Fits
  posting : ∀ r ∈ d.posting, r.Fits
  failure : ∀ r ∈ d.failure, r.Fits

instance : DecidablePred Document.Fits := fun d =>
  decidable_of_iff ((TextFits d.id.text ∧ TextFits d.createdBy ∧ IdentFits d.source ∧
      IdentFits d.destination ∧ IdentFits d.customer) ∧ (∀ text ∈ d.note, TextFits text) ∧
      d.lines.length ≤ maxUInt64 ∧ (∀ line ∈ d.lines, line.Fits) ∧
      (∀ r ∈ d.posting, r.Fits) ∧ ∀ r ∈ d.failure, r.Fits)
    ⟨fun ⟨⟨hid, hby, hs, hd, hc⟩, hn, hl, hlines, hp, hf⟩ =>
        ⟨hid, hby, hs, hd, hc, hn, hl, hlines, hp, hf⟩,
      fun h => ⟨⟨h.id, h.createdBy, h.source, h.destination, h.customer⟩, h.note, h.lineCount,
        h.lines, h.posting, h.failure⟩⟩

/-- The texts of the record that settles a document fit. -/
def Settlement.Fits : Settlement → Prop
  | posting r => r.Fits
  | failure r => r.Fits

/-- The time of the record that settles a document. -/
def Settlement.time : Settlement → Timestamp
  | posting r => r.postedAt
  | failure r => r.failedAt

/-- The record that is read back. -/
def Settlement.stored : Settlement → Settlement
  | posting r => posting r.stored
  | failure r => failure r.stored

namespace Document

/-- The document that is read back. -/
def stored (d : Document) : Document :=
  { d with
    createdAt := d.createdAt.stored
    posting := d.posting.map PostingRecord.stored
    failure := d.failure.map FailureRecord.stored }

/-- The fields of a document as they are written, with those that hold times given. -/
def fields (d : Document) (createdAt : Bytes) (posting failure : Option Bytes) :
    List (Option Bytes) :=
  [writeText d.id.text, writeAlternative d.kind.index [], writeAlternative d.status.index [],
    writeText d.createdBy, createdAt, d.source.map fun i => writeText i.text,
    d.destination.map fun i => writeText i.text, d.customer.map fun i => writeText i.text,
    d.note.map writeText, linesBytes d.lines, posting, failure]

theorem mapM_encode_ident {e : Entity} (o : Option (Ident e)) :
    o.mapM encode = (.ok (o.map fun i => writeText i.text) : Except EncodeFault _) := by
  cases o <;> rfl

/-- Only the times of a document decide whether it has a stored form. -/
theorem encode_eq (d : Document) :
    encode d = (do
      let t ← encode d.createdAt
      let p ← d.posting.mapM encode
      let f ← d.failure.mapM encode
      return writeRecord (d.fields t p f)) := by
  refine bind_ok rfl (bind_ok rfl (bind_ok rfl ?_))
  refine bind_congr fun t => ?_
  refine bind_ok (mapM_encode_ident d.source) ?_
  refine bind_ok (mapM_encode_ident d.destination) ?_
  refine bind_ok (mapM_encode_ident d.customer) ?_
  exact bind_ok (encode_lines d.lines) rfl

theorem encode_eq_ok {d : Document} {row : Bytes} (h : encode d = .ok row) :
    ∃ t p f, encode d.createdAt = .ok t ∧ d.posting.mapM encode = .ok p ∧
      d.failure.mapM encode = .ok f ∧ row = writeRecord (d.fields t p f) := by
  rw [encode_eq] at h
  obtain ⟨t, ht, h⟩ := bind_eq_ok h
  obtain ⟨p, hp, h⟩ := bind_eq_ok h
  obtain ⟨f, hf, h⟩ := bind_eq_ok h
  cases h
  exact ⟨t, p, f, ht, hp, hf, rfl⟩

/-- The times inside a document: when it was made, and when it was posted or failed. -/
def times (d : Document) : List Timestamp :=
  d.createdAt :: ((d.posting.map PostingRecord.postedAt).toList ++
    (d.failure.map FailureRecord.failedAt).toList)

theorem mapM_isOk_iff {α : Type} [Stored α] (o : Option α) :
    (∃ b, (o.mapM encode : Except EncodeFault _) = .ok b) ↔ ∀ x ∈ o, ∃ b, encode x = .ok b := by
  cases o with
  | none => exact ⟨fun _ => by simp, fun _ => ⟨none, rfl⟩⟩
  | some x => cases h : encode x <;> simp [h, Functor.map, Except.map]

theorem encode_isOk_iff (d : Document) :
    (∃ row, encode d = .ok row) ↔ ∀ t ∈ d.times, t.unixNanos?.isSome := by
  have hparts : (∃ row, encode d = .ok row) ↔ (∃ t, encode d.createdAt = .ok t) ∧
      (∃ p, (d.posting.mapM encode : Except EncodeFault _) = .ok p) ∧
      ∃ f, (d.failure.mapM encode : Except EncodeFault _) = .ok f := by
    constructor
    · rintro ⟨row, hrow⟩
      obtain ⟨t, p, f, ht, hp, hf, -⟩ := encode_eq_ok hrow
      exact ⟨⟨t, ht⟩, ⟨p, hp⟩, ⟨f, hf⟩⟩
    · rintro ⟨⟨t, ht⟩, ⟨p, hp⟩, ⟨f, hf⟩⟩
      rw [encode_eq]
      exact ⟨_, bind_ok ht (bind_ok hp (bind_ok hf rfl))⟩
  rw [hparts, mapM_isOk_iff, mapM_isOk_iff, Timestamp.encode_isOk_iff]
  simp only [PostingRecord.encode_isOk_iff, FailureRecord.encode_isOk_iff, times,
    List.forall_mem_cons, List.forall_mem_append, Option.mem_toList, Option.mem_def,
    Option.map_eq_some_iff, forall_exists_index, and_imp, forall_apply_eq_imp_iff₂]

/-- What is read back from a stored document. -/
theorem reads_encode {d : Document} (hfits : d.Fits) {row : Bytes} (h : encode d = .ok row) :
    Reads Stored.read row d.stored := by
  obtain ⟨t, p, f, ht, hp, hf, rfl⟩ := encode_eq_ok h
  have hnote : ReadsOption readText (d.note.map writeText) d.note := readsOption_map fun s hs =>
    ⟨reads_writeText (hfits.note s hs), present_writeText (hfits.note s hs)⟩
  have hlines : Reads Stored.read (linesBytes d.lines) d.lines :=
    reads_writeArray hfits.lineCount fun line hl => DocumentLine.reads_bytes (hfits.lines line hl)
  have hposting : ReadsOption Stored.read p (d.posting.map PostingRecord.stored) :=
    readsOption_mapM hp fun r hr _ h => PostingRecord.reads_encode (hfits.posting r hr) h
  have hfailure : ReadsOption Stored.read f (d.failure.map FailureRecord.stored) :=
    readsOption_mapM hf fun r hr _ h => FailureRecord.reads_encode (hfits.failure r hr) h
  intro rest
  refine bind_ok (readArrayHead_writeRecord (by simp [fields, maxUInt64]) rest) ?_
  refine bind_ok (readField_body (reads_ident hfits.id) _ rest) ?_
  refine bind_ok (readField_body d.kind.reads_encode _ rest) ?_
  refine bind_ok (readField_body d.status.reads_encode _ rest) ?_
  refine bind_ok (readField_body (reads_writeText hfits.createdBy) _ rest) ?_
  refine bind_ok (readField_body (Timestamp.reads_encode ht) _ rest) ?_
  refine bind_ok (readOptional_body (readsOption_ident hfits.source) _ rest) ?_
  refine bind_ok (readOptional_body (readsOption_ident hfits.destination) _ rest) ?_
  refine bind_ok (readOptional_body (readsOption_ident hfits.customer) _ rest) ?_
  refine bind_ok (readOptional_body hnote _ rest) ?_
  refine bind_ok (readField_body hlines _ rest) ?_
  refine bind_ok (readOptional_body hposting _ rest) ?_
  refine bind_ok (readOptional_body hfailure _ rest) ?_
  exact bind_ok (readRecordEnd_body rest) rfl

/-- The document that is read back has the same stored form. -/
theorem encode_stored (d : Document) : encode d.stored = encode d := by
  have hp : (d.posting.map PostingRecord.stored).mapM encode =
      (d.posting.mapM encode : Except EncodeFault _) := by
    cases d.posting with
    | none => rfl
    | some r => simp only [Option.map_some, Option.mapM_some, PostingRecord.encode_stored]
  have hf : (d.failure.map FailureRecord.stored).mapM encode =
      (d.failure.mapM encode : Except EncodeFault _) := by
    cases d.failure with
    | none => rfl
    | some r => simp only [Option.map_some, Option.mapM_some, FailureRecord.encode_stored]
  rw [encode_eq, encode_eq]
  show (encode d.createdAt.stored >>= fun t => (d.posting.map PostingRecord.stored).mapM encode >>=
    fun p => (d.failure.map FailureRecord.stored).mapM encode >>= fun f => _) = _
  rw [Timestamp.encode_stored, hp, hf]
  rfl

theorem Fits.stored {d : Document} (h : d.Fits) : d.stored.Fits where
  id := h.id
  createdBy := h.createdBy
  source := h.source
  destination := h.destination
  customer := h.customer
  note := h.note
  lineCount := h.lineCount
  lines := h.lines
  posting r hr := by
    obtain ⟨r', hr', rfl⟩ := Option.map_eq_some_iff.mp hr
    exact h.posting r' hr'
  failure r hr := by
    obtain ⟨r', hr', rfl⟩ := Option.map_eq_some_iff.mp hr
    exact h.failure r' hr'

/-! ## Settling a stored document -/

theorem Fits.settle {d : Document} (h : d.Fits) {s : Settlement} (hs : s.Fits) :
    (d.settle s).Fits := by
  cases s with
  | posting r =>
    exact { h with posting := fun r' hr' => by cases hr'; exact hs }
  | failure r =>
    exact { h with failure := fun r' hr' => by cases hr'; exact hs }

/-- Settling a document brings in no time but that of the record. -/
theorem mem_times_settle {d : Document} {s : Settlement} {t : Timestamp}
    (h : t ∈ (d.settle s).times) : t = s.time ∨ t ∈ d.times := by
  unfold times at h ⊢
  cases s with
  | posting r =>
    rcases List.mem_cons.mp h with rfl | h
    · exact .inr List.mem_cons_self
    rcases List.mem_append.mp h with h | h
    · exact .inl (List.mem_singleton.mp h)
    · exact .inr (List.mem_cons_of_mem _ (List.mem_append_right _ h))
  | failure r =>
    rcases List.mem_cons.mp h with rfl | h
    · exact .inr List.mem_cons_self
    rcases List.mem_append.mp h with h | h
    · exact .inr (List.mem_cons_of_mem _ (List.mem_append_left _ h))
    · exact .inl (List.mem_singleton.mp h)

/-- A stored document that is settled at a time in range has a stored form again. -/
theorem encode_settle {d : Document} {row : Bytes} (h : encode d = .ok row) {s : Settlement}
    (hs : s.time.unixNanos?.isSome) : ∃ row', encode (d.settle s) = .ok row' := by
  refine (encode_isOk_iff (d.settle s)).mpr fun t ht => ?_
  rcases mem_times_settle ht with rfl | hold
  · exact hs
  · exact (encode_isOk_iff d).mp ⟨row, h⟩ t hold

theorem stored_settle {d : Document} (h : d.stored = d) (s : Settlement) :
    (d.settle s).stored = d.settle s.stored := by
  cases s with
  | posting r =>
    have hs : (d.settle (.posting r)).stored = d.stored.settle (Settlement.stored (.posting r)) :=
      rfl
    rw [hs, h]
  | failure r =>
    have hs : (d.settle (.failure r)).stored = d.stored.settle (Settlement.stored (.failure r)) :=
      rfl
    rw [hs, h]

end Document

end Depot
