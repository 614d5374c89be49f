import Depot.Proofs.Cbor.Accepted
import Depot.Proofs.Document.Lifecycle
import Depot.Proofs.RoundTrip
/-!
# What was read can be written

A record may be stored in many forms, and is read from each of them. Whichever it was, the value
that is read has a stored form, from which it is read again, and this form stays the same from then
on (`Normalises`). In particular a document can be settled whatever the form of its row: the new row
can be written, if the time of the record that settles it can, and every other field is read from it
as it was (`Archive.transition_of_decoded`).

## How the proof goes

A value has a stored form that is read back if its texts and lists are short enough and its times
are in range and not in a leap second (`Normal`). Readers give no other values (`ReadsNormal`):
lengths are bounded by the heads and the input, and a time is made from a number of 64 bits. This is
shown type by type along the definition of its reader; what follows from it takes the laws of stored
forms alone (`ReadsNormal.normalises`).

## The side condition

The bytes that are read have to be in memory, that is fewer than 2^64. A longer array without a
length could have more entries than a written head can count.
-/

namespace Depot

open Cbor

/-! ## Normal values -/

section Normal

variable {α : Type} [Stored α] [LawfulStored α]

/-- The value has a stored form from which it is read back: it is storable, and its times are in
range. -/
structure Normal (x : α) : Prop extends Storable x where
  inRange : ∀ t ∈ LawfulStored.times x, t.unixNanos?.isSome

theorem Normal.exists_encode {x : α} (h : Normal x) :
    ∃ c, encode x = .ok c ∧ Reads Stored.read c x := by
  obtain ⟨c, hc⟩ := (LawfulStored.encode_isOk_iff x).mpr h.inRange
  exact ⟨c, hc, LawfulStored.reads_encode h.fits h.regular hc⟩

/-- A type whose values are normal if they were read. -/
class ReadsNormal (α : Type) [Stored α] [LawfulStored α] : Prop where
  gives : Gives (Stored.read : Reader α) Normal

theorem normal_of_decode [ReadsNormal α] {b : Bytes} (hb : InMemory b) {x : α}
    (h : decode b = .ok x) : Normal x := by
  obtain ⟨rest, hread⟩ := decode_eq_ok h
  exact ((ReadsNormal.gives hb).result _ hread).1

variable (α) in
/-- What was read can be written and is read again, and what is written stays the same. -/
structure Normalises : Prop where
  decode_encode {b : Bytes} {x : α} : InMemory b → decode b = .ok x →
    ∃ c, encode x = .ok c ∧ ∀ rest, decode (c ++ rest) = .ok x
  encode_decode {b c : Bytes} {x y : α} : InMemory b → decode b = .ok x → encode x = .ok c →
    decode c = .ok y → encode y = .ok c

variable (α) in
theorem ReadsNormal.normalises [ReadsNormal α] : Normalises α where
  decode_encode hb hx := by
    obtain ⟨c, hc, hread⟩ := (normal_of_decode hb hx).exists_encode
    exact ⟨c, hc, decode_of_reads hread⟩
  encode_decode {b c x y} hb hx hc hy := by
    obtain ⟨c', hc', hread⟩ := (normal_of_decode hb hx).exists_encode
    cases hc.symm.trans hc'
    have hback := decode_of_reads hread []
    rw [List.append_nil, hy] at hback
    cases hback
    exact hc

/-- A value without times is normal if it fits. -/
theorem normal_of_plain {x : α} (htimes : LawfulStored.times x = []) (h : LawfulStored.Fits x) :
    Normal x where
  fits := h
  regular := by
    rw [htimes]
    exact nofun
  inRange := by
    rw [htimes]
    exact nofun

end Normal

/-! ## Single items -/

instance {e : Entity} : ReadsNormal (Ident e) where
  gives _ hin := (gives_readText hin).bind fun _ h => yields_ok ⟨normal_of_plain rfl h.1, h.2⟩

/-- The time so many nanoseconds after the start of 1970 is stored as this number. -/
theorem Timestamp.normal_ofUnixNanos {n : Int} (h : fitsInt64 n = true) :
    Normal (ofUnixNanos n) where
  fits := trivial
  regular := by
    have hpositive : (0 : Int) < perSecond := by decide
    have hnonneg := Int.emod_nonneg n (Int.ne_of_gt hpositive)
    have hlt := Int.emod_lt_of_pos n hpositive
    refine List.forall_mem_singleton.mpr (show (n % perSecond).toNat < perSecond from ?_)
    omega
  inRange := List.forall_mem_singleton.mpr (by rw [unixNanos?_ofUnixNanos h]; rfl)

instance : ReadsNormal Timestamp where
  gives _ hin := (gives_readInt hin).bind fun _ h =>
    yields_ok ⟨Timestamp.normal_ofUnixNanos h.1, h.2⟩

/-- An alternative without fields. -/
theorem gives_readPlain {α : Type} (alternative? : Int → Option α) :
    Gives (readPlain alternative?) Anything := by
  intro input hin
  refine (gives_readAlternativeHead hin).bind fun ⟨index, rest⟩ ⟨_, hrest⟩ => ?_
  dsimp only
  split
  · exact (yields_skip hrest).bind fun _ h => yields_ok ⟨trivial, h⟩
  · exact ⟨nofun, fun _ h => by cases h; exact hrest⟩

instance : ReadsNormal DocumentKind where
  gives _ hin := (gives_readPlain _ hin).mono fun _ h => ⟨normal_of_plain rfl trivial, h.2⟩

instance : ReadsNormal DocumentStatus where
  gives _ hin := (gives_readPlain _ hin).mono fun _ h => ⟨normal_of_plain rfl trivial, h.2⟩

/-- The entries of a list that was read are normal, and few enough. -/
instance {α : Type} [Stored α] [LawfulStored α] [ReadsNormal α] : ReadsNormal (List α) where
  gives _ hin := (gives_readList ReadsNormal.gives hin).mono fun r ⟨⟨hlength, hall⟩, hrest⟩ =>
    ⟨{ fits := ⟨hlength, fun x hx => (hall x hx).fits⟩
       regular := fun t ht => by
        obtain ⟨x, hx, ht⟩ := List.mem_flatMap.mp ht
        exact (hall x hx).regular t ht
       inRange := fun t ht => by
        obtain ⟨x, hx, ht⟩ := List.mem_flatMap.mp ht
        exact (hall x hx).inRange t ht }, hrest⟩

/-! ## Records

Each proof follows the reader of the record field by field.
-/

instance : ReadsNormal Product where
  gives input hin := by
    refine (gives_readArrayHead hin).bind fun ⟨left, rest⟩ ⟨_, hrest⟩ => ?_
    refine (ReadsNormal.gives.field left hrest).bind fun ⟨id, left, rest⟩ ⟨hid, hrest⟩ => ?_
    refine (gives_readText.field left hrest).bind fun ⟨name, left, rest⟩ ⟨hname, hrest⟩ => ?_
    refine (gives_readUInt64.field left hrest).bind fun ⟨price, left, rest⟩ ⟨_, hrest⟩ => ?_
    refine (yields_readRecordEnd left hrest).bind fun rest hrest => ?_
    exact yields_ok ⟨normal_of_plain rfl ⟨hid.fits, hname⟩, hrest⟩

instance : ReadsNormal Warehouse where
  gives input hin := by
    refine (gives_readArrayHead hin).bind fun ⟨left, rest⟩ ⟨_, hrest⟩ => ?_
    refine (ReadsNormal.gives.field left hrest).bind fun ⟨id, left, rest⟩ ⟨hid, hrest⟩ => ?_
    refine (gives_readText.field left hrest).bind fun ⟨location, left, rest⟩ ⟨hl, hrest⟩ => ?_
    refine (yields_readRecordEnd left hrest).bind fun rest hrest => ?_
    exact yields_ok ⟨normal_of_plain rfl ⟨hid.fits, hl⟩, hrest⟩

instance : ReadsNormal Purchase where
  gives input hin := by
    refine (gives_readArrayHead hin).bind fun ⟨left, rest⟩ ⟨_, hrest⟩ => ?_
    refine (ReadsNormal.gives.field left hrest).bind fun ⟨customer, left, rest⟩ ⟨hc, hrest⟩ => ?_
    refine (ReadsNormal.gives.field left hrest).bind fun ⟨document, left, rest⟩ ⟨hd, hrest⟩ => ?_
    refine (gives_readUInt64.field left hrest).bind fun ⟨value, left, rest⟩ ⟨_, hrest⟩ => ?_
    refine (ReadsNormal.gives.field left hrest).bind fun ⟨time, left, rest⟩ ⟨ht, hrest⟩ => ?_
    refine (yields_readRecordEnd left hrest).bind fun rest hrest => ?_
    exact yields_ok ⟨⟨⟨⟨hc.fits, hd.fits⟩, ht.regular⟩, ht.inRange⟩, hrest⟩

instance : ReadsNormal DocumentLine where
  gives input hin := by
    refine (gives_readArrayHead hin).bind fun ⟨left, rest⟩ ⟨_, hrest⟩ => ?_
    refine (ReadsNormal.gives.field left hrest).bind fun ⟨product, left, rest⟩ ⟨hp, hrest⟩ => ?_
    refine (gives_readUInt64.field left hrest).bind fun ⟨quantity, left, rest⟩ ⟨_, hrest⟩ => ?_
    refine (gives_readUInt64.optional left hrest).bind fun ⟨price, left, rest⟩ ⟨_, hrest⟩ => ?_
    refine (yields_readRecordEnd left hrest).bind fun rest hrest => ?_
    exact yields_ok ⟨normal_of_plain rfl hp.fits, hrest⟩

instance : ReadsNormal PostingRecord where
  gives input hin := by
    refine (gives_readArrayHead hin).bind fun ⟨left, rest⟩ ⟨_, hrest⟩ => ?_
    refine (gives_readText.field left hrest).bind fun ⟨approver, left, rest⟩ ⟨ha, hrest⟩ => ?_
    refine (ReadsNormal.gives.field left hrest).bind fun ⟨time, left, rest⟩ ⟨ht, hrest⟩ => ?_
    refine (gives_readText.field left hrest).bind fun ⟨hash, left, rest⟩ ⟨hh, hrest⟩ => ?_
    refine (yields_readRecordEnd left hrest).bind fun rest hrest => ?_
    exact yields_ok ⟨⟨⟨⟨ha, hh⟩, ht.regular⟩, ht.inRange⟩, hrest⟩

instance : ReadsNormal Shortfall where
  gives input hin := by
    refine (gives_readArrayHead hin).bind fun ⟨left, rest⟩ ⟨_, hrest⟩ => ?_
    refine (ReadsNormal.gives.field left hrest).bind fun ⟨warehouse, left, rest⟩ ⟨hw, hrest⟩ => ?_
    refine (ReadsNormal.gives.field left hrest).bind fun ⟨product, left, rest⟩ ⟨hp, hrest⟩ => ?_
    refine (gives_readUInt64.field left hrest).bind fun ⟨available, left, rest⟩ ⟨_, hrest⟩ => ?_
    refine (gives_readUInt64.field left hrest).bind fun ⟨requested, left, rest⟩ ⟨_, hrest⟩ => ?_
    refine (yields_readRecordEnd left hrest).bind fun rest hrest => ?_
    exact yields_ok ⟨normal_of_plain rfl ⟨hw.fits, hp.fits⟩, hrest⟩

instance : ReadsNormal FailureReason where
  gives input hin := by
    refine (gives_readAlternativeHead hin).bind fun ⟨index, rest⟩ ⟨_, hrest⟩ => ?_
    dsimp only
    split
    · refine (gives_readArrayHead hrest).bind fun ⟨left, rest⟩ ⟨_, hrest⟩ => ?_
      refine (ReadsNormal.gives.field left hrest).bind fun ⟨short, left, rest⟩ ⟨hs, hrest⟩ => ?_
      refine (yields_readRecordEnd left hrest).bind fun rest hrest => ?_
      exact yields_ok ⟨normal_of_plain rfl hs.fits, hrest⟩
    · refine (gives_readArrayHead hrest).bind fun ⟨left, rest⟩ ⟨_, hrest⟩ => ?_
      refine (gives_readText.field left hrest).bind fun ⟨voidedBy, left, rest⟩ ⟨hv, hrest⟩ => ?_
      refine (gives_readText.optional left hrest).bind fun ⟨reason, left, rest⟩ ⟨hr, hrest⟩ => ?_
      refine (yields_readRecordEnd left hrest).bind fun rest hrest => ?_
      exact yields_ok ⟨normal_of_plain rfl ⟨hv, hr⟩, hrest⟩
    · exact ⟨nofun, fun _ h => by cases h; exact hrest⟩

instance : ReadsNormal FailureRecord where
  gives input hin := by
    refine (gives_readArrayHead hin).bind fun ⟨left, rest⟩ ⟨_, hrest⟩ => ?_
    refine (ReadsNormal.gives.field left hrest).bind fun ⟨reason, left, rest⟩ ⟨hr, hrest⟩ => ?_
    refine (ReadsNormal.gives.field left hrest).bind fun ⟨time, left, rest⟩ ⟨ht, hrest⟩ => ?_
    refine (yields_readRecordEnd left hrest).bind fun rest hrest => ?_
    exact yields_ok ⟨⟨⟨hr.fits, ht.regular⟩, ht.inRange⟩, hrest⟩

/-- What holds of the time a document was made, and of the times of its records if it has them,
holds of all its times. -/
theorem Document.forall_mem_times {P : Timestamp → Prop} {d : Document} (hmade : P d.createdAt)
    (hposting : ∀ r ∈ d.posting, P r.postedAt) (hfailure : ∀ r ∈ d.failure, P r.failedAt) :
    ∀ t ∈ d.times, P t := by
  simp only [times, List.forall_mem_cons, List.forall_mem_append, Option.mem_toList,
    Option.map_eq_some_iff, forall_exists_index, and_imp, forall_apply_eq_imp_iff₂]
  exact ⟨hmade, hposting, hfailure⟩

instance : ReadsNormal Document where
  gives input hin := by
    refine (gives_readArrayHead hin).bind fun ⟨left, rest⟩ ⟨_, hrest⟩ => ?_
    refine (ReadsNormal.gives.field left hrest).bind fun ⟨id, left, rest⟩ ⟨hid, hrest⟩ => ?_
    refine (ReadsNormal.gives.field left hrest).bind fun ⟨kind, left, rest⟩ ⟨_, hrest⟩ => ?_
    refine (ReadsNormal.gives.field left hrest).bind fun ⟨status, left, rest⟩ ⟨_, hrest⟩ => ?_
    refine (gives_readText.field left hrest).bind fun ⟨creator, left, rest⟩ ⟨hby, hrest⟩ => ?_
    refine (ReadsNormal.gives.field left hrest).bind fun ⟨made, left, rest⟩ ⟨ht, hrest⟩ => ?_
    refine (ReadsNormal.gives.optional left hrest).bind fun ⟨source, left, rest⟩ ⟨hs, hrest⟩ => ?_
    refine (ReadsNormal.gives.optional left hrest).bind fun ⟨dest, left, rest⟩ ⟨hd, hrest⟩ => ?_
    refine (ReadsNormal.gives.optional left hrest).bind fun ⟨debtor, left, rest⟩ ⟨hc, hrest⟩ => ?_
    refine (gives_readText.optional left hrest).bind fun ⟨note, left, rest⟩ ⟨hn, hrest⟩ => ?_
    refine (ReadsNormal.gives.field left hrest).bind fun ⟨lines, left, rest⟩ ⟨hl, hrest⟩ => ?_
    refine (ReadsNormal.gives.optional left hrest).bind fun ⟨posting, left, rest⟩ ⟨hp, hrest⟩ => ?_
    refine (ReadsNormal.gives.optional left hrest).bind fun ⟨failure, left, rest⟩ ⟨hf, hrest⟩ => ?_
    refine (yields_readRecordEnd left hrest).bind fun rest hrest => ?_
    -- the values that hold a time hold no other
    have made {P : Timestamp → Prop} {t : Timestamp} (h : ∀ t' ∈ LawfulStored.times t, P t') :
        P t := List.forall_mem_singleton.mp h
    refine yields_ok ⟨⟨⟨?_, ?_⟩, ?_⟩, hrest⟩
    · exact ⟨hid.fits, hby, fun i hi => (hs i hi).fits, fun i hi => (hd i hi).fits,
        fun i hi => (hc i hi).fits, hn, hl.fits.1, hl.fits.2, fun r hr => (hp r hr).fits,
        fun r hr => (hf r hr).fits⟩
    · exact Document.forall_mem_times (made ht.regular)
        (fun r hr => made (hp r hr).regular) fun r hr => made (hf r hr).regular
    · exact Document.forall_mem_times (made ht.inRange)
        (fun r hr => made (hp r hr).inRange) fun r hr => made (hf r hr).inRange

/-! ## Settling a document that was read -/

namespace Archive

section Transition

variable {db : Database} {id : DocumentId} {row : Bytes} {d : Document} {s : Settlement}
  (hmemory : InMemory row) (hd : decode row = .ok d) (hs : s.Fits)
  (htime : s.time.unixNanos?.isSome)

include hmemory hd hs htime

/-- The row of what the document is settled to is read back as this. -/
theorem exists_settled_row : ∃ row', encode (d.settle s) = .ok row' ∧
    load id { db with documents := db.documents.insert id.bytes row' } =
      .ok (d.settle s.stored) := by
  have hnormal : Normal d := normal_of_decode hmemory hd
  obtain ⟨form, hform, -⟩ := hnormal.exists_encode
  obtain ⟨row', hrow'⟩ := Document.encode_settle hform htime
  have hfits : (d.settle s).Fits := Document.Fits.settle hnormal.fits hs
  have hback := decodeRow_of_reads (Document.reads_encode hfits hrow')
  rw [Document.stored_settle (Document.stored_of_regular hnormal.regular)] at hback
  exact ⟨row', hrow', load_of_row (SortedMap.get?_insert_self ..) hback⟩

/-- A transition never fails for want of a stored form, and one that succeeds has changed nothing of
the document but its status and the record that it was settled by. A draft can be settled. -/
theorem transition_of_decoded (hrow : db.documents.get? id.bytes = some row) :
    (∀ source target detail,
      transition id source target s db ≠ .error (.store (.encode detail))) ∧
    (∀ source target d' db', transition id source target s db = .ok (d', db') →
      d' = d.settle s ∧ load id db' = .ok (d.settle s.stored) ∧
        (d.settle s.stored).SameContent d) ∧
    (d.status = .draft → ∃ db', transition id .draft s.target s db = .ok (d.settle s, db')) := by
  have hload : load id db = .ok d := load_of_row hrow (decodeRow_eq_ok.mpr hd)
  obtain ⟨row', hrow', hback⟩ := exists_settled_row hmemory hd hs htime
  refine ⟨fun source target detail herror => ?_, fun source target d' db' hok => ?_,
    fun hdraft => ⟨_, Posting.transition_of_draft hload hdraft hrow'⟩⟩
  · unfold transition at herror
    split at herror
    · cases herror
    · rcases bind_eq_error herror with hfailed | ⟨found, hfound, herror⟩
      · cases hload.symm.trans hfailed
      · cases hload.symm.trans hfound
        split at herror
        · cases herror
        · cases (put_of_encode hrow').symm.trans herror
  · obtain ⟨found, row'', hfound, -, hd', hrow'', rfl⟩ := transition_eq_ok hok
    cases hload.symm.trans hfound
    cases hrow'.symm.trans hrow''
    exact ⟨hd', hback, Document.sameContent_settle d s.stored⟩

end Transition

end Archive

/-! ## All stored types -/

/-- Whatever is read of a stored type can be written and is read again, from a form that stays the
same. So a document can be settled whatever the form of its row is: the transition never fails for
want of a stored form, and every field that it does not set is read afterwards as before. -/
theorem decoding_normalises :
    (∀ e, Normalises (Ident e)) ∧ Normalises DocumentKind ∧ Normalises DocumentStatus ∧
      Normalises Timestamp ∧ Normalises DocumentLine ∧ Normalises (List DocumentLine) ∧
      Normalises PostingRecord ∧ Normalises Shortfall ∧ Normalises FailureReason ∧
      Normalises FailureRecord ∧ Normalises Document ∧ Normalises Product ∧
      Normalises Warehouse ∧ Normalises Purchase ∧
      ∀ (db : Database) (id : DocumentId) (row : Bytes) (d : Document) (s : Settlement),
        db.documents.get? id.bytes = some row → InMemory row → decode row = .ok d → s.Fits →
        s.time.unixNanos?.isSome →
          (∀ source target detail,
            Archive.transition id source target s db ≠ .error (.store (.encode detail))) ∧
          (∀ source target d' db', Archive.transition id source target s db = .ok (d', db') →
            d' = d.settle s ∧ Archive.load id db' = .ok (d.settle s.stored) ∧
              (d.settle s.stored).SameContent d) ∧
          (d.status = .draft →
            ∃ db', Archive.transition id .draft s.target s db = .ok (d.settle s, db')) :=
  ⟨fun e => ReadsNormal.normalises (Ident e), ReadsNormal.normalises _, ReadsNormal.normalises _,
    ReadsNormal.normalises _, ReadsNormal.normalises _, ReadsNormal.normalises _,
    ReadsNormal.normalises _, ReadsNormal.normalises _, ReadsNormal.normalises _,
    ReadsNormal.normalises _, ReadsNormal.normalises _, ReadsNormal.normalises _,
    ReadsNormal.normalises _, ReadsNormal.normalises _,
    fun _ _ _ _ _ hrow hmemory hd hs htime =>
      Archive.transition_of_decoded hmemory hd hs htime hrow⟩

/-- A draft stored with arrays without a length, numbers wider than needed, an unknown field behind
those of its line, its last fields left out, and a byte behind it. -/
def looseRow : Bytes :=
  [0x9F, 0x61, 0x64, 0x82, 0x18, 0x00, 0x9F, 0xFF, 0x82, 0x00, 0x80, 0x61, 0x61,
    0x1B, 0x00, 0x00, 0x00, 0x00, 0x00, 0x00, 0x00, 0x05, 0xF6, 0x61, 0x77, 0xF6, 0xF6,
    0x9F, 0x84, 0x61, 0x70, 0x18, 0x05, 0xF6, 0xF4, 0xFF, 0xFF, 0x00]

/-- The draft of that row. -/
def looseDraft : Document :=
  { Document.draft ⟨"d"⟩ .inbound "a" (.ofUnixNanos 5) with
    destination := some ⟨"w"⟩
    lines := [⟨⟨"p"⟩, 5, none⟩] }

/-- The draft gets another row, and is voided at the last moment that can be stored. -/
theorem decoding_normalises_looseRow :
    let voided : Settlement := .failure ⟨.voided "b" none, ⟨9223372036, 854775807⟩⟩
    let db : Database := { (∅ : Database) with
      documents := (∅ : Table).insert (Ident.bytes (⟨"d"⟩ : DocumentId)) looseRow }
    InMemory looseRow ∧ decode looseRow = .ok looseDraft ∧
      (∃ c, encode looseDraft = .ok c ∧ c ≠ looseRow ∧
        ∀ rest, decode (c ++ rest) = .ok looseDraft) ∧
      ∃ db', Archive.transition ⟨"d"⟩ .draft .failed voided db =
          .ok (looseDraft.settle voided, db') ∧
        Archive.load ⟨"d"⟩ db' = .ok (looseDraft.settle voided) := by
  intro voided db
  have hmemory : InMemory looseRow := by decide
  have hd : decode looseRow = .ok looseDraft := by decide +kernel
  have hother : (encode looseDraft : Except EncodeFault Bytes) ≠ .ok looseRow := by decide +kernel
  obtain ⟨-, -, -, -, -, -, -, -, -, -, hdocument, -, -, -, hsettle⟩ := decoding_normalises
  obtain ⟨c, hc, hread⟩ := hdocument.decode_encode hmemory hd
  refine ⟨hmemory, hd, ⟨c, hc, fun heq => hother (heq ▸ hc), hread⟩, ?_⟩
  obtain ⟨-, hafter, hdraft⟩ := hsettle db ⟨"d"⟩ looseRow looseDraft voided
    (SortedMap.get?_insert_self ..) hmemory hd (show FailureRecord.Fits _ by decide) (by decide)
  obtain ⟨db', hok⟩ := hdraft rfl
  obtain ⟨-, hload, -⟩ := hafter _ _ _ _ hok
  have hstored : voided.stored = voided := by decide
  rw [hstored] at hload
  exact ⟨db', hok, hload⟩

end Depot
