import Depot.Proofs.Catalog.RoundTrip
import Depot.Proofs.Effect
import Depot.Proofs.Receivables.RoundTrip
import Depot.Proofs.SortedMap
/-!
# Stored values are read back as they were

A value of a stored type has a stored form exactly if every time inside it fits 64 bits in
nanoseconds, and then it is read back from its form, whatever bytes follow (`RoundTrips`). A form
that is read off the front of any input is the front of no other form, so forms are pairwise
different and none begins another.

## How the proof goes

Each type has two laws (`LawfulStored`): which times decide whether a value is written, and that
the reader takes exactly what was written off the front of the input. Both are proved type by
type, a record from its fields. The four statements of `RoundTrips` follow from the two laws
without a look at the type (`LawfulStored.roundTrips`).

## The side conditions

A leap second is read back as the second that follows it, so times inside a leap second are left
out (`Timestamp.IsRegular`). `Fits` says that texts and lists have fewer than 2^64 bytes and
entries, as all those in memory have: a head has eight bytes for a length, not more.
-/

namespace Depot

open Cbor

/-! ## Times -/

namespace Timestamp

/-- The time is not inside a leap second. -/
def IsRegular (t : Timestamp) : Prop := t.nanos < perSecond

instance : DecidablePred IsRegular := fun t => inferInstanceAs (Decidable (t.nanos < perSecond))

/-- Nanoseconds since the start of 1970, however many. -/
def sinceEpoch (t : Timestamp) : Int := t.seconds * perSecond + t.nanos

/-- The detour by the following second before 1970 changes nothing: it is taken if and only if the
exact number fits. -/
theorem unixNanos?_of_regular {t : Timestamp} (h : t.IsRegular) :
    t.unixNanos? = if fitsInt64 t.sinceEpoch then some t.sinceEpoch else none := by
  have hs : (perSecond : Int) = 1000000000 := rfl
  have hnanos : t.nanos < 1000000000 := h
  simp only [unixNanos?, sinceEpoch, hs]
  by_cases hneg : t.seconds < 0
  · have hsame : (t.seconds + 1) * 1000000000 + ((t.nanos : Int) - 1000000000) =
        t.seconds * 1000000000 + t.nanos := by omega
    simp only [hneg, if_true, hsame, fitsInt64, Bool.and_eq_true, decide_eq_true_eq]
    congr 1
    exact propext ⟨fun hfits => hfits.2, fun hfits => ⟨by omega, hfits⟩⟩
  · simp only [hneg, if_false, fitsInt64, Bool.and_eq_true, decide_eq_true_eq]
    congr 1
    exact propext ⟨fun hfits => hfits.2, fun hfits => ⟨by omega, hfits⟩⟩

theorem isSome_unixNanos?_iff {t : Timestamp} (h : t.IsRegular) :
    t.unixNanos?.isSome ↔ fitsInt64 t.sinceEpoch = true := by
  rw [unixNanos?_of_regular h]
  split <;> simp_all

theorem ofUnixNanos_sinceEpoch {t : Timestamp} (h : t.IsRegular) :
    ofUnixNanos t.sinceEpoch = t := by
  obtain ⟨seconds, nanos⟩ := t
  have hs : (perSecond : Int) = 1000000000 := rfl
  have hnanos : nanos < 1000000000 := h
  have hseconds : (seconds * 1000000000 + (nanos : Int)) / 1000000000 = seconds := by omega
  have hrest : ((seconds * 1000000000 + (nanos : Int)) % 1000000000).toNat = nanos := by omega
  simp only [ofUnixNanos, sinceEpoch, hs, hseconds, hrest]

theorem stored_of_regular {t : Timestamp} (h : t.IsRegular) : t.stored = t := by
  unfold stored
  rw [unixNanos?_of_regular h]
  split
  · rename_i n hn
    simp only [Option.ite_none_right_eq_some, Option.some.injEq] at hn
    rw [← hn.2, ofUnixNanos_sinceEpoch h]
  · rfl

end Timestamp

/-! ## The laws of a stored form -/

theorem decode_of_reads {α : Type} [Stored α] {x : α} {b : Bytes} (h : Reads Stored.read b x)
    (rest : Bytes) : decode (b ++ rest) = .ok x := by
  unfold decode
  rw [h rest]

/-- Both readings start at the same byte: that of the longer form finds the shorter one there. -/
theorem eq_of_isPrefix {α : Type} [Stored α] {x y : α} {b c : Bytes} (hx : Reads Stored.read b x)
    (hy : Reads Stored.read c y) (h : b <+: c) : x = y := by
  obtain ⟨rest, rfl⟩ := h
  have hread : decode (b ++ rest) = .ok x := decode_of_reads hx rest
  have hback := decode_of_reads hy []
  rw [List.append_nil, hread] at hback
  exact Except.ok.inj hback

/-- A stored form that can be relied on. -/
class LawfulStored (α : Type) [Stored α] where
  /-- The texts and lists inside a value have fewer than 2^64 bytes and entries. -/
  Fits : α → Prop
  /-- The times inside a value. -/
  times : α → List Timestamp
  encode_isOk_iff (x : α) : (∃ b, encode x = .ok b) ↔ ∀ t ∈ times x, t.unixNanos?.isSome
  reads_encode {x : α} {b : Bytes} (fits : Fits x) (regular : ∀ t ∈ times x, t.IsRegular)
    (encoded : encode x = .ok b) : Reads Stored.read b x

section Laws

variable {α : Type} [Stored α] [LawfulStored α]

/-- The value fits, and no time inside it is in a leap second. -/
structure Storable (x : α) : Prop where
  fits : LawfulStored.Fits x
  regular : ∀ t ∈ LawfulStored.times x, t.IsRegular

variable (α) in
/-- Values of the type come back from their stored form. -/
structure RoundTrips : Prop where
  /-- The times alone decide whether there is a form. -/
  encode_iff (x : α) : (∀ t ∈ LawfulStored.times x, t.IsRegular) →
    ((∃ b, encode x = .ok b) ↔ ∀ t ∈ LawfulStored.times x, fitsInt64 t.sinceEpoch = true)
  /-- The form is read, whatever follows it. -/
  decode_append {x : α} {b : Bytes} : Storable x → encode x = .ok b →
    ∀ rest, decode (b ++ rest) = .ok x
  /-- Different values have different forms. -/
  injective {x y : α} {b : Bytes} : Storable x → Storable y → encode x = .ok b →
    encode y = .ok b → x = y
  /-- No form begins the form of another value. -/
  prefixFree {x y : α} {b c : Bytes} : Storable x → Storable y → encode x = .ok b →
    encode y = .ok c → b <+: c → x = y

variable (α) in
theorem LawfulStored.roundTrips : RoundTrips α where
  encode_iff x regular := by
    rw [encode_isOk_iff x]
    exact forall₂_congr fun t ht => Timestamp.isSome_unixNanos?_iff (regular t ht)
  decode_append hx hb rest := decode_of_reads (reads_encode hx.fits hx.regular hb) rest
  injective hx hy hb hc :=
    eq_of_isPrefix (reads_encode hx.fits hx.regular hb) (reads_encode hy.fits hy.regular hc)
      (List.prefix_refl _)
  prefixFree hx hy hb hc hprefix :=
    eq_of_isPrefix (reads_encode hx.fits hx.regular hb) (reads_encode hy.fits hy.regular hc) hprefix

end Laws

/-! ## Types without times -/

section Plain

variable {α : Type} [Stored α]

/-- A type whose values hold no time is lawful if its forms are read back. -/
@[reducible] def LawfulStored.ofPlain (fits : α → Prop) (form : α → Bytes)
    (hform : ∀ x : α, encode x = .ok (form x))
    (hreads : ∀ x, fits x → Reads Stored.read (form x) x) : LawfulStored α where
  Fits := fits
  times _ := []
  encode_isOk_iff x := ⟨fun _ => by simp, fun _ => ⟨_, hform x⟩⟩
  reads_encode {x b} hfits _ hb := by
    rw [hform x] at hb
    cases hb
    exact hreads x hfits

end Plain

instance {e : Entity} : LawfulStored (Ident e) :=
  .ofPlain (fun i => TextFits i.text) (fun i => writeText i.text) (fun _ => rfl)
    fun _ h => reads_ident h

instance : LawfulStored DocumentKind :=
  .ofPlain (fun _ => True) (fun kind => writeAlternative kind.index []) (fun _ => rfl)
    fun kind _ => kind.reads_encode

instance : LawfulStored DocumentStatus :=
  .ofPlain (fun _ => True) (fun status => writeAlternative status.index []) (fun _ => rfl)
    fun status _ => status.reads_encode

instance : LawfulStored DocumentLine :=
  .ofPlain DocumentLine.Fits DocumentLine.bytes (fun _ => rfl)
    fun _ h => DocumentLine.reads_bytes h

instance : LawfulStored Shortfall :=
  .ofPlain Shortfall.Fits (fun s => writeRecord s.fields) (fun _ => rfl)
    fun _ h => Shortfall.reads_fields h

instance : LawfulStored FailureReason :=
  .ofPlain FailureReason.Fits FailureReason.bytes FailureReason.encode_eq
    fun _ h => FailureReason.reads_bytes h

instance : LawfulStored Product :=
  .ofPlain Product.Fits Product.bytes Product.encode_eq fun _ h => Product.reads_bytes h

instance : LawfulStored Warehouse :=
  .ofPlain Warehouse.Fits Warehouse.bytes Warehouse.encode_eq fun _ h => Warehouse.reads_bytes h

/-! ## Types with times -/

instance : LawfulStored Timestamp where
  Fits _ := True
  times t := [t]
  encode_isOk_iff t := by rw [List.forall_mem_singleton, t.encode_isOk_iff]
  reads_encode {t b} _ regular encoded := by
    have hread := Timestamp.reads_encode encoded
    rwa [Timestamp.stored_of_regular (List.forall_mem_singleton.mp regular)] at hread

/-- The stored form of a value that has one. -/
def formOf {α : Type} [Stored α] (x : α) : Bytes :=
  match encode x with
  | .ok b => b
  | .error _ => []

theorem encode_eq_formOf {α : Type} [Stored α] {x : α} (h : ∃ b, encode x = .ok b) :
    encode x = .ok (formOf x) := by
  obtain ⟨b, hb⟩ := h
  unfold formOf
  rw [hb]

/-- A list is read back if its elements are. -/
instance {α : Type} [Stored α] [LawfulStored α] : LawfulStored (List α) where
  Fits xs := xs.length ≤ maxUInt64 ∧ ∀ x ∈ xs, LawfulStored.Fits x
  times xs := xs.flatMap LawfulStored.times
  encode_isOk_iff xs := by
    have hlist : (∃ b, encode xs = .ok b) ↔ ∀ x ∈ xs, ∃ b, encode x = .ok b := by
      constructor
      · rintro ⟨b, hb⟩
        obtain ⟨forms, hforms, -⟩ := bind_eq_ok hb
        exact forall_of_mapM_eq_ok hforms
      · intro h
        obtain ⟨forms, hforms⟩ := exists_mapM_eq_ok h
        exact ⟨_, bind_ok hforms rfl⟩
    rw [hlist]
    simp only [LawfulStored.encode_isOk_iff, List.mem_flatMap]
    exact ⟨fun h t ⟨x, hx, ht⟩ => h x hx t ht, fun h x hx t ht => h t ⟨x, hx, ht⟩⟩
  reads_encode {xs b} fits regular encoded := by
    obtain ⟨forms, hforms, hb⟩ := bind_eq_ok encoded
    cases hb
    have hone : ∀ x ∈ xs, encode x = .ok (formOf x) := fun x hx =>
      encode_eq_formOf (forall_of_mapM_eq_ok hforms x hx)
    rw [mapM_eq_ok hone] at hforms
    cases hforms
    refine reads_writeArray fits.1 fun x hx => ?_
    have hregular : ∀ t ∈ LawfulStored.times x, t.IsRegular := fun t ht =>
      regular t (List.mem_flatMap.mpr ⟨x, hx, ht⟩)
    exact LawfulStored.reads_encode (fits.2 x hx) hregular (hone x hx)

instance : LawfulStored PostingRecord where
  Fits := PostingRecord.Fits
  times r := [r.postedAt]
  encode_isOk_iff r := by rw [List.forall_mem_singleton, r.encode_isOk_iff]
  reads_encode {r b} fits regular encoded := by
    have hread := (PostingRecord.reads_encode fits encoded).1
    rwa [PostingRecord.stored,
      Timestamp.stored_of_regular (List.forall_mem_singleton.mp regular)] at hread

instance : LawfulStored FailureRecord where
  Fits := FailureRecord.Fits
  times r := [r.failedAt]
  encode_isOk_iff r := by rw [List.forall_mem_singleton, r.encode_isOk_iff]
  reads_encode {r b} fits regular encoded := by
    have hread := (FailureRecord.reads_encode fits encoded).1
    rwa [FailureRecord.stored,
      Timestamp.stored_of_regular (List.forall_mem_singleton.mp regular)] at hread

instance : LawfulStored Purchase where
  Fits := Purchase.Fits
  times p := [p.recordedAt]
  encode_isOk_iff p := by rw [List.forall_mem_singleton, p.encode_isOk_iff]
  reads_encode {p b} fits regular encoded := by
    have hread := Purchase.reads_encode fits encoded
    rwa [Purchase.stored,
      Timestamp.stored_of_regular (List.forall_mem_singleton.mp regular)] at hread

/-! ## Documents -/

namespace Document

theorem stored_of_regular {d : Document} (h : ∀ t ∈ d.times, t.IsRegular) : d.stored = d := by
  simp only [times, List.forall_mem_cons, List.forall_mem_append, Option.mem_toList,
    Option.map_eq_some_iff, forall_exists_index, and_imp, forall_apply_eq_imp_iff₂] at h
  obtain ⟨hcreated, hposting, hfailure⟩ := h
  have hp : d.posting.map PostingRecord.stored = d.posting :=
    (Option.map_congr fun r hr => by
      rw [PostingRecord.stored, Timestamp.stored_of_regular (hposting r hr)]).trans Option.map_id'
  have hf : d.failure.map FailureRecord.stored = d.failure :=
    (Option.map_congr fun r hr => by
      rw [FailureRecord.stored, Timestamp.stored_of_regular (hfailure r hr)]).trans Option.map_id'
  rw [stored, Timestamp.stored_of_regular hcreated, hp, hf]

end Document

instance : LawfulStored Document where
  Fits := Document.Fits
  times := Document.times
  encode_isOk_iff := Document.encode_isOk_iff
  reads_encode {d b} fits regular encoded := by
    have hread := Document.reads_encode fits encoded
    rwa [Document.stored_of_regular regular] at hread

theorem Archive.load_of_insert {d : Document} (hd : Storable d) {db db' : Database}
    (h : insert d db = .ok ((), db')) : load d.id db' = .ok d := by
  obtain ⟨-, row, hrow, -, rfl⟩ := insert_eq_ok h
  have hread := LawfulStored.reads_encode hd.fits hd.regular hrow
  exact load_of_row (SortedMap.get?_insert_self ..) (decodeRow_of_reads hread)

/-- Every type that is stored is read back, and a document that was taken into the archive is
loaded as it was. -/
theorem stored_roundTrips :
    (∀ e, RoundTrips (Ident e)) ∧ RoundTrips DocumentKind ∧ RoundTrips DocumentStatus ∧
      RoundTrips Timestamp ∧ RoundTrips DocumentLine ∧ RoundTrips (List DocumentLine) ∧
      RoundTrips PostingRecord ∧ RoundTrips Shortfall ∧ RoundTrips FailureReason ∧
      RoundTrips FailureRecord ∧ RoundTrips Document ∧ RoundTrips Product ∧
      RoundTrips Warehouse ∧ RoundTrips Purchase ∧
      ∀ (d : Document) (db db' : Database), Storable d → Archive.insert d db = .ok ((), db') →
        Archive.load d.id db' = .ok d :=
  ⟨fun e => LawfulStored.roundTrips (Ident e), LawfulStored.roundTrips _,
    LawfulStored.roundTrips _, LawfulStored.roundTrips _, LawfulStored.roundTrips _,
    LawfulStored.roundTrips _, LawfulStored.roundTrips _, LawfulStored.roundTrips _,
    LawfulStored.roundTrips _, LawfulStored.roundTrips _, LawfulStored.roundTrips _,
    LawfulStored.roundTrips _, LawfulStored.roundTrips _, LawfulStored.roundTrips _,
    fun _ _ _ hd h => Archive.load_of_insert hd h⟩

/-- A draft of the last moment that can be stored, with absent fields before present ones, texts of
wide letters and the largest numbers. -/
def lastDraft : Document :=
  { Document.draft ⟨"d"⟩ .transfer "ä" ⟨9223372036, 854775807⟩ with
    destination := some ⟨"€"⟩
    note := some "😀"
    lines := [⟨⟨"p"⟩, 0xFFFFFFFFFFFFFFFF, some 0xFFFFFFFFFFFFFFFF⟩, ⟨⟨""⟩, 0, none⟩] }

/-- The same document, failed at the first moment that can be stored. -/
def firstFailure : Document :=
  lastDraft.settle (.failure ⟨.voided "" (some ""), ⟨-9223372037, 145224192⟩⟩)

/-- Both ends of the range of times are stored, a nanosecond further is not. -/
theorem stored_roundTrips_ends :
    (∃ b, encode firstFailure = .ok b ∧ ∀ rest, decode (b ++ rest) = .ok firstFailure) ∧
      (¬ ∃ b, encode { lastDraft with createdAt := ⟨9223372036, 854775808⟩ } = .ok b) ∧
      ∃ db, Archive.insert lastDraft ∅ = .ok ((), db) ∧ Archive.load ⟨"d"⟩ db = .ok lastDraft := by
  obtain ⟨-, -, -, -, -, -, -, -, -, -, hdocument, -, -, -, hload⟩ := stored_roundTrips
  have hfailure : Storable firstFailure := ⟨show Document.Fits _ by decide,
    show ∀ t ∈ Document.times _, t.IsRegular by decide⟩
  have hdraft : Storable lastDraft := ⟨show Document.Fits _ by decide,
    show ∀ t ∈ Document.times _, t.IsRegular by decide⟩
  refine ⟨?_, ?_, ?_⟩
  · have hrange : ∀ t ∈ Document.times firstFailure, fitsInt64 t.sinceEpoch = true := by decide
    obtain ⟨b, hb⟩ := (hdocument.encode_iff _ hfailure.regular).mpr hrange
    exact ⟨b, hb, hdocument.decode_append hfailure hb⟩
  · rw [hdocument.encode_iff _ (show ∀ t ∈ Document.times _, t.IsRegular by decide)]
    show ¬ ∀ t ∈ Document.times _, fitsInt64 t.sinceEpoch = true
    decide
  · have hinsert : (Archive.insert lastDraft ∅).isOk = true := by decide +kernel
    cases hresult : Archive.insert lastDraft ∅ with
    | error e =>
      rw [hresult] at hinsert
      cases hinsert
    | ok result => exact ⟨result.2, rfl, hload lastDraft ∅ result.2 hdraft hresult⟩

end Depot
