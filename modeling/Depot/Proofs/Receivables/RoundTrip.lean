import Depot.Proofs.Document.RoundTrip
import Depot.Receivables
/-!
# Stored purchases are read back

A purchase is read back as it was, but for how a leap second in its time is written
(`Purchase.stored`).
-/

namespace Depot.Purchase

open Cbor

/-- The texts of the purchase fit. -/
def Fits (p : Purchase) : Prop := TextFits p.customer.text ∧ TextFits p.document.text

instance : DecidablePred Fits := fun p =>
  inferInstanceAs (Decidable (TextFits p.customer.text ∧ TextFits p.document.text))

/-- The purchase that is read back. -/
def stored (p : Purchase) : Purchase := { p with recordedAt := p.recordedAt.stored }

theorem encode_eq_ok {p : Purchase} {row : Bytes} (h : encode p = .ok row) :
    ∃ t, encode p.recordedAt = .ok t ∧
      row = writeRecord [writeText p.customer.text, writeText p.document.text,
        writeNat p.totalValue.toNat, some t] := by
  obtain ⟨t, ht, h⟩ := bind_eq_ok h
  cases h
  exact ⟨t, ht, rfl⟩

theorem encode_isOk_iff (p : Purchase) :
    (∃ row, encode p = .ok row) ↔ p.recordedAt.unixNanos?.isSome := by
  rw [← Timestamp.encode_isOk_iff]
  constructor
  · rintro ⟨row, hrow⟩
    obtain ⟨t, ht, -⟩ := encode_eq_ok hrow
    exact ⟨t, ht⟩
  · rintro ⟨t, ht⟩
    exact ⟨_, bind_ok ht rfl⟩

theorem reads_encode {p : Purchase} (hfits : p.Fits) {row : Bytes} (h : encode p = .ok row) :
    Reads Stored.read row p.stored := by
  obtain ⟨t, ht, rfl⟩ := encode_eq_ok h
  intro rest
  refine bind_ok (readArrayHead_writeRecord (by simp [maxUInt64]) rest) ?_
  refine bind_ok (readField_body (reads_ident hfits.1) _ rest) ?_
  refine bind_ok (readField_body (reads_ident hfits.2) _ rest) ?_
  refine bind_ok (readField_body (reads_uint64 p.totalValue) _ rest) ?_
  refine bind_ok (readField_body (Timestamp.reads_encode ht) _ rest) ?_
  exact bind_ok (readRecordEnd_body rest) rfl

end Depot.Purchase
