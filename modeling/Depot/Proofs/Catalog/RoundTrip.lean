import Depot.Catalog.Record
import Depot.Proofs.Cbor.Accepted
/-!
# Stored products and warehouses are read back

Both hold no time, so every entry of the catalog has a stored form, and it is read back as it was.
Conversely the texts of an entry that was read fit (`Product.fits_of_decode`,
`Warehouse.fits_of_decode`), whatever its row was, so an entry that was read can be stored again.
-/

namespace Depot

open Cbor

/-- The texts of the product fit. -/
def Product.Fits (p : Product) : Prop := TextFits p.id.text ∧ TextFits p.name

/-- The stored form of a product. -/
def Product.bytes (p : Product) : Bytes :=
  writeRecord [writeText p.id.text, writeText p.name, writeNat p.unitPrice.toNat]

theorem Product.encode_eq (p : Product) : encode p = .ok p.bytes := rfl

theorem Product.reads_bytes {p : Product} (h : p.Fits) : Reads Stored.read p.bytes p := by
  intro rest
  refine bind_ok (readArrayHead_writeRecord (by simp [maxUInt64]) rest) ?_
  refine bind_ok (readField_body (reads_ident h.1) _ rest) ?_
  refine bind_ok (readField_body (reads_writeText h.2) _ rest) ?_
  refine bind_ok (readField_body (reads_uint64 p.unitPrice) _ rest) ?_
  exact bind_ok (readRecordEnd_body rest) rfl

/-- The texts of the warehouse fit. -/
def Warehouse.Fits (w : Warehouse) : Prop := TextFits w.id.text ∧ TextFits w.location

/-- The stored form of a warehouse. -/
def Warehouse.bytes (w : Warehouse) : Bytes :=
  writeRecord [writeText w.id.text, writeText w.location]

theorem Warehouse.encode_eq (w : Warehouse) : encode w = .ok w.bytes := rfl

theorem Warehouse.reads_bytes {w : Warehouse} (h : w.Fits) : Reads Stored.read w.bytes w := by
  intro rest
  refine bind_ok (readArrayHead_writeRecord (by simp [maxUInt64]) rest) ?_
  refine bind_ok (readField_body (reads_ident h.1) _ rest) ?_
  refine bind_ok (readField_body (reads_writeText h.2) _ rest) ?_
  exact bind_ok (readRecordEnd_body rest) rfl

/-! ## What was read fits -/

theorem Product.fits_of_decode {row : Bytes} {p : Product} (h : decode row = .ok p) : p.Fits := by
  obtain ⟨rest, h⟩ := decode_eq_ok h
  obtain ⟨⟨left, rest₁⟩, -, h⟩ := bind_eq_ok h
  obtain ⟨⟨id, left₁, rest₂⟩, hid, h⟩ := bind_eq_ok h
  obtain ⟨⟨name, left₂, rest₃⟩, hname, h⟩ := bind_eq_ok h
  obtain ⟨⟨unitPrice, left₃, rest₄⟩, -, h⟩ := bind_eq_ok h
  obtain ⟨rest₅, -, h⟩ := bind_eq_ok h
  cases h
  exact ⟨textFits_of_readIdent (readField_eq_ok hid), textFits_of_readText (readField_eq_ok hname)⟩

theorem Warehouse.fits_of_decode {row : Bytes} {w : Warehouse} (h : decode row = .ok w) :
    w.Fits := by
  obtain ⟨rest, h⟩ := decode_eq_ok h
  obtain ⟨⟨left, rest₁⟩, -, h⟩ := bind_eq_ok h
  obtain ⟨⟨id, left₁, rest₂⟩, hid, h⟩ := bind_eq_ok h
  obtain ⟨⟨location, left₂, rest₃⟩, hlocation, h⟩ := bind_eq_ok h
  obtain ⟨rest₄, -, h⟩ := bind_eq_ok h
  cases h
  exact ⟨textFits_of_readIdent (readField_eq_ok hid),
    textFits_of_readText (readField_eq_ok hlocation)⟩

end Depot
