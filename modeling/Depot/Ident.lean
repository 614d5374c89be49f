import Depot.Bech32
import Depot.Cbor.Codec
/-!
# Identifiers

Documents, warehouses, products and customers are named by texts. The type of an identifier says
what it names, so a warehouse cannot stand where a product should. Any text is an identifier;
those that the system makes itself are Bech32m texts with a tag per kind and a version 7 UUID as
payload, so they carry the time they were made.
-/

namespace Depot

/-- What an identifier names. -/
inductive Entity where
  | document | warehouse | product | customer
  deriving DecidableEq, Repr

/-- The human-readable part of generated identifiers. -/
def Entity.tag : Entity → String
  | .document => "doc_"
  | .warehouse => "wh_"
  | .product => "prod_"
  | .customer => "cust_"

/-- The name of a document, warehouse, product or customer. -/
structure Ident (e : Entity) where
  text : String
  deriving DecidableEq, Repr

abbrev DocumentId := Ident .document
abbrev WarehouseId := Ident .warehouse
abbrev ProductId := Ident .product
abbrev CustomerId := Ident .customer

namespace Ident

/-- The identifier as it stands in keys and in the order of listings. -/
def bytes {e : Entity} (i : Ident e) : Bytes := Bytes.ofText i.text

theorem bytes_injective {e : Entity} {i j : Ident e} (h : i.bytes = j.bytes) : i = j := by
  cases i; cases j; exact congrArg _ (Bytes.ofText_injective h)

end Ident

/-- Identifiers are stored as texts. -/
instance {e : Entity} : Stored (Ident e) where
  encode i := .ok (Cbor.writeText i.text)
  read input := do
    let (s, rest) ← Cbor.readText input
    return (⟨s⟩, rest)

/-! ## Generated identifiers -/

/-- A version 7 UUID: 48 bits of time in milliseconds, the version, 12 random bits, the variant,
62 random bits. -/
def uuid7 (millis random : Nat) : Bytes :=
  Bytes.bigEndian 6 millis ++
    Bytes.bigEndian 2 (0x7000 + random / 0x4000000000000000 % 0x1000) ++
    Bytes.bigEndian 8 (0x8000000000000000 + random % 0x4000000000000000)

/-- The version of a UUID. -/
def uuidVersion (b : Bytes) : Nat := (b.getD 6 0).toNat / 16

/-- The variant of a UUID, the top two bits of its ninth byte. -/
def uuidVariant (b : Bytes) : Nat := (b.getD 8 0).toNat / 64

/-- The Bech32m text of a UUID under a human-readable part. -/
def uuidText (hrp : String) (uuid : Bytes) : Except Bech32.HrpFault String := do
  return Bech32.encode (← Bech32.Hrp.parse hrp) uuid

/-- A fresh identifier made from a UUID. -/
def Ident.ofUuid (e : Entity) (uuid : Bytes) : Ident e := ⟨Bech32.encode ⟨e.tag⟩ uuid⟩

end Depot
