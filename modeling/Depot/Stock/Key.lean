import Depot.Ident
/-!
# Keys of the stock table

The stock table has a row per warehouse and product. Its key is the warehouse identifier behind
two bytes of length, then the product identifier; so the rows of a warehouse share a beginning
that no other warehouse's rows have.

Main statements: `ofBytes?_bytes?` and `bytes?_of_ofBytes?` make the byte form of a key a
bijection, for warehouse identifiers of at most 65535 bytes.
-/

namespace Depot

/-- A product in a warehouse. -/
structure StockKey where
  warehouse : WarehouseId
  product : ProductId
  deriving DecidableEq, Repr

/-- How much of a product a warehouse holds. -/
structure StockLevel where
  key : StockKey
  quantity : UInt64
  deriving DecidableEq, Repr

/-- A quantity that a warehouse does not hold. -/
structure Shortfall where
  warehouse : WarehouseId
  product : ProductId
  available : UInt64
  requested : UInt64
  deriving DecidableEq, Repr

/-- The shortfall in words. -/
def Shortfall.message (s : Shortfall) : String :=
  s!"insufficient stock of {s.product.text} in {s.warehouse.text}: " ++
    s!"available {s.available.toNat}, requested {s.requested.toNat}"

namespace StockKey

/-! ## Order -/

/-- Keys are ordered by warehouse, then product, each by its bytes. -/
instance : Ord StockKey where
  compare a b := (compare a.warehouse.bytes b.warehouse.bytes).then
    (compare a.product.bytes b.product.bytes)

/-- The order of keys, in the form in which its laws are derived. -/
theorem compare_eq : (compare : StockKey → StockKey → Ordering) =
    compareLex (compareOn fun k => k.warehouse.bytes) (compareOn fun k => k.product.bytes) := rfl

instance : Std.TransOrd StockKey := by
  unfold Std.TransOrd
  rw [compare_eq]
  infer_instance

instance : Std.LawfulEqOrd StockKey where
  eq_of_compare {a b} h := by
    have h : (compare a.warehouse.bytes b.warehouse.bytes).then
        (compare a.product.bytes b.product.bytes) = .eq := h
    obtain ⟨hw, hp⟩ := Ordering.then_eq_eq.mp h
    obtain ⟨w, p⟩ := a
    obtain ⟨w', p'⟩ := b
    cases Ident.bytes_injective (Std.LawfulEqOrd.eq_of_compare hw)
    cases Ident.bytes_injective (Std.LawfulEqOrd.eq_of_compare hp)
    rfl

/-! ## Byte form -/

/-- The greatest length of a warehouse identifier that two bytes can tell. -/
def maxWarehouseLength : Nat := 0xFFFF

/-- The beginning of the keys of a warehouse's rows. -/
def rowStart? (w : WarehouseId) : Option Bytes :=
  if w.bytes.length ≤ maxWarehouseLength then
    some (Bytes.bigEndian 2 w.bytes.length ++ w.bytes)
  else none

/-- The key of a row; none if the warehouse identifier is too long. -/
def bytes? (k : StockKey) : Option Bytes :=
  (rowStart? k.warehouse).map (· ++ k.product.bytes)

/-- The warehouse and product of a row with this key. -/
def ofBytes? (b : Bytes) : Option StockKey :=
  let length := Bytes.ofBigEndian (b.take 2)
  let rest := b.drop 2
  if 2 ≤ b.length ∧ length ≤ rest.length then
    match Bytes.toText? (rest.take length), Bytes.toText? (rest.drop length) with
    | some warehouse, some product => some ⟨⟨warehouse⟩, ⟨product⟩⟩
    | _, _ => none
  else none

theorem ofBytes?_bytes? {k : StockKey} {b : Bytes} (h : k.bytes? = some b) :
    ofBytes? b = some k := by
  obtain ⟨⟨w⟩, ⟨p⟩⟩ := k
  simp only [bytes?, rowStart?, Option.map_eq_some_iff] at h
  obtain ⟨a, ha, rfl⟩ := h
  split at ha
  · rename_i hl
    cases ha
    simp only [Ident.bytes, maxWarehouseLength] at hl
    have hlt : (Bytes.ofText w).length < Nat.pow 256 2 := Nat.lt_succ_of_le hl
    have hn := Bytes.ofBigEndian_bigEndian hlt
    simp [ofBytes?, Ident.bytes, hn, Bytes.toText?_ofText]
  · cases ha

theorem bytes?_of_ofBytes? {k : StockKey} {b : Bytes} (h : ofBytes? b = some k) :
    k.bytes? = some b := by
  simp only [ofBytes?] at h
  split at h
  · rename_i hlen
    obtain ⟨h2, hl⟩ := hlen
    split at h
    · rename_i w p hw hp
      cases h
      have hw := Bytes.ofText_of_toText? hw
      have hp := Bytes.ofText_of_toText? hp
      have ht : (b.take 2).length = 2 := by simp; omega
      have hn := Bytes.ofBigEndian_lt (b.take 2)
      rw [ht] at hn
      have hn : Bytes.ofBigEndian (b.take 2) < 65536 := hn
      have hb := Bytes.bigEndian_ofBigEndian (b.take 2)
      rw [ht] at hb
      simp only [bytes?, rowStart?, Ident.bytes, hw, hp, maxWarehouseLength,
        List.length_take, Nat.min_eq_left hl]
      rw [if_pos (by omega)]
      simp only [Option.map_some, hb, List.append_assoc, List.take_append_drop]
    · cases h
  · cases h

end StockKey

end Depot
