import Depot.Bytes
/-!
# Writing CBOR

Every record is stored as one CBOR item (RFC 8949). Written items are in preferred form: lengths
and integers take the fewest bytes, strings and arrays carry their length in front.

A record is an array of its fields. Absent fields at the end are left out, and an absent field
before a present one is written as `null`; so a record without optional values is never longer
than its last present field.
-/

namespace Depot.Cbor

/-! ## Heads -/

/-- The kind of an item, the upper three bits of its first byte. -/
inductive Major where
  | unsigned | negative | bytes | text | array | map | tag | simple
  deriving DecidableEq, Repr

/-- The upper three bits as a number. -/
def Major.code : Major → Nat
  | .unsigned => 0 | .negative => 1 | .bytes => 2 | .text => 3
  | .array => 4 | .map => 5 | .tag => 6 | .simple => 7

/-- The kind with this number; numbers above 7 do not occur in three bits. -/
def Major.ofCode : Nat → Major
  | 0 => .unsigned | 1 => .negative | 2 => .bytes | 3 => .text
  | 4 => .array | 5 => .map | 6 => .tag | _ => .simple

/-- The first bytes of an item of kind `m` with argument `n`, in the shortest form. -/
def head (m : Major) (n : Nat) : Bytes :=
  if n < 24 then [UInt8.ofNat (m.code * 32 + n)]
  else if n < 0x100 then UInt8.ofNat (m.code * 32 + 24) :: Bytes.bigEndian 1 n
  else if n < 0x10000 then UInt8.ofNat (m.code * 32 + 25) :: Bytes.bigEndian 2 n
  else if n < 0x100000000 then UInt8.ofNat (m.code * 32 + 26) :: Bytes.bigEndian 4 n
  else UInt8.ofNat (m.code * 32 + 27) :: Bytes.bigEndian 8 n

/-- The item `null`, which stands for an absent field. -/
def nullByte : UInt8 := 0xF6

/-- The byte that ends an item of indefinite length. -/
def breakByte : UInt8 := 0xFF

/-! ## Items -/

/-- A natural number below 2^64. -/
def writeNat (n : Nat) : Bytes := head .unsigned n

/-- An integer from -2^64 up to 2^64 - 1: a negative one `i` is written as `-1 - i`. -/
def writeInt (i : Int) : Bytes :=
  if i < 0 then head .negative (-1 - i).toNat else head .unsigned i.toNat

/-- A text, as the number of its UTF-8 bytes and the bytes. -/
def writeText (s : String) : Bytes :=
  head .text (Bytes.ofText s).length ++ Bytes.ofText s

/-- An array of items that are already written. -/
def writeArray (items : List Bytes) : Bytes := head .array items.length ++ items.flatten

/-- The fields up to the last present one. -/
def dropAbsent (fields : List (Option Bytes)) : List (Option Bytes) :=
  (fields.reverse.dropWhile Option.isNone).reverse

/-- A record with these fields, `none` where one is absent. -/
def writeRecord (fields : List (Option Bytes)) : Bytes :=
  writeArray ((dropAbsent fields).map (·.getD [nullByte]))

/-- An alternative of an enumeration: its index and the record of its fields. -/
def writeAlternative (index : Nat) (fields : List (Option Bytes)) : Bytes :=
  writeArray [writeNat index, writeRecord fields]

end Depot.Cbor
