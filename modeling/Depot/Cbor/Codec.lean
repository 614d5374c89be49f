import Depot.Cbor.Reader
import Depot.Timestamp
/-!
# Types with a stored form

`Stored α` gives a type its CBOR form: how a value is written, and how one is read off the front
of a byte string. Writing fails only for a time that cannot be stored. A row of a table is decoded
by `decode`, which ignores what follows the value.
-/

namespace Depot

/-- Why a value has no stored form. -/
inductive EncodeFault where
  /-- A time lies outside the range of 64-bit nanoseconds. -/
  | timeOutOfRange
  deriving DecidableEq, Repr

/-- The fault in words. -/
def EncodeFault.message : EncodeFault → String
  | .timeOutOfRange => "failed to encode timestamp. timestamp_nanos_opt returned None"

/-- A type with a CBOR form. -/
class Stored (α : Type) where
  /-- The CBOR form of a value. -/
  encode : α → Except EncodeFault Bytes
  /-- Take a value off the front of the input. -/
  read : Cbor.Reader α

export Stored (encode)

/-- The value at the front of a byte string. -/
def decode {α : Type} [Stored α] (b : Bytes) : Except Cbor.Fault α :=
  match Stored.read b with
  | .ok (value, _) => .ok value
  | .error fault => .error fault

/-- A list is stored as an array of its elements. -/
instance {α : Type} [Stored α] : Stored (List α) where
  encode xs := do return Cbor.writeArray (← xs.mapM encode)
  read := Cbor.readList Stored.read

/-- Times are stored as nanoseconds since the start of 1970. -/
instance : Stored Timestamp where
  encode t :=
    match t.unixNanos? with
    | some n => .ok (Cbor.writeInt n)
    | none => .error .timeOutOfRange
  read input := do
    let (n, rest) ← Cbor.readInt input
    return (.ofUnixNanos n, rest)

end Depot
