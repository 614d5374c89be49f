/-!
# Ranges of fixed-width numbers

Numbers are computed exactly and held in fixed widths. This module says which numbers a width
holds.
-/

namespace Depot

/-- The largest number of 64 bits. -/
def maxUInt64 : Nat := 0xFFFFFFFFFFFFFFFF

/-- The largest number of 64 bits with a sign. -/
def maxInt64 : Nat := 0x7FFFFFFFFFFFFFFF

/-- Whether a number fits 64 bits with a sign. -/
def fitsInt64 (i : Int) : Bool := decide (-0x8000000000000000 ≤ i ∧ i < 0x8000000000000000)

/-- Whether a number fits 128 bits with a sign. -/
def fitsInt128 (i : Int) : Bool :=
  decide (-0x80000000000000000000000000000000 ≤ i ∧ i < 0x80000000000000000000000000000000)

end Depot
