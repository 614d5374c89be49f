import Depot.Range
/-!
# Points in time

A timestamp is a UTC second and the nanoseconds elapsed within it; a leap second is written as
the second before it with a billion nanoseconds or more. Records hold timestamps as nanoseconds
since 1970 in 64 bits, so a timestamp outside the years 1677 to 2262 cannot be stored
(`unixNanos?`). `unixNanos?_ofUnixNanos` reads back every timestamp that was stored.
-/

namespace Depot

/-- A UTC point in time: seconds since 1970, and nanoseconds within the second. -/
structure Timestamp where
  seconds : Int
  nanos : Nat
  deriving DecidableEq, Repr

namespace Timestamp

/-- Nanoseconds in a second. -/
def perSecond : Nat := 1000000000

/-- The timestamp so many nanoseconds after the start of 1970. -/
def ofUnixNanos (n : Int) : Timestamp := ⟨n / perSecond, (n % perSecond).toNat⟩

/-- Nanoseconds since the start of 1970, if they fit 64 bits. Before 1970 the number is composed
from the following second, so that both its parts and their sum have to fit. -/
def unixNanos? (t : Timestamp) : Option Int :=
  let (seconds, nanos) : Int × Int :=
    if t.seconds < 0 then (t.seconds + 1, t.nanos - perSecond) else (t.seconds, t.nanos)
  let whole := seconds * perSecond
  if fitsInt64 whole && fitsInt64 (whole + nanos) then some (whole + nanos) else none

theorem unixNanos?_ofUnixNanos {n : Int} (h : fitsInt64 n = true) :
    unixNanos? (ofUnixNanos n) = some n := by
  simp only [fitsInt64, decide_eq_true_eq] at h
  have hs : (perSecond : Int) = 1000000000 := rfl
  simp only [unixNanos?, ofUnixNanos, hs]
  have hm := Int.emod_nonneg n (b := 1000000000) (by decide)
  have hl := Int.emod_lt_of_pos n (b := 1000000000) (by decide)
  have hd := Int.mul_ediv_add_emod n 1000000000
  rw [Int.toNat_of_nonneg hm]
  by_cases hn : n / 1000000000 < 0
  · simp only [hn, if_true, fitsInt64, Bool.and_eq_true, decide_eq_true_eq]
    rw [if_pos (by omega)]
    congr 1; omega
  · simp only [hn, if_false, fitsInt64, Bool.and_eq_true, decide_eq_true_eq]
    rw [if_pos (by omega)]
    congr 1; omega

end Timestamp

end Depot
