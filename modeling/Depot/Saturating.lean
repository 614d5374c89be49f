import Depot.Range
/-!
# Sums and products that stop at the largest number

Quantities, prices and balances are 64-bit numbers. Where a total is reported rather than stored,
a result too large for 64 bits is replaced by the largest 64-bit number. `toNat_satAdd` and
`toNat_satMul` say so in exact arithmetic. Stopping the numbers first and then their sum is the same
as stopping the sum alone (`satAdd_clamp_clamp`).
-/

namespace Depot

/-- The 64-bit number nearest to `n`: `n` itself, or the largest one. -/
def clamp (n : Nat) : UInt64 := UInt64.ofNat (min n maxUInt64)

/-- The sum, or the largest 64-bit number if the sum exceeds it. -/
def satAdd (a b : UInt64) : UInt64 := clamp (a.toNat + b.toNat)

/-- The product, or the largest 64-bit number if the product exceeds it. -/
def satMul (a b : UInt64) : UInt64 := clamp (a.toNat * b.toNat)

/-- The difference, or zero if `b` exceeds `a`. -/
def satSub (a b : UInt64) : UInt64 := UInt64.ofNat (a.toNat - b.toNat)

@[simp] theorem toNat_clamp (n : Nat) : (clamp n).toNat = min n maxUInt64 := by
  simp only [clamp, UInt64.toNat_ofNat', maxUInt64]
  omega

@[simp] theorem toNat_satAdd (a b : UInt64) :
    (satAdd a b).toNat = min (a.toNat + b.toNat) maxUInt64 := toNat_clamp _

/-- What fits 64 bits is not stopped. -/
theorem clamp_toNat (a : UInt64) : clamp a.toNat = a := by
  have hlt := a.toNat_lt
  rw [← UInt64.toNat_inj, toNat_clamp, maxUInt64]
  omega

theorem clamp_le_clamp {m n : Nat} (h : m ≤ n) : clamp m ≤ clamp n := by
  rw [UInt64.le_iff_toNat_le, toNat_clamp, toNat_clamp]
  omega

/-- The sum of numbers that stop at the largest one is the sum that stops there. -/
theorem satAdd_clamp_clamp (m n : Nat) : satAdd (clamp m) (clamp n) = clamp (m + n) := by
  rw [← UInt64.toNat_inj, toNat_satAdd, toNat_clamp, toNat_clamp, toNat_clamp]
  omega

/-- Adding to a sum that stops at the largest number gives the sum that stops there. -/
theorem satAdd_clamp (n : Nat) (value : UInt64) :
    satAdd (clamp n) value = clamp (n + value.toNat) := by
  rw [← satAdd_clamp_clamp, clamp_toNat]

@[simp] theorem toNat_satMul (a b : UInt64) :
    (satMul a b).toNat = min (a.toNat * b.toNat) maxUInt64 := toNat_clamp _

@[simp] theorem toNat_satSub (a b : UInt64) : (satSub a b).toNat = a.toNat - b.toNat := by
  have := a.toNat_lt
  simp only [satSub, UInt64.toNat_ofNat']
  omega

end Depot
