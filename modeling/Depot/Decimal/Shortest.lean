import Depot.Range
/-!
# The shortest decimal text of a binary number

A binary floating-point number is written with the fewest decimal digits that read back as the
same number, the nearest such digits if there are several, and the larger of two that are equally
near. `Double` holds a finite number as a whole number of quarter units in its last place, so every
comparison is one of natural numbers.

Texts are positional: no exponent, no point before an empty fraction.
-/

namespace Depot.Decimal

/-- A finite positive 64-bit floating-point number `mantissa * 2^exponent`. -/
structure Double where
  mantissa : Nat
  exponent : Int
  deriving DecidableEq, Repr

/-- The bit in front of the stored fraction of a number that is not very small. -/
def leadingBit : Nat := 0x10000000000000

/-- The number of different exponents in a bit pattern. -/
def exponentCount : Nat := 0x800

/-- The number behind the bit pattern of a finite number, its sign left aside. -/
def Double.ofBits (bits : Nat) : Double :=
  let fraction : Nat := bits % leadingBit
  let biased : Nat := bits / leadingBit % exponentCount
  if biased = 0 then ⟨fraction, -1074⟩ else ⟨fraction + leadingBit, (biased : Int) - 1075⟩

/-- A nonnegative fraction. -/
structure Ratio where
  num : Nat
  den : Nat

/-- So many quarters of the last place, as a fraction. -/
def Double.quarters (d : Double) (n : Nat) : Ratio :=
  ⟨n * Nat.pow 2 (d.exponent - 2).toNat, Nat.pow 2 (2 - d.exponent).toNat⟩

/-- The quarters from which the number below and the number above are nearer. The number below a
power of two is only half as far away. -/
def Double.interval (d : Double) : Nat × Nat :=
  let v := 4 * d.mantissa
  let halved := d.mantissa = leadingBit && decide (-1074 < d.exponent)
  (if halved then v - 1 else v - 2, v + 2)

/-- Compare `c * 10^grid` with a fraction. -/
def compareGrid (c : Nat) (grid : Int) (r : Ratio) : Ordering :=
  compare (c * Nat.pow 10 grid.toNat * r.den) (r.num * Nat.pow 10 (-grid).toNat)

/-- Whether `c * 10^grid` reads back as the number; the ends of the interval do if the mantissa
is even. -/
def Double.reads (d : Double) (c : Nat) (grid : Int) : Bool :=
  let (low, high) := d.interval
  let atLow := compareGrid c grid (d.quarters low)
  let atHigh := compareGrid c grid (d.quarters high)
  let even := d.mantissa % 2 == 0
  (atLow == .gt || (even && atLow == .eq)) && (atHigh == .lt || (even && atHigh == .eq))

/-- The whole part of the number divided by `10^grid`. -/
def Double.floorGrid (d : Double) (grid : Int) : Nat :=
  let r := d.quarters (4 * d.mantissa)
  r.num * Nat.pow 10 (-grid).toNat / (r.den * Nat.pow 10 grid.toNat)

/-- The nearer of two neighbours on the grid that both read back; a number half-way between them
goes to the larger one. -/
def Double.nearer (d : Double) (low : Nat) (grid : Int) : Nat :=
  if compareGrid (2 * low + 1) grid (d.quarters (8 * d.mantissa)) == .gt then low else low + 1

/-- The digits on one grid, if digits on it read back. -/
def Double.onGrid? (d : Double) (grid : Int) : Option Nat :=
  let low := d.floorGrid grid
  match d.reads low grid, d.reads (low + 1) grid with
  | true, true => some (d.nearer low grid)
  | true, false => some low
  | false, true => some (low + 1)
  | false, false => none

/-- The power of ten just above the number, found by trying `fuel` powers down from `k`. -/
def Double.magnitude (d : Double) : Nat → Int → Int
  | 0, k => k
  | fuel + 1, k => if d.floorGrid (k - 1) = 0 then d.magnitude fuel (k - 1) else k

/-- The shortest digits and the power of ten of the last one, tried with `17 - fuel` digits and
more. -/
def Double.search (d : Double) (k : Int) : Nat → Nat × Int
  | 0 => (d.floorGrid (k - 17), k - 17)
  | fuel + 1 =>
    let grid := k - (17 - fuel : Nat)
    match d.onGrid? grid with
    | some c => (c, grid)
    | none => d.search k fuel

/-- The shortest digits and the power of ten of the last one. -/
def Double.shortest (d : Double) : Nat × Int := d.search (d.magnitude 640 310) 17

/-- The text of `c * 10^grid` without exponent. -/
def positional (c : Nat) (grid : Int) : String :=
  let digits := (Nat.repr c).toList
  if 0 ≤ grid then String.ofList (digits ++ List.replicate grid.toNat '0')
  else
    let places := (-grid).toNat
    let padded := List.replicate (places + 1 - digits.length) '0' ++ digits
    let whole := padded.take (padded.length - places)
    let fraction := ((padded.drop (padded.length - places)).reverse.dropWhile (· == '0')).reverse
    String.ofList (if fraction.isEmpty then whole else whole ++ '.' :: fraction)

/-- The text of a floating-point number. -/
def text (x : Float) : String :=
  let bits := x.toBits.toNat
  let sign := if bits ≤ maxInt64 then "" else "-"
  if bits / leadingBit % exponentCount = exponentCount - 1 then
    if bits % leadingBit = 0 then sign ++ "inf" else "NaN"
  else
    let d := Double.ofBits bits
    if d.mantissa = 0 then sign ++ "0"
    else
      let (c, grid) := d.shortest
      sign ++ positional c grid

end Depot.Decimal
