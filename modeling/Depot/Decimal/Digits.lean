/-!
# Decimal digits

Whole numbers as lists of the digits `0` to `9`.
-/

namespace Depot.Decimal

/-- The number that digits spell. -/
def ofDigits (s : List Char) : Nat := s.foldl (fun n c => n * 10 + (c.toNat - 48)) 0

/-- The number that a text spells if it is digits and nothing else, at least one. -/
def ofDigits? (s : List Char) : Option Nat :=
  if !s.isEmpty && s.all Char.isDigit then some (ofDigits s) else none

/-- The number spelled by the first `n` characters, and what follows them. -/
def takeDigits? (n : Nat) (s : List Char) : Option (Nat × List Char) :=
  if (s.take n).length = n then (ofDigits? (s.take n)).map fun k => (k, s.drop n) else none

/-- The digits of a number, with zeros in front up to a width. -/
def padded (width n : Nat) : List Char :=
  let digits := (Nat.repr n).toList
  List.replicate (width - digits.length) '0' ++ digits

end Depot.Decimal
