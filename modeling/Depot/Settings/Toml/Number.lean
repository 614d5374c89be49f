import Depot.Decimal.Digits
import Depot.Settings.Toml.Text
/-!
# Numbers in TOML

A number starts with unquoted characters, its *word*. What follows the word can belong to the
number only as the fraction behind a point or as an exponent behind a plus sign. So the readers
take the word and what follows it, and return what follows the number.

Integers have 64 bits with a sign. A floating-point number is the one nearest to the decimal that
is spelled, and has to be finite unless it is spelled `inf`.
-/

namespace Depot.Toml

open Bytes (hexValue?)
open Decimal (ofDigits)

/-- Digits with single underscores between them, the underscores left out, and what follows. -/
def digitRun? (isDigit : Char → Bool) (s : List Char) : Option (List Char × List Char) :=
  let run := s.takeWhile fun c => isDigit c || c == '_'
  if (run.splitOn '_').all (!·.isEmpty) then some (run.filter (· ≠ '_'), s.drop run.length)
  else none

/-- Whether a minus sign stands in front, and what follows it. -/
def minusSign : List Char → Bool × List Char
  | '-' :: rest => (true, rest)
  | rest => (false, rest)

/-- A sign and decimal digits without a leading zero, and what follows them. -/
def wholeRun? (s : List Char) : Option (Bool × List Char × List Char) := do
  let (negative, body) := minusSign s
  let (digits, rest) ← digitRun? Char.isDigit body
  guard (digits.head? ≠ some '0' || digits.length = 1)
  return (negative, digits, rest)

/-- An integer behind `0x`, `0o` or `0b`. -/
def basedInteger? (base : Nat) (body : List Char) : Option SettingTree := do
  let isDigit (c : Char) : Bool := (hexValue? c).any fun k => decide (k < base)
  let (digits, rest) ← digitRun? isDigit body
  guard rest.isEmpty
  let values ← digits.mapM hexValue?
  let n := values.foldl (fun n k => n * base + k) 0
  guard (n ≤ maxInt64)
  return .int n

/-- A decimal integer. -/
def integer? (word : List Char) : Option SettingTree := do
  let (negative, digits, rest) ← wholeRun? word
  guard rest.isEmpty
  let i : Int := if negative then -(ofDigits digits : Int) else ofDigits digits
  guard (fitsInt64 i)
  return .int i

/-- The greatest power of ten that is a floating-point number. -/
def greatestPower : Int := 308

/-- Numbers up to this power of ten are too small to be told from zero. -/
def vanishingPower : Int := -330

/-- The floating-point number nearest to `n * 10^power`; none if that is too large. -/
def scaled? (n : Nat) (power : Int) : Option Float :=
  let magnitude : Int := power + (Nat.repr n).length
  if n = 0 || magnitude ≤ vanishingPower then some 0
  else if greatestPower + 1 < magnitude then none
  else
    let x := Float.ofScientific n (power < 0) power.natAbs
    if x.isInf then none else some x

/-- The power of ten behind an `e`, from the rest of the word or, if a plus sign comes between, from
the next word. -/
def exponent? (suffix rest : List Char) : Option (Int × List Char) := do
  match suffix with
  | [] => return (0, rest)
  | e :: body =>
    guard (e == 'e' || e == 'E')
    if body.isEmpty then
      let (word, rest) ← parseBare? (← if rest.head? = some '+' then some (rest.drop 1) else none)
      let (digits, more) ← digitRun? Char.isDigit word
      guard more.isEmpty
      return (ofDigits digits, rest)
    else
      let (negative, body) := minusSign body
      let (digits, more) ← digitRun? Char.isDigit body
      guard more.isEmpty
      return (if negative then -(ofDigits digits : Int) else ofDigits digits, rest)

/-- A floating-point number: whole digits, a fraction if a point stands between the word and another
one, and an exponent. -/
def float? (word : List Char) (behindPoint : Option (List Char)) (rest : List Char) :
    Option (SettingTree × List Char) := do
  let (negative, whole, suffix) ← wholeRun? word
  let (fraction, suffix) ← match behindPoint with
    | none => some ([], suffix)
    | some word => if suffix.isEmpty then digitRun? Char.isDigit word else none
  let (power, rest) ← exponent? suffix rest
  let x ← scaled? (ofDigits (whole ++ fraction)) (power - fraction.length)
  return (.float (if negative then -x else x), rest)

/-- The number that a word begins. -/
def number? (word rest : List Char) : Option (SettingTree × List Char) :=
  match word with
  | '0' :: 'x' :: body => (basedInteger? 16 body).map fun t => (t, rest)
  | '0' :: 'o' :: body => (basedInteger? 8 body).map fun t => (t, rest)
  | '0' :: 'b' :: body => (basedInteger? 2 body).map fun t => (t, rest)
  | _ =>
    if word.contains 'e' || word.contains 'E' then float? word none rest
    else if rest.head? = some '.' then do
      let (behindPoint, rest) ← parseBare? (rest.drop 1)
      float? word (some behindPoint) rest
    else if word = "inf".toList then some (.float (1.0 / 0.0), rest)
    else if word = "-inf".toList then some (.float (-1.0 / 0.0), rest)
    else if word = "nan".toList || word = "-nan".toList then some (.float (0.0 / 0.0), rest)
    else (integer? word).map fun t => (t, rest)

end Depot.Toml
