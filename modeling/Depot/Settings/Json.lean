import Depot.Settings.Tree
/-!
# Settings in JSON

A settings file may be a JSON text (RFC 8259). Of entries with the same name the last one counts.
Numbers without fraction and exponent that fit 64 bits with a sign are integers, all others
floating-point numbers.
-/

namespace Depot.Json

open Bytes (hexValue?)

/-! ## Numbers

A number is read as a significand below 2^64 and a power of ten. Digits beyond the significand are
dropped, those before the point raising the power.
-/

/-- A number as read so far. -/
structure Scanned where
  significand : Nat
  power : Int

/-- Whether another digit fits the significand. -/
def fits (n : Nat) (c : Char) : Bool := n * 10 + (c.toNat - 48) ≤ maxUInt64

/-- The digits before the point; the flag tells that some were dropped. -/
def scanWhole (n : Nat) (dropped : Nat) : List Char → Scanned × List Char
  | [] => (⟨n, dropped⟩, [])
  | c :: rest =>
    if c.isDigit then
      if dropped = 0 && fits n c then scanWhole (n * 10 + (c.toNat - 48)) 0 rest
      else scanWhole n (dropped + 1) rest
    else (⟨n, dropped⟩, c :: rest)

/-- The digits behind the point; `full` tells that the rest is dropped. -/
def scanFraction (s : Scanned) (full : Bool) : List Char → Scanned × List Char
  | [] => (s, [])
  | c :: rest =>
    if c.isDigit then
      if !full && fits s.significand c then
        scanFraction ⟨s.significand * 10 + (c.toNat - 48), s.power - 1⟩ false rest
      else scanFraction s true rest
    else (s, c :: rest)

/-- The digits of an exponent. -/
def scanExponent (n : Nat) : List Char → Nat × List Char
  | [] => (n, [])
  | c :: rest =>
    if c.isDigit then scanExponent (n * 10 + (c.toNat - 48)) rest else (n, c :: rest)

/-- The floating-point number of a significand and a power of ten; none if it is too large. Each
step rounds: the significand, then one multiplication or division, or several divisions for very
small numbers. The first argument bounds their number. -/
def scale : Nat → Float → Int → Option Float
  | 0, _, _ => some 0
  | fuel + 1, f, power =>
    if power.natAbs ≤ 308 then
      let ten := Float.ofScientific 1 false power.natAbs
      if 0 ≤ power then
        let product := f * ten
        if product.isInf then none else some product
      else some (f / ten)
    else if f == 0 then some f
    else if 0 ≤ power then none
    else scale fuel (f / Float.ofScientific 1 false 308) (power + 308)

/-- The floating-point number of a scanned number. -/
def Scanned.toFloat? (s : Scanned) (negative : Bool) : Option SettingTree := do
  let x ← scale 8 (UInt64.ofNat s.significand).toFloat s.power
  return .float (if negative then -x else x)

/-- The largest exponent that is told apart from larger ones. -/
def maxExponent : Nat := 0x7FFFFFFF

/-- The exponent, if there is one, and the number. -/
def finishNumber (negative : Bool) (s : Scanned) (input : List Char) :
    Option (SettingTree × List Char) := do
  match input with
  | e :: rest =>
    if e == 'e' || e == 'E' then
      let (minus, rest) := match rest with
        | '-' :: rest => (true, rest)
        | '+' :: rest => (false, rest)
        | rest => (false, rest)
      guard (rest.head?.any Char.isDigit)
      let (n, rest) := scanExponent 0 rest
      if maxExponent < n then
        guard (s.significand = 0 || minus)
        return (.float (if negative then -0.0 else 0.0), rest)
      let power : Int := if minus then s.power - n else s.power + n
      return (← Scanned.toFloat? ⟨s.significand, power⟩ negative, rest)
    else return (← s.toFloat? negative, input)
  | [] => return (← s.toFloat? negative, [])

/-- A number, its sign already read. -/
def parseNumber (negative : Bool) (input : List Char) : Option (SettingTree × List Char) := do
  let c ← input.head?
  guard c.isDigit
  let (whole, rest) := if c == '0' then (⟨0, 0⟩, input.drop 1) else scanWhole 0 0 input
  match rest with
  | '.' :: rest =>
    guard (rest.head?.any Char.isDigit)
    let (s, rest) := scanFraction whole false rest
    finishNumber negative s rest
  | c :: _ =>
    guard (!c.isDigit)
    if c == 'e' || c == 'E' then finishNumber negative whole rest else plain whole rest
  | [] => plain whole rest
where
  /-- A number without fraction and exponent. -/
  plain (whole : Scanned) (rest : List Char) : Option (SettingTree × List Char) :=
    let n := whole.significand
    if whole.power = 0 && !negative && n ≤ maxInt64 then some (.int n, rest)
    else if whole.power = 0 && negative && 0 < n && n ≤ maxInt64 + 1 then some (.int (-n), rest)
    else do return (← whole.toFloat? negative, rest)

/-! ## Strings -/

/-- The number spelled by four hexadecimal digits. -/
def hex4? : List Char → Option (Nat × List Char)
  | a :: b :: c :: d :: rest => do
    let digits ← [a, b, c, d].mapM hexValue?
    return (digits.foldl (fun n k => n * 16 + k) 0, rest)
  | _ => none

/-- The character with a code, unless the code is that of half a pair. -/
def scalar? (n : Nat) : Option Char := if h : n.isValidChar then some (Char.ofNatAux n h) else none

/-- The character behind `\u`, which takes a second escape if the first is half a pair. -/
def unicodeEscape? (input : List Char) : Option (Char × List Char) := do
  let (high, rest) ← hex4? input
  if 0xD800 ≤ high && high < 0xDC00 then
    match rest with
    | '\\' :: 'u' :: rest =>
      let (low, rest) ← hex4? rest
      guard (0xDC00 ≤ low && low < 0xE000)
      return (← scalar? (0x10000 + (high - 0xD800) * 1024 + (low - 0xDC00)), rest)
    | _ => none
  else return (← scalar? high, rest)

/-- The character of a one-letter escape. -/
def simpleEscape? : Char → Option Char
  | '"' => some '"' | '\\' => some '\\' | '/' => some '/'
  | 'b' => some '\x08' | 'f' => some '\x0c' | 'n' => some '\n' | 'r' => some '\r' | 't' => some '\t'
  | _ => none

/-- The rest of a string, its opening quote already read. The first argument bounds the number of
characters. -/
def parseString : Nat → List Char → Option (List Char × List Char)
  | 0, _ => none
  | _, [] => none
  | fuel + 1, c :: rest =>
    if c == '"' then some ([], rest)
    else if c == '\\' then do
      match rest with
      | 'u' :: rest =>
        let (x, rest) ← unicodeEscape? rest
        let (s, rest) ← parseString fuel rest
        return (x :: s, rest)
      | e :: rest =>
        let x ← simpleEscape? e
        let (s, rest) ← parseString fuel rest
        return (x :: s, rest)
      | [] => none
    else if c.toNat < 0x20 then none
    else do
      let (s, rest) ← parseString fuel rest
      return (c :: s, rest)

/-! ## Values -/

/-- Leave out blanks. -/
def skipBlanks (input : List Char) : List Char :=
  input.dropWhile fun c => c == ' ' || c == '\n' || c == '\t' || c == '\r'

/-- Leave out a word. -/
def expect (word : String) (input : List Char) : Option (List Char) :=
  if word.toList.isPrefixOf input then some (input.drop word.length) else none

/-- The greatest number of arrays and objects around a value. -/
def maxDepth : Nat := 127

mutual

/-- A value and what follows it. The first argument bounds the number of steps, the second tells
how many arrays and objects may still be opened. -/
def parseValue : Nat → Nat → List Char → Option (SettingTree × List Char)
  | 0, _, _ => none
  | fuel + 1, depth, input =>
    match skipBlanks input with
    | [] => none
    | c :: rest =>
      if c == 'n' then (expect "null" (c :: rest)).map fun r => (.null, r)
      else if c == 't' then (expect "true" (c :: rest)).map fun r => (.bool true, r)
      else if c == 'f' then (expect "false" (c :: rest)).map fun r => (.bool false, r)
      else if c == '"' then
        (parseString (rest.length + 1) rest).map fun (s, r) => (.text (String.ofList s), r)
      else if c == '-' then parseNumber true rest
      else if c.isDigit then parseNumber false (c :: rest)
      else if c == '[' then
        if depth = 0 then none
        else
          match skipBlanks rest with
          | ']' :: rest => some (.list [], rest)
          | rest => (parseElements fuel (depth - 1) rest).map fun (l, r) => (.list l, r)
      else if c == '\x7b' then
        if depth = 0 then none
        else
          match skipBlanks rest with
          | '\x7d' :: rest => some (.table [], rest)
          | rest => (parseEntries fuel (depth - 1) [] rest).map fun (l, r) => (.table l, r)
      else none

/-- The elements of an array and its closing bracket. -/
def parseElements : Nat → Nat → List Char → Option (List SettingTree × List Char)
  | 0, _, _ => none
  | fuel + 1, depth, input => do
    let (x, rest) ← parseValue fuel depth input
    match skipBlanks rest with
    | ',' :: rest =>
      let (xs, rest) ← parseElements fuel depth rest
      return (x :: xs, rest)
    | ']' :: rest => return ([x], rest)
    | _ => none

/-- The entries of an object and its closing brace, put into the entries before them. -/
def parseEntries : Nat → Nat → List (String × SettingTree) → List Char →
    Option (List (String × SettingTree) × List Char)
  | 0, _, _, _ => none
  | fuel + 1, depth, before, input => do
    match skipBlanks input with
    | '"' :: rest =>
      let (name, rest) ← parseString (rest.length + 1) rest
      match skipBlanks rest with
      | ':' :: rest =>
        let (x, rest) ← parseValue fuel depth rest
        let entries := SettingTree.put (String.ofList name) x before
        match skipBlanks rest with
        | ',' :: rest => parseEntries fuel depth entries rest
        | '\x7d' :: rest => return (entries, rest)
        | _ => none
      | _ => none
    | _ => none

end

/-- The value of a JSON text. -/
def parse? (s : String) : Option SettingTree := do
  let (x, rest) ← parseValue (2 * s.length + 2) maxDepth s.toList
  guard (skipBlanks rest).isEmpty
  return x

end Depot.Json
