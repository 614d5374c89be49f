import Depot.Cbor.Writer
import Depot.Range
/-!
# Reading CBOR

A reader takes an item off the front of a byte string and returns what follows it. More is
accepted than is ever written: integers of any width, arrays of either length form, records with
unknown fields behind the known ones, records without their optional fields at the end.

What is not accepted is a `Fault`. Two rules settle which one:

* an item of another kind than the expected one is a `typeMismatch`, except that naming the kind
  of a negative integer takes its argument into account, and where the input has ended there the
  fault is `endOfInput`;
* an optional field whose value is an unknown alternative of an enumeration reads as absent.
-/

namespace Depot.Cbor

/-- Why an item could not be read. -/
inductive Fault where
  /-- The input ends inside the item. -/
  | endOfInput
  /-- The item is of another kind. -/
  | typeMismatch
  /-- An enumeration has no alternative with the index; `rest` is what follows the index. -/
  | unknownVariant (rest : Bytes)
  /-- A record ends before a field that every record has. -/
  | missingValue
  /-- A number or text does not fit its type, or an alternative is not an index and a record. -/
  | other
  deriving DecidableEq, Repr

/-- A function that takes an item off the front of its input. -/
abbrev Reader (α : Type) := Bytes → Except Fault (α × Bytes)

/-! ## Bytes and heads -/

/-- The first byte. -/
def readByte : Reader UInt8
  | [] => .error .endOfInput
  | b :: rest => .ok (b, rest)

/-- The first `n` bytes. -/
def readBytes (n : Nat) : Reader Bytes := fun input =>
  if n ≤ input.length then .ok (input.take n, input.drop n) else .error .endOfInput

/-- The big-endian number in the first `width` bytes. -/
def readBigEndian (width : Nat) : Reader Nat := fun input => do
  let (b, rest) ← readBytes width input
  return (Bytes.ofBigEndian b, rest)

/-- The kind of the item that starts with this byte. -/
def major (b : UInt8) : Major := .ofCode (b.toNat / 32)

/-- The lower five bits of the byte, which hold a small argument or tell its width. -/
def info (b : UInt8) : Nat := b.toNat % 32

/-- The value of `info` for an item of indefinite length. -/
def indefinite : Nat := 31

/-- The argument of an item with lower bits `low`, from the bytes behind its first. -/
def readArgument (low : Nat) : Reader Nat := fun input =>
  if low < 24 then .ok (low, input)
  else if low = 24 then readBigEndian 1 input
  else if low = 25 then readBigEndian 2 input
  else if low = 26 then readBigEndian 4 input
  else if low = 27 then readBigEndian 8 input
  else .error .typeMismatch

/-- A negative integer whose argument takes bytes of its own. -/
def isWideNegative (b : UInt8) : Bool := 0x38 ≤ b && b ≤ 0x3B

/-- The fault of meeting an item of the wrong kind that starts with `b`, where `rest` follows. -/
def mismatch (b : UInt8) (rest : Bytes) : Fault :=
  if isWideNegative b && rest.length < 2 then .endOfInput else .typeMismatch

/-- The next byte, which stays in the input; a wide negative integer must not end there. -/
def peek (input : Bytes) : Except Fault UInt8 :=
  match input with
  | [] => .error .endOfInput
  | b :: rest => if isWideNegative b && rest.isEmpty then .error .endOfInput else .ok b

/-! ## Single items -/

/-- A natural number below 2^64, in any width. -/
def readNat : Reader Nat := fun input => do
  let (b, rest) ← readByte input
  if major b = .unsigned && info b < 28 then readArgument (info b) rest
  else .error (mismatch b rest)

/-- A 64-bit number. -/
def readUInt64 : Reader UInt64 := fun input => do
  let (n, rest) ← readNat input
  return (UInt64.ofNat n, rest)

/-- A signed integer of 64 bits, in any width. -/
def readInt : Reader Int := fun input => do
  let (b, rest) ← readByte input
  if info b < 28 then
    match major b with
    | .unsigned =>
      let (n, rest) ← readArgument (info b) rest
      if n ≤ maxInt64 then .ok (n, rest) else .error .other
    | .negative =>
      let (n, rest) ← readArgument (info b) rest
      if n ≤ maxInt64 then .ok (-1 - n, rest) else .error .other
    | _ => .error (mismatch b rest)
  else .error (mismatch b rest)

/-- A text of definite length. -/
def readText : Reader String := fun input => do
  let (b, rest) ← readByte input
  if major b = .text && info b ≠ indefinite then
    let (n, rest) ← readArgument (info b) rest
    let (bytes, rest) ← readBytes n rest
    match Bytes.toText? bytes with
    | some s => .ok (s, rest)
    | none => .error .other
  else .error (mismatch b rest)

/-- The head of an array: its length, or `none` if a break ends it. -/
def readArrayHead : Reader (Option Nat) := fun input => do
  let (b, rest) ← readByte input
  if major b = .array then
    if info b = indefinite then .ok (none, rest)
    else
      let (n, rest) ← readArgument (info b) rest
      .ok (some n, rest)
  else .error (mismatch b rest)

/-! ## Skipping -/

/-- Skip the chunks of a string of indefinite length and the break behind them. Each chunk is a
string of definite length, of the same kind. The first argument bounds their number. -/
def skipChunks (kind : Major) : Nat → Bytes → Except Fault Bytes
  | 0, _ => .error .endOfInput
  | fuel + 1, input => do
    let (b, rest) ← readByte input
    if b = breakByte then .ok rest
    else if kind = .text then
      let (_, rest) ← readText input
      skipChunks kind fuel rest
    else if major b = kind && info b ≠ indefinite then
      let (n, rest) ← readArgument (info b) rest
      let (_, rest) ← readBytes n rest
      skipChunks kind fuel rest
    else .error (mismatch b rest)

/-- What the head of an item tells about what follows it. -/
inductive Head where
  /-- The item is complete. -/
  | complete
  /-- So many items stand inside; `none` if a break ends them. -/
  | container (length : Option Nat)
  /-- A tag, which belongs to the next item. -/
  | tag
  /-- A break. -/
  | stop

/-- Take the head of an item, and all of it unless it contains other items. -/
def skipHead : Reader Head := fun input => do
  let (b, rest) ← readByte input
  if b = breakByte then return (.stop, rest)
  match major b with
  | .unsigned | .negative | .simple =>
    let (_, rest) ← readArgument (info b) rest
    return (.complete, rest)
  | .bytes =>
    if info b = indefinite then
      return (.complete, ← skipChunks .bytes input.length rest)
    else
      let (n, rest) ← readArgument (info b) rest
      let (_, rest) ← readBytes n rest
      return (.complete, rest)
  | .text =>
    if info b = indefinite then
      return (.complete, ← skipChunks .text input.length rest)
    else
      let (_, rest) ← readText input
      return (.complete, rest)
  | .array =>
    if info b = indefinite then return (.container none, rest)
    let (n, rest) ← readArgument (info b) rest
    return (.container (some n), rest)
  | .map =>
    if info b = indefinite then return (.container none, rest)
    let (n, rest) ← readArgument (info b) rest
    return (.container (some (2 * n)), rest)
  | .tag =>
    let (_, rest) ← readArgument (info b) rest
    return (.tag, rest)

/-- What is left to be skipped. Items and breaks are counted without regard to which container they
belong to, as long as no container of indefinite length stands in front of more items; then the
containers are told apart. So what stands in a container of indefinite length may be cut short by
a break. -/
inductive Pending where
  /-- So many items and so many breaks. -/
  | counted (items breaks : Nat)
  /-- Containers, the innermost first: how many items each has left, `none` if a break ends it. -/
  | nested (levels : List (Option Nat))
  deriving DecidableEq, Repr

/-- One item is done. A container without further items ends with its last item. -/
def Pending.done : Pending → Pending
  | .counted items breaks => .counted (items - 1) breaks
  | .nested levels =>
    match levels.dropWhile (· == some 0) with
    | [] => .counted 0 0
    | some n :: outer => .nested (some (n - 1) :: outer)
    | none :: outer => .nested (none :: outer)

/-- A container starts. -/
def Pending.enter (length : Option Nat) : Pending → Pending
  | .nested levels => .nested (length :: levels)
  | .counted items breaks =>
    match length with
    | some n => .counted (items + n) breaks
    | none =>
      if items < 2 then .counted items (breaks + 1)
      else .nested (none :: some (items - 1) :: List.replicate breaks none)

/-- A break ends the innermost container, if that is one of indefinite length. -/
def Pending.leave : Pending → Pending
  | .counted items breaks => .counted items (breaks - 1)
  | .nested (none :: outer) => .nested outer
  | .nested levels => .nested levels

/-- What is left behind a head. -/
def Pending.after (p : Pending) : Head → Pending
  | .complete => p.done
  | .container length => (p.enter length).done
  | .tag => p
  | .stop => p.leave.done

/-- Skip what is pending. Each step takes a byte, so the first argument, which bounds the steps, is
never the reason to stop if it exceeds the length of the input. -/
def skipPending : Nat → Pending → Bytes → Except Fault Bytes
  | _, .counted 0 0, input => .ok input
  | 0, _, _ => .error .endOfInput
  | fuel + 1, p, input => do
    let (head, rest) ← skipHead input
    skipPending fuel (p.after head) rest

/-- Skip an item. A break where an item should stand counts as one. -/
def skip (input : Bytes) : Except Fault Bytes :=
  skipPending (input.length + 1) (.counted 1 0) input

/-- Skip `n` items. -/
def skipTimes : Nat → Bytes → Except Fault Bytes
  | 0, input => .ok input
  | n + 1, input => do skipTimes n (← skip input)

/-- Skip items up to a break, and the break. The first argument bounds their number. -/
def skipUntilBreak : Nat → Bytes → Except Fault Bytes
  | 0, _ => .error .endOfInput
  | fuel + 1, input => do
    if (← peek input) = breakByte then return input.drop 1
    skipUntilBreak fuel (← skip input)

/-! ## Lists -/

/-- Read `n` items with the same reader. -/
def readTimes {α : Type} (read : Reader α) : Nat → Reader (List α)
  | 0, input => .ok ([], input)
  | n + 1, input => do
    let (x, rest) ← read input
    let (xs, rest) ← readTimes read n rest
    return (x :: xs, rest)

/-- Read items up to a break. The first argument bounds their number. -/
def readUntilBreak {α : Type} (read : Reader α) : Nat → Reader (List α)
  | 0, _ => .error .endOfInput
  | fuel + 1, input => do
    let (b, rest) ← readByte input
    if b = breakByte then return ([], rest)
    let (x, rest) ← read input
    let (xs, rest) ← readUntilBreak read fuel rest
    return (x :: xs, rest)

/-- An array of items of one type. -/
def readList {α : Type} (read : Reader α) : Reader (List α) := fun input => do
  match ← readArrayHead input with
  | (some n, rest) => readTimes read n rest
  | (none, rest) => readUntilBreak read input.length rest

/-! ## Records

The fields of a record are read in order. Between two fields the state is the number of elements
left in the array, `none` if a break ends it.
-/

/-- How many elements of the array are left; `none` if a break ends it. -/
abbrev Left := Option Nat

/-- Whether the array has another element; `left` counts it. -/
def hasNext (left : Left) (input : Bytes) : Except Fault Bool :=
  match left with
  | some n => .ok (n ≠ 0)
  | none => do return (← peek input) ≠ breakByte

/-- One element less. -/
def Left.pred (left : Left) : Left := left.map (· - 1)

/-- A field that every record has. -/
def readField {α : Type} (read : Reader α) (left : Left) (input : Bytes) :
    Except Fault (α × Left × Bytes) := do
  if ← hasNext left input then
    let (x, rest) ← read input
    return (x, left.pred, rest)
  else .error .missingValue

/-- A field that may be absent: by the end of the array, by `null`, or by an alternative that the
enumeration does not have. -/
def readOptional {α : Type} (read : Reader α) (left : Left) (input : Bytes) :
    Except Fault (Option α × Left × Bytes) := do
  if ← hasNext left input then
    if (← peek input) = nullByte then return (none, left.pred, input.drop 1)
    match read input with
    | .ok (x, rest) => return (some x, left.pred, rest)
    | .error (.unknownVariant rest) => return (none, left.pred, ← skip rest)
    | .error fault => .error fault
  else return (none, left, input)

/-- Skip what a record has behind its known fields. -/
def readRecordEnd (left : Left) (input : Bytes) : Except Fault Bytes :=
  match left with
  | some n => skipTimes n input
  | none => skipUntilBreak input.length input

/-- The head of an alternative: its index. The record of its fields follows. -/
def readAlternativeHead : Reader Int := fun input => do
  let (length, rest) ← readArrayHead input
  if length = some 2 then readInt rest else .error .other

end Depot.Cbor
