import Depot.Bytes
import Depot.Decimal.Shortest
import Depot.Saturating
/-!
# Trees of settings

A source of settings is a tree whose inner nodes are tables with named entries and lists. Sources
are laid one over the other by `overlay`, each entry at the path that its key spells: a table is
merged entry by entry into what is there, anything else replaces it. What a leaf is converted to
is decided by the field that reads it (`toBool?`, `toUInt64?`, `toText?`).
-/

namespace Depot

/-- A value in a source of settings. -/
inductive SettingTree where
  | null
  | bool (b : Bool)
  | int (i : Int)
  | float (x : Float)
  | text (s : String)
  | list (elements : List SettingTree)
  | table (entries : List (String × SettingTree))

namespace SettingTree

/-! ## Tables -/

/-- The entries of a table; none of anything else. -/
def entries : SettingTree → List (String × SettingTree)
  | .table entries => entries
  | _ => []

/-- The entry with a name. -/
def lookUp (name : String) : List (String × SettingTree) → Option SettingTree
  | [] => none
  | e :: rest => if e.1 = name then some e.2 else lookUp name rest

/-- Set the entry with a name, in its place if there is one. -/
def put (name : String) (value : SettingTree) :
    List (String × SettingTree) → List (String × SettingTree)
  | [] => [(name, value)]
  | e :: rest => if e.1 = name then (name, value) :: rest else e :: put name value rest

theorem lookUp_put (name name' : String) (value : SettingTree)
    (l : List (String × SettingTree)) :
    lookUp name' (put name value l) = if name = name' then some value else lookUp name' l := by
  induction l with
  | nil => rfl
  | cons e rest ih =>
    simp only [put]
    split
    · rename_i h
      subst h
      simp only [lookUp]
      split <;> rfl
    · rename_i h
      simp only [lookUp, ih]
      split
      · rename_i h'
        subst h'
        simp [Ne.symm h]
      · rfl

/-! ## Layers -/

mutual

/-- Lay a value over the entry with a name. What is not a table becomes one. A table is merged
into the entry, which is left alone if the table has no entries. -/
def setField (name : String) (value : SettingTree) (root : SettingTree) : SettingTree :=
  match value with
  | .table incoming =>
    let target := (lookUp name root.entries).getD (.table [])
    .table (put name (setFields incoming target) root.entries)
  | leaf => .table (put name leaf root.entries)
termination_by sizeOf value

/-- Lay the entries of a table over a value. -/
def setFields (incoming : List (String × SettingTree)) (target : SettingTree) : SettingTree :=
  match incoming with
  | [] => target
  | (name, value) :: rest => setFields rest (setField name value target)
termination_by sizeOf incoming

end

/-! ## Paths -/

/-- A step into a tree. -/
inductive Step where
  /-- To the entry with a name. -/
  | name (name : String)
  /-- To the element at a position, which is counted from the end if it is negative. -/
  | position (i : Int)
  deriving DecidableEq, Repr

/-- The elements of a list; none of anything else. -/
def elements : SettingTree → List SettingTree
  | .list elements => elements
  | _ => []

/-- Change the element at a position. A list that is too short is filled up with `null`; a position
before the first element changes nothing. -/
def setElement (i : Int) (change : SettingTree → SettingTree) (l : List SettingTree) :
    List SettingTree :=
  let i : Int := if i < 0 then l.length + i else i
  if i < 0 then l
  else
    let long := l ++ List.replicate (i.toNat + 1 - l.length) .null
    long.modify i.toNat change

/-- Lay a value over what stands at the end of a path. What stands on the way and is no table or
list, as the path has it, becomes one. -/
def setPath : List Step → SettingTree → SettingTree → SettingTree
  | [], value, _ => value
  | [.name name], value, root => setField name value root
  | .name name :: rest, value, root =>
    let child := (lookUp name root.entries).getD .null
    .table (put name (setPath rest value child) root.entries)
  | .position i :: rest, value, root => .list (setElement i (setPath rest value) root.elements)

/-- Characters of the names in a key. -/
def isNameChar (c : Char) : Bool := c.isAlphanum || c == ' ' || c == '_' || c == '-'

/-- The name at the front of a key. -/
def nameStep? (key : List Char) : Option (Step × List Char) :=
  let name := key.takeWhile isNameChar
  if name.isEmpty then none
  else some (.name (String.ofList name), key.dropWhile isNameChar)

/-- The position in front of a closing bracket, a whole number with blanks around it. -/
def positionStep? (key : List Char) : Option (Step × List Char) := do
  let isBlank (c : Char) : Bool := c == ' ' || c == '\t'
  let key := key.dropWhile isBlank
  let (negative, key) := match key with
    | '-' :: rest => (true, rest)
    | rest => (false, rest)
  let digits := key.takeWhile Char.isDigit
  guard !digits.isEmpty
  let n : Nat := digits.foldl (fun n c => n * 10 + (c.toNat - 48)) 0
  let i : Int := if negative then -n else n
  guard (fitsInt64 i)
  match (key.dropWhile Char.isDigit).dropWhile isBlank with
  | ']' :: rest => return (.position i, rest)
  | _ => none

/-- The steps behind the first name of a key: names with dots in front and positions in brackets.
The first argument bounds their number. -/
def laterSteps? : Nat → List Char → Option (List Step)
  | _, [] => some []
  | 0, _ => none
  | fuel + 1, c :: rest => do
    let (step, rest) ←
      if c == '.' then nameStep? rest else if c == '[' then positionStep? rest else none
    return step :: (← laterSteps? fuel rest)

/-- The path that a key spells. A key that is not names and positions is one name. -/
def keyPath (key : String) : List Step :=
  let steps : Option (List Step) := do
    let (first, rest) ← nameStep? key.toList
    return first :: (← laterSteps? rest.length rest)
  steps.getD [.name key]

/-- Lay the entries of a source over a tree, each at the path that its key spells. -/
def overlay (source : List (String × SettingTree)) (root : SettingTree) : SettingTree :=
  source.foldl (fun tree e => setPath (keyPath e.1) e.2 tree) root

/-! ## Conversions -/

/-- Words for true. -/
def trueWords : List String := ["true", "on", "yes"]

/-- Words for false. -/
def falseWords : List String := ["false", "off", "no"]

/-- A text with the lower case of every ASCII letter, and of the Kelvin sign, which is the only other
character whose lower case is an ASCII letter. That is enough to find a text spelled in ASCII. -/
def lower (s : String) : String :=
  String.ofList (s.toList.map fun c => if c == '\u212A' then 'k' else c.toLower)

/-- A truth value: a word or digit in any case, or a number, of which only zero is false. -/
def toBool? : SettingTree → Option Bool
  | .bool b => some b
  | .int i => some (i != 0)
  | .float x => some (x != 0)
  | .text s =>
    if "1" :: trueWords |>.contains (lower s) then some true
    else if "0" :: falseWords |>.contains (lower s) then some false
    else none
  | _ => none

/-- The number with these decimal digits. -/
def decimal? (digits : List Char) : Option Nat :=
  if !digits.isEmpty && digits.all Char.isDigit then
    some (digits.foldl (fun n c => n * 10 + (c.toNat - 48)) 0)
  else none

/-- A 64-bit number: whole and not negative, in decimal digits behind an optional plus sign, a
word for 1 or 0, a truth value, or a fraction, which is rounded and brought into range. -/
def toUInt64? : SettingTree → Option UInt64
  | .bool b => some (if b then 1 else 0)
  | .int i => if 0 ≤ i ∧ i.toNat ≤ maxUInt64 then some (UInt64.ofNat i.toNat) else none
  | .float x => some x.round.toUInt64
  | .text s =>
    if trueWords.contains (lower s) then some 1
    else if falseWords.contains (lower s) then some 0
    else
      let digits := match s.toList with
        | '+' :: rest => rest
        | all => all
      match decimal? digits with
      | some n => if n ≤ maxUInt64 then some (UInt64.ofNat n) else none
      | none => none
  | _ => none

/-- A text, or the text of a number or truth value. -/
def toText? : SettingTree → Option String
  | .bool b => some (if b then "true" else "false")
  | .int i => some (toString i)
  | .float x => some (Decimal.text x)
  | .text s => some s
  | _ => none

end SettingTree

end Depot
