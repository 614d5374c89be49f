import Depot.Settings.DateTime
import Depot.Settings.Toml.Number
/-!
# Values in TOML

A value keeps more than the tree it stands for: whether a table was written in braces or made by
dotted names, since only the latter takes further names, and how a date is spelled, since whether
there is such a date is asked last. `Value.toTree?` asks it, and that no name occurs twice.
-/

namespace Depot.Toml

/-- A value as it is written. -/
inductive Value where
  /-- A string, a number or a truth value. -/
  | leaf (tree : SettingTree)
  /-- A date, a time or both. -/
  | date (spelling : List Char)
  | array (elements : List Value)
  /-- A table in braces. -/
  | inline (entries : List (String × Value))
  /-- A table made by the first names of dotted ones. -/
  | dotted (entries : List (String × Value))

/-! ## Trees -/

/-- The name that, as the first of a table, makes the whole table a date, spelled by its value. -/
def dateMark : String := "$__toml_private_datetime"

/-- The tree of a date. -/
def dateTree? (spelling : List Char) : Option SettingTree :=
  (DateTime.ofText? spelling).map fun d => .text d.text

/-- The tree of a table that is a date by its mark; the mark stands in front of a string only. -/
def Value.markedDate? : Value → Option SettingTree
  | .leaf (.text s) => dateTree? s.toList
  | _ => none

/-- Whether a table is a date by its mark. -/
def isMarked : List (String × Value) → Bool
  | (name, _) :: _ => name == dateMark
  | [] => false

mutual

/-- The tree that a value stands for. -/
def Value.toTree? (v : Value) : Option SettingTree :=
  match v with
  | .leaf tree => some tree
  | .date spelling => dateTree? spelling
  | .array elements => (toTrees? elements).map .list
  | .inline entries | .dotted entries =>
    if isMarked entries then entries.head?.bind fun e => e.2.markedDate?
    else (entryTrees? [] entries).map .table
termination_by sizeOf v

/-- The trees of the elements of an array. -/
def toTrees? (elements : List Value) : Option (List SettingTree) :=
  match elements with
  | [] => some []
  | x :: rest => do return (← x.toTree?) :: (← toTrees? rest)
termination_by sizeOf elements

/-- The trees of entries, put behind those before them; no name may occur twice. -/
def entryTrees? (before : List (String × SettingTree)) (entries : List (String × Value)) :
    Option (List (String × SettingTree)) :=
  match entries with
  | [] => some before
  | (name, x) :: rest =>
    match SettingTree.lookUp name before with
    | some _ => none
    | none => do entryTrees? (SettingTree.put name (← x.toTree?) before) rest
termination_by sizeOf entries

end

/-- Add an entry to a table. Every name of a dotted key but the last one is a table that dotted keys
alone have made. -/
def addEntry : List String → Value → List (String × Value) → Option (List (String × Value))
  | [], _, _ => none
  | [name], x, entries => some (entries ++ [(name, x)])
  | name :: rest, x, entries =>
    match entries.findIdx? fun e => e.1 == name with
    | none => do return entries ++ [(name, .dotted (← addEntry rest x []))]
    | some i =>
      match entries[i]? with
      | some (_, .dotted inner) => do return entries.set i (name, .dotted (← addEntry rest x inner))
      | _ => none

/-! ## Dates and times

The spelling of a date runs as far as its marks allow; what it spells is seen later.
-/

/-- Whether a word that starts like a number starts a date: it holds the mark of a time, or a hyphen
that is neither a sign in front nor that of an exponent. -/
def startsDate (word : List Char) : Bool :=
  let pairs := word.zip (word.drop 1)
  word.contains 'T' || word.contains 't' ||
    ((word.drop 1).contains '-' && !(pairs.contains ('e', '-') || pairs.contains ('E', '-')))

/-- Leave out a mark and the word behind it, if the mark is there. -/
def skipMarked? (mark : Char) (rest : List Char) : Option (List Char) :=
  if rest.head? = some mark then (parseBare? (rest.drop 1)).map (·.2) else some rest

/-- Leave out a blank and the hour behind it. -/
def skipHour (rest : List Char) : List Char :=
  match rest with
  | ' ' :: hour => ((parseBare? hour).map (·.2)).getD rest
  | rest => rest

/-- Leave out minutes, seconds, a fraction and an offset, behind the colon of the hour. -/
def skipClock? (rest : List Char) : Option (List Char) := do
  let (_, rest) ← parseBare? rest
  guard (rest.head? = some ':')
  let rest ← skipMarked? ':' rest
  let rest ← skipMarked? '.' rest
  let rest ← skipMarked? '+' rest
  skipMarked? ':' rest

/-- The date at the front of the input, whose first word leaves `rest`; `inClock` tells that the word
is the hour of a time alone. -/
def date? (input rest : List Char) (inClock : Bool) : Option (Value × List Char) := do
  let rest := skipHour (if inClock then rest.drop 1 else rest)
  let rest ←
    if inClock then skipClock? rest
    else if rest.head? = some ':' then skipClock? (rest.drop 1)
    else some rest
  return (.date (input.take (input.length - rest.length)), rest)

/-! ## Reading -/

/-- A number, a date or a truth value. -/
def parseWord? (input : List Char) : Option (Value × List Char) := do
  if input.head? = some '+' then
    let (word, rest) ← parseBare? (input.drop 1)
    return (← number? word rest).map .leaf id
  let (word, rest) ← parseBare? input
  if word = "true".toList then return (.leaf (.bool true), rest)
  if word = "false".toList then return (.leaf (.bool false), rest)
  guard (word = "inf".toList || word = "nan".toList ||
    word.head?.any fun c => c == '-' || c.isDigit)
  if startsDate word then date? input rest false
  else if rest.head? = some ':' then date? input rest true
  else return (← number? word rest).map .leaf id

mutual

/-- A value and what follows it. The first argument bounds the number of steps. -/
def parseValue : Nat → List Char → Option (Value × List Char)
  | 0, _ => none
  | fuel + 1, input =>
    match input with
    | [] => none
    | c :: rest =>
      if c == '"' || c == '\'' then (parseString? input).map fun (s, r) => (.leaf (.text s), r)
      else if c == '[' then (parseElements fuel rest).map fun (l, r) => (.array l, r)
      else if c == '\x7b' then
        match skipSpaces rest with
        | '\x7d' :: rest => some (.inline [], rest)
        | rest => (parseInline fuel [] rest).map fun (l, r) => (.inline l, r)
      else parseWord? input

/-- The elements of an array and its closing bracket; a comma may stand behind the last one. -/
def parseElements : Nat → List Char → Option (List Value × List Char)
  | 0, _ => none
  | fuel + 1, input => do
    match skipLines (input.length + 1) input with
    | ']' :: rest => return ([], rest)
    | input =>
      let (x, rest) ← parseValue fuel input
      match skipLines (rest.length + 1) rest with
      | ',' :: rest =>
        let (xs, rest) ← parseElements fuel rest
        return (x :: xs, rest)
      | ']' :: rest => return ([x], rest)
      | _ => none

/-- The entries of a table in braces and its closing brace, added to those before them. -/
def parseInline : Nat → List (String × Value) → List Char →
    Option (List (String × Value) × List Char)
  | 0, _, _ => none
  | fuel + 1, before, input => do
    let (path, rest) ← parseKey (input.length + 1) input
    match rest with
    | '=' :: rest =>
      let (x, rest) ← parseValue fuel (skipSpaces rest)
      let entries ← addEntry path x before
      match skipSpaces rest with
      | ',' :: rest => parseInline fuel entries rest
      | '\x7d' :: rest => return (entries, rest)
      | _ => none
    | _ => none

end

end Depot.Toml
