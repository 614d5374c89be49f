import Depot.Settings.Toml.Value
/-!
# Sections of TOML documents

A document is a list of sections: entries in front of the first header, then a header `[path]` or
`[[path]]` with the entries below it.
-/

namespace Depot.Toml

/-- A header and the entries below it. -/
structure Section where
  /-- The table that the header names; no names in front of the first header. -/
  path : List String
  /-- Whether the table is the next element of an array. -/
  isElement : Bool
  entries : List (String × Value)

/-- A header: its path, whether it has two brackets, and the lines below. -/
def parseHeader? (input : List Char) : Option (List String × Bool × List Char) := do
  let (isElement, body) := match input with
    | '[' :: '[' :: rest => (true, rest)
    | _ => (false, input.drop 1)
  let (path, rest) ← parseKey (body.length + 1) body
  match rest, isElement with
  | ']' :: ']' :: rest, true => return (path, true, ← lineEnd? rest)
  | ']' :: rest, false => return (path, false, ← lineEnd? rest)
  | _, _ => none

/-- The entries in front of the next header, added to those before them. The first argument bounds
their number. -/
def parseEntries : Nat → List (String × Value) → List Char →
    Option (List (String × Value) × List Char)
  | 0, _, _ => none
  | fuel + 1, before, input => do
    match skipLines (input.length + 1) input with
    | [] => return (before, [])
    | '[' :: rest => return (before, '[' :: rest)
    | input =>
      let (path, rest) ← parseKey (input.length + 1) input
      match rest with
      | '=' :: rest =>
        let rest := skipSpaces rest
        let (x, rest) ← parseValue (2 * rest.length + 2) rest
        parseEntries fuel (← addEntry path x before) (← lineEnd? rest)
      | _ => none

/-- The sections from a header on. The first argument bounds their number. -/
def parseHeaders : Nat → List Char → Option (List Section)
  | _, [] => some []
  | 0, _ => none
  | fuel + 1, input => do
    let (path, isElement, rest) ← parseHeader? input
    let (entries, rest) ← parseEntries (rest.length + 1) [] rest
    return ⟨path, isElement, entries⟩ :: (← parseHeaders fuel rest)

/-- The sections of a document, which may start with a byte order mark. Entries in front of the first
header make a section if there are any. -/
def parseSections? (s : String) : Option (List Section) := do
  let input := match s.toList with
    | '\uFEFF' :: rest => rest
    | rest => rest
  let (entries, rest) ← parseEntries (input.length + 1) [] input
  let sections ← parseHeaders (rest.length + 1) rest
  return if entries.isEmpty then sections else ⟨[], false, entries⟩ :: sections

end Depot.Toml
