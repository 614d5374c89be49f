import Depot.Settings.Json
/-!
# Blanks, strings and names in TOML

Each function takes something off the front of the input and returns what follows it.
-/

namespace Depot.Toml

open Bytes (hexValue?)
open Json (scalar?)

/-! ## Blanks -/

/-- Leave out spaces and tabs. -/
def skipSpaces (input : List Char) : List Char :=
  input.dropWhile fun c => c == ' ' || c == '\t'

/-- Whether a character may stand in a comment: no control character but the tab and the last of
ASCII. -/
def isCommentChar (c : Char) : Bool := c == '\t' || 0x20 ≤ c.toNat

/-- Leave out a comment. -/
def skipComment : List Char → List Char
  | '#' :: rest => rest.dropWhile isCommentChar
  | input => input

/-- The end of a line, or of the input. -/
def lineEnd? (input : List Char) : Option (List Char) :=
  match skipComment (skipSpaces input) with
  | [] => some []
  | '\n' :: rest => some rest
  | '\r' :: '\n' :: rest => some rest
  | _ => none

/-- Leave out spaces, comments and line ends. The first argument bounds their number. -/
def skipLines : Nat → List Char → List Char
  | 0, input => input
  | fuel + 1, input =>
    match skipComment (skipSpaces input) with
    | '\n' :: rest => skipLines fuel rest
    | '\r' :: '\n' :: rest => skipLines fuel rest
    | rest => rest

/-! ## Strings -/

/-- The character with the code spelled by `n` hexadecimal digits. -/
def codeEscape? (n : Nat) (input : List Char) : Option (Char × List Char) := do
  let digits ← (input.take n).mapM hexValue?
  guard (digits.length = n)
  return (← scalar? (digits.foldl (fun m k => m * 16 + k) 0), input.drop n)

/-- The character of an escape, its backslash already read. -/
def escape? : List Char → Option (Char × List Char)
  | 'u' :: rest => codeEscape? 4 rest
  | 'U' :: rest => codeEscape? 8 rest
  | '/' :: _ => none
  | c :: rest => (Json.simpleEscape? c).map fun x => (x, rest)
  | [] => none

/-- Whether a character may stand in a string on one line. -/
def isPlain (c : Char) : Bool := c == '\t' || (0x20 ≤ c.toNat && c.toNat ≠ 0x7F)

/-- The rest of a string on one line, up to its closing quote. Escapes count between double quotes
only. The first argument bounds the number of characters. -/
def parseLine (quote : Char) : Nat → List Char → Option (List Char × List Char)
  | 0, _ => none
  | _, [] => none
  | fuel + 1, c :: rest =>
    if c == quote then some ([], rest)
    else if c == '\\' && quote == '"' then do
      let (x, rest) ← escape? rest
      let (s, rest) ← parseLine quote fuel rest
      return (x :: s, rest)
    else if isPlain c then do
      let (s, rest) ← parseLine quote fuel rest
      return (c :: s, rest)
    else none

/-- Leave out spaces, tabs and line ends. -/
def skipWhite : List Char → List Char
  | '\r' :: '\n' :: rest => skipWhite rest
  | c :: rest => if c == ' ' || c == '\t' || c == '\n' then skipWhite rest else c :: rest
  | [] => []

/-- The rest of a string over several lines, up to three closing quotes; up to two more quotes in
front of these belong to the string. A backslash at the end of a line leaves out what is blank up
to the next character. The second argument bounds the number of characters. -/
def parseLines (quote : Char) : Nat → List Char → Option (List Char × List Char)
  | 0, _ => none
  | _, [] => none
  | fuel + 1, c :: rest =>
    if [quote, quote, quote].isPrefixOf (c :: rest) then
      let rest := rest.drop 2
      let more := (rest.takeWhile (· == quote)).take 2
      some (more, rest.drop more.length)
    else if c == '\\' && quote == '"' then
      match skipSpaces rest with
      | '\n' :: rest => parseLines quote fuel (skipWhite rest)
      | '\r' :: '\n' :: rest => parseLines quote fuel (skipWhite rest)
      | _ => do
        let (x, rest) ← escape? rest
        let (s, rest) ← parseLines quote fuel rest
        return (x :: s, rest)
    else if isPlain c || c == '\n' || (c == '\r' && rest.head? == some '\n') then do
      let (s, rest) ← parseLines quote fuel rest
      return (if c == '\r' then s else c :: s, rest)
    else none

/-- A string in any of the four notations. A line end behind three opening quotes does not count. -/
def parseString? (input : List Char) : Option (String × List Char) := do
  let quote ← input.head?
  guard (quote == '"' || quote == '\'')
  let fuel := input.length + 1
  if [quote, quote, quote].isPrefixOf input then
    let body := match input.drop 3 with
      | '\n' :: rest => rest
      | '\r' :: '\n' :: rest => rest
      | rest => rest
    let (s, rest) ← parseLines quote fuel body
    return (String.ofList s, rest)
  else
    let (s, rest) ← parseLine quote fuel (input.drop 1)
    return (String.ofList s, rest)

/-! ## Names -/

/-- Characters of unquoted names. -/
def isBare (c : Char) : Bool := c.isAlphanum || c == '_' || c == '-'

/-- Unquoted characters, at least one. -/
def parseBare? (input : List Char) : Option (List Char × List Char) :=
  if input.head?.any isBare then some (input.takeWhile isBare, input.dropWhile isBare) else none

/-- A name, quoted on one line or unquoted. -/
def parseName? (input : List Char) : Option (String × List Char) := do
  let c ← input.head?
  if c == '"' || c == '\'' then
    let (s, rest) ← parseLine c (input.length + 1) (input.drop 1)
    return (String.ofList s, rest)
  else
    let (s, rest) ← parseBare? input
    return (String.ofList s, rest)

/-- Names with dots between them. The first argument bounds their number. -/
def parseKey : Nat → List Char → Option (List String × List Char)
  | 0, _ => none
  | fuel + 1, input => do
    let (name, rest) ← parseName? (skipSpaces input)
    match skipSpaces rest with
    | '.' :: rest =>
      let (names, rest) ← parseKey fuel rest
      return (name :: names, rest)
    | rest => return ([name], rest)

end Depot.Toml
