import Depot.Settings.Toml.Section
/-!
# Settings in TOML

A settings file may be a TOML document. Its tree is put together table by table: the entries of a
table are those of the section that names it, wherever that stands, and one entry for each name that
follows its path in the headers of other sections. A table is named by one section at most, and a
name is given a value once, by an entry or by headers.

A path with `[[` `]]` names the elements of an array, in order; what is named below it belongs to the
element that stands last in front of it.
-/

namespace Depot.Toml

/-- A table that is being put together. -/
structure Cursor where
  /-- The entries that are still to be read of the section that names the table. -/
  entries : List (String × Value)
  /-- The length of the path of the table. -/
  depth : Nat
  /-- The shortest section below the path so far. -/
  owner : Nat
  /-- The section from which on sections are looked for. -/
  next : Nat
  /-- The section in front of which all sections of the table stand. -/
  limit : Nat

/-- The next section of a table, or below it, that has not been read. -/
def Cursor.nextSection? (c : Cursor) (sections : List Section) (seen : List Nat) : Option Nat := do
  let owner ← sections[c.owner]?
  let path := owner.path.take c.depth
  (List.range c.limit).find? fun i =>
    c.next ≤ i && !seen.contains i && sections[i]?.any fun s => path.isPrefixOf s.path

/-- The section of the next element of the same array; the limit if there is none. -/
def nextElement (sections : List Section) (path : List String) (i limit : Nat) : Nat :=
  let isNext (j : Nat) : Bool :=
    i < j && sections[j]?.any fun s => s.isElement && s.path == path
  ((List.range limit).find? isNext).getD limit

mutual

/-- The rest of a table behind the entries that have been read before, and the sections that have
been read by then. The second argument bounds the number of steps. -/
def readTable (sections : List Section) : Nat → List Nat → Cursor → List (String × SettingTree) →
    Option (SettingTree × List Nat)
  | 0, _, _, _ => none
  | fuel + 1, seen, c, before =>
    match c.entries with
    | (name, x) :: rest =>
      if before.isEmpty && name == dateMark then x.markedDate?.map fun t => (t, seen)
      else do
        guard (SettingTree.lookUp name before).isNone
        let entries := SettingTree.put name (← x.toTree?) before
        readTable sections fuel seen { c with entries := rest } entries
    | [] =>
      match c.nextSection? sections seen with
      | none => some (.table before, seen)
      | some i => do
        let s ← sections[i]?
        let owner ← sections[c.owner]?
        guard (i = c.owner || s.path ≠ owner.path)
        let owner := if s.path.length < owner.path.length then i else c.owner
        match s.path[c.depth]? with
        | some name =>
          guard ((SettingTree.lookUp name before).isNone && !(before.isEmpty && name == dateMark))
          let (t, seen) ←
            if s.isElement && c.depth + 1 = s.path.length then
              readElements sections fuel seen c.depth i c.limit
            else readTable sections fuel seen ⟨[], c.depth + 1, i, 0, c.limit⟩ []
          readTable sections fuel seen { c with owner := owner, next := i + 1 }
            (SettingTree.put name t before)
        | none =>
          guard (!s.isElement)
          readTable sections fuel (i :: seen)
            { c with entries := s.entries, owner := owner, next := i } before

/-- The array of the elements that start with section `i`, and the sections that have been read by
then. -/
def readElements (sections : List Section) : Nat → List Nat → Nat → Nat → Nat →
    Option (SettingTree × List Nat)
  | 0, _, _, _, _ => none
  | fuel + 1, seen, depth, i, limit =>
    if i = limit then some (.list [], seen)
    else do
      let s ← sections[i]?
      let next := nextElement sections s.path i limit
      let (x, seen) ← readTable sections fuel (i :: seen) ⟨s.entries, depth + 1, i, 0, next⟩ []
      let (l, seen) ← readElements sections fuel seen depth next limit
      return (.list (x :: l.elements), seen)

end

/-- The tree that a TOML document spells. -/
def parse? (s : String) : Option SettingTree := do
  let sections ← parseSections? s
  let (t, _) ← readTable sections (4 * s.length + 8) [] ⟨[], 0, 0, 0, sections.length⟩ []
  return t

end Depot.Toml
