import Depot.Settings.Json
import Depot.Settings.Toml.Document
/-!
# Settings

Settings come in three layers: the defaults, a settings file if there is one, and the environment.
The environment is laid over the file and what comes of it over the defaults, leaf by leaf, and
only then the leaves are converted to the types of their fields. So a value that is overridden
does no harm, whatever it is.
-/

namespace Depot

/-- Where the database is and how it is run. -/
structure DatabaseSettings where
  path : String
  temporary : Bool
  cacheCapacity : UInt64
  flushEveryMs : Option UInt64
  deriving DecidableEq, Repr

/-- How postings are committed. -/
structure PostingSettings where
  syncOnCommit : Bool
  deriving DecidableEq, Repr

/-- What is logged and how. -/
structure LogSettings where
  level : String
  json : Bool
  deriving DecidableEq, Repr

/-- The settings of the system. -/
structure Settings where
  database : DatabaseSettings
  posting : PostingSettings
  log : LogSettings
  deriving DecidableEq, Repr

/-- Why settings cannot be read. -/
inductive SettingsError where
  /-- The settings file is not in its format. -/
  | unreadableFile
  /-- The value at a key cannot be converted to the type of its field. -/
  | wrongType (key : String)
  /-- A group of settings is no table, or lacks a setting. -/
  | malformed
  deriving DecidableEq, Repr

/-- Name the place of a wrong type from one level further up. -/
def SettingsError.under (segment : String) : SettingsError → SettingsError
  | .wrongType key =>
    .wrongType (if key.isEmpty || key.front == '[' then segment ++ key else segment ++ "." ++ key)
  | error => error

namespace Settings

/-- The settings that hold where nothing else is said. -/
def default : Settings where
  database := ⟨"stockpost.db", false, 1024 * 1024 * 1024, some 500⟩
  posting := ⟨true⟩
  log := ⟨"info", false⟩

/-! ## Reading a tree -/

/-- The default settings as a tree. -/
def defaultTree : SettingTree :=
  .table
    [("database", .table
      [("path", .text default.database.path),
       ("temporary", .bool default.database.temporary),
       ("cache_capacity", .int default.database.cacheCapacity.toNat),
       ("flush_every_ms", .int 500)]),
     ("posting", .table [("sync_on_commit", .bool default.posting.syncOnCommit)]),
     ("log", .table [("level", .text default.log.level), ("json", .bool default.log.json)])]

/-- Where the settings of a group stand: by name in a table, by position in a list. -/
inductive Group where
  | named (entries : List (String × SettingTree))
  | listed (elements : List SettingTree)

/-- The group that a value holds. -/
def group (t : SettingTree) : Except SettingsError Group :=
  match t with
  | .table entries => .ok (.named entries)
  | .list elements => .ok (.listed elements)
  | _ => .error .malformed

/-- The value of a setting and the name of its place; the name or position tells which. -/
def Group.get? (g : Group) (name : String) (position : Nat) : Option (String × SettingTree) :=
  match g with
  | .named entries => (SettingTree.lookUp name entries).map fun t => (name, t)
  | .listed elements => elements[position]?.map fun t => (s!"[{position}]", t)

/-- A setting, if it is there, converted to the type of its field. -/
def Group.read {α : Type} (g : Group) (name : String) (position : Nat)
    (convert : SettingTree → Option α) : Except SettingsError (Option α) :=
  match g.get? name position with
  | none => .ok none
  | some (place, t) =>
    match convert t with
    | some x => .ok (some x)
    | none => .error (.wrongType place)

/-- A setting that must be there. -/
def required {α : Type} (x : Option α) : Except SettingsError α :=
  match x with
  | some x => .ok x
  | none => .error .malformed

/-- An optional number, absent as `null`. -/
def toOptional? (t : SettingTree) : Option (Option UInt64) :=
  match t with
  | .null => some none
  | t => t.toUInt64?.map some

/-- Whether a setting may be left out of its group. In a list nothing before the end can. -/
def Group.mayLack (g : Group) : Bool := g matches .named _

/-- The settings of the database. -/
def readDatabase (t : SettingTree) : Except SettingsError DatabaseSettings := do
  let g ← group t
  let path ← g.read "path" 0 SettingTree.toText?
  let temporary ← g.read "temporary" 1 SettingTree.toBool?
  let cacheCapacity ← g.read "cache_capacity" 2 SettingTree.toUInt64?
  let flushEveryMs ← g.read "flush_every_ms" 3 toOptional?
  let path ← required path
  let cacheCapacity ← required cacheCapacity
  let flushEveryMs ← if g.mayLack then .ok (flushEveryMs.getD none) else required flushEveryMs
  return ⟨path, temporary.getD false, cacheCapacity, flushEveryMs⟩

/-- The settings of posting. -/
def readPosting (t : SettingTree) : Except SettingsError PostingSettings := do
  let g ← group t
  let syncOnCommit ← g.read "sync_on_commit" 0 SettingTree.toBool?
  return ⟨← required syncOnCommit⟩

/-- The settings of logging. -/
def readLog (t : SettingTree) : Except SettingsError LogSettings := do
  let g ← group t
  let level ← g.read "level" 0 SettingTree.toText?
  let json ← g.read "json" 1 SettingTree.toBool?
  return ⟨← required level, json.getD false⟩

/-- The group of settings with a name. -/
def readGroup {α : Type} (root : SettingTree) (name : String)
    (read : SettingTree → Except SettingsError α) : Except SettingsError α := do
  let t ← required (SettingTree.lookUp name root.entries)
  (read t).mapError (SettingsError.under name)

/-- The settings that a tree holds. -/
def ofTree (root : SettingTree) : Except SettingsError Settings := do
  let database ← readGroup root "database" readDatabase
  let posting ← readGroup root "posting" readPosting
  let log ← readGroup root "log" readLog
  return ⟨database, posting, log⟩

/-! ## Layers -/

/-- The beginning of the names of environment variables that hold settings, in lower case. -/
def environmentStart : String := "stockpost__"

/-- Replace each pair of underscores by a dot, from the left. -/
def dotted : List Char → List Char
  | '_' :: '_' :: rest => '.' :: dotted rest
  | c :: rest => c :: dotted rest
  | [] => []

/-- The key that an environment variable sets, if its name is that of a setting in any case. -/
def environmentKey? (name : String) : Option String :=
  let name := (SettingTree.lower name).toList
  let start := environmentStart.toList
  if start.isPrefixOf name then some (String.ofList (dotted (name.drop start.length))) else none

/-- The environment as a source of settings. -/
def ofEnvironment (environment : List (String × String)) : List (String × SettingTree) :=
  environment.filterMap fun (name, value) =>
    (environmentKey? name).map fun key => (key, .text value)

/-- The formats of settings files. -/
inductive FileFormat where
  | json | toml
  deriving DecidableEq, Repr

/-- The entries of a settings file. A file whose value is no table sets nothing. -/
def ofFile (format : FileFormat) (text : String) :
    Except SettingsError (List (String × SettingTree)) :=
  let root := match format with
    | .json => Json.parse? text
    | .toml => Toml.parse? text
  match root with
  | some tree => .ok tree.entries
  | none => .error .unreadableFile

/-- The settings from a file, if there is one, and the environment. -/
def load (file : Option (FileFormat × String)) (environment : List (String × String)) :
    Except SettingsError Settings := do
  let fileEntries ← match file with
    | none => .ok []
    | some (format, text) => ofFile format text
  let given := SettingTree.overlay (ofEnvironment environment)
    (SettingTree.overlay fileEntries (.table []))
  ofTree (SettingTree.overlay given.entries defaultTree)

/-! ## Comparing settings -/

/-- The parts of a path, which are the same for two spellings of one path: repeated and final
slashes do not count, nor do single dots but for one in front. -/
def pathParts (path : String) : List String :=
  let names := (path.toList.splitOn '/').map String.ofList
  let root := if path.toList.head? = some '/' then ["/"] else []
  let here := if names.head? = some "." then ["."] else []
  root ++ here ++ names.filter fun name => name ≠ "" && name ≠ "."

/-- Whether settings are the default ones. -/
def isDefault (s : Settings) : Bool :=
  pathParts s.database.path == pathParts default.database.path &&
    decide ({ s.database with path := default.database.path } = default.database) &&
    decide (s.posting = default.posting) && decide (s.log = default.log)

end Settings

end Depot
