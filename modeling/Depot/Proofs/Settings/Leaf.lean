import Depot.Proofs.Settings.Merge
import Depot.Settings.Basic
/-!
# The settings one by one

The settings are seven leaves in three groups. A tree that has a table for each of these groups and
a value at each leaf makes settings just if every field takes the value at its leaf, and these are
the values of the fields (`Settings.ofTree_eq_ok_iff`).
-/

namespace Depot

namespace Settings

open SettingTree

/-- A setting that can be given alone. -/
inductive Leaf where
  | path | temporary | cacheCapacity | flushEveryMs
  | syncOnCommit
  | level | json
  deriving DecidableEq

namespace Leaf

/-- The group that a leaf is in. -/
def group : Leaf → String
  | .path | .temporary | .cacheCapacity | .flushEveryMs => "database"
  | .syncOnCommit => "posting"
  | .level | .json => "log"

/-- The name of a leaf in its group. -/
def name : Leaf → String
  | .path => "path"
  | .temporary => "temporary"
  | .cacheCapacity => "cache_capacity"
  | .flushEveryMs => "flush_every_ms"
  | .syncOnCommit => "sync_on_commit"
  | .level => "level"
  | .json => "json"

/-- The key of a leaf. -/
def key (l : Leaf) : String := l.group ++ "." ++ l.name

/-- The type of the field of a leaf. -/
def Field : Leaf → Type
  | .path | .level => String
  | .temporary | .syncOnCommit | .json => Bool
  | .cacheCapacity => UInt64
  | .flushEveryMs => Option UInt64

instance (l : Leaf) : DecidableEq l.Field :=
  match l with
  | .path | .level => inferInstanceAs (DecidableEq String)
  | .temporary | .syncOnCommit | .json => inferInstanceAs (DecidableEq Bool)
  | .cacheCapacity => inferInstanceAs (DecidableEq UInt64)
  | .flushEveryMs => inferInstanceAs (DecidableEq (Option UInt64))

/-- The field of a leaf. -/
def field : (l : Leaf) → Settings → l.Field
  | .path, s => s.database.path
  | .temporary, s => s.database.temporary
  | .cacheCapacity, s => s.database.cacheCapacity
  | .flushEveryMs, s => s.database.flushEveryMs
  | .syncOnCommit, s => s.posting.syncOnCommit
  | .level, s => s.log.level
  | .json, s => s.log.json

/-- What the field of a leaf makes of a value, if it takes it. -/
def convert : (l : Leaf) → SettingTree → Option l.Field
  | .path | .level => toText?
  | .temporary | .syncOnCommit | .json => toBool?
  | .cacheCapacity => toUInt64?
  | .flushEveryMs => toOptional?

theorem forall_iff {P : Leaf → Prop} : (∀ l, P l) ↔
    (P .path ∧ P .temporary ∧ P .cacheCapacity ∧ P .flushEveryMs) ∧ P .syncOnCommit ∧
      P .level ∧ P .json :=
  ⟨fun h => ⟨⟨h _, h _, h _, h _⟩, h _, h _, h _⟩, fun h l => by cases l <;> simp [h]⟩

theorem key_injective {l l' : Leaf} (h : l.key = l'.key) : l = l' := by
  cases l <;> cases l' <;> first | rfl | exact absurd h (by decide +kernel)

theorem eq_of_place {l l' : Leaf} (hgroup : l.group = l'.group) (hname : l.name = l'.name) :
    l = l' := by
  apply key_injective
  rw [key, key, hgroup, hname]

theorem keyPath_group (l : Leaf) : keyPath l.group = [.name l.group] := by
  cases l <;> decide +kernel

theorem keyPath_key (l : Leaf) : keyPath l.key = [.name l.group, .name l.name] := by
  cases l <;> decide +kernel

/-- No field takes a table. -/
theorem convert_table (l : Leaf) (entries : List (String × SettingTree)) :
    l.convert (.table entries) = none := by
  cases l <;> rfl

/-- There are settings with any values in their fields. -/
theorem exists_settings (value : (l : Leaf) → l.Field) : ∃ s, ∀ l : Leaf, l.field s = value l :=
  ⟨⟨⟨value .path, value .temporary, value .cacheCapacity, value .flushEveryMs⟩,
    ⟨value .syncOnCommit⟩, ⟨value .level, value .json⟩⟩, fun l => by cases l <;> rfl⟩

end Leaf

/-! ## Trees of groups -/

/-- The value at a leaf. -/
def at? (entries : List (String × SettingTree)) (l : Leaf) : Option SettingTree :=
  (lookUp l.group entries).bind fun t => lookUp l.name t.entries

/-- The entries are groups of settings, each a table. -/
def Groups (entries : List (String × SettingTree)) : Prop :=
  ∀ e ∈ entries, (∃ l : Leaf, e.1 = l.group) ∧ ∃ inner, e.2 = .table inner

theorem groups_singleton (l : Leaf) (inner : List (String × SettingTree)) :
    Groups [(l.group, .table inner)] :=
  List.forall_mem_singleton.mpr ⟨⟨l, rfl⟩, inner, rfl⟩

/-! ## Reading groups -/

/-- A setting that is there is read if its field takes it. -/
theorem Group.read_bind_eq_ok_iff {entries : List (String × SettingTree)} {name : String}
    {t : SettingTree} (h : lookUp name entries = some t) {position : Nat} {α β : Type}
    {convert : SettingTree → Option α} {next : Option α → Except SettingsError β} {y : β} :
    ((Group.named entries).read name position convert >>= next) = .ok y ↔
      ∃ x, convert t = some x ∧ next (some x) = .ok y := by
  simp only [Group.read, Group.get?, h, Option.map_some]
  cases convert t with
  | none =>
    constructor
    · intro h
      cases h
    · rintro ⟨_, ⟨⟩, -⟩
  | some x =>
    constructor
    · exact fun h => ⟨x, rfl, h⟩
    · rintro ⟨_, ⟨⟩, h⟩
      exact h

section ReadGroups

variable {entries : List (String × SettingTree)} {value : Leaf → SettingTree}

theorem readDatabase_eq_ok_iff (path : lookUp "path" entries = some (value .path))
    (temporary : lookUp "temporary" entries = some (value .temporary))
    (cacheCapacity : lookUp "cache_capacity" entries = some (value .cacheCapacity))
    (flushEveryMs : lookUp "flush_every_ms" entries = some (value .flushEveryMs))
    {d : DatabaseSettings} :
    readDatabase (.table entries) = .ok d ↔
      toText? (value .path) = some d.path ∧ toBool? (value .temporary) = some d.temporary ∧
        toUInt64? (value .cacheCapacity) = some d.cacheCapacity ∧
        toOptional? (value .flushEveryMs) = some d.flushEveryMs := by
  show ((Group.named entries).read "path" 0 SettingTree.toText? >>= _) = .ok d ↔ _
  simp only [Group.read_bind_eq_ok_iff path, Group.read_bind_eq_ok_iff temporary,
    Group.read_bind_eq_ok_iff cacheCapacity, Group.read_bind_eq_ok_iff flushEveryMs, required,
    Group.mayLack]
  constructor
  · rintro ⟨_, hpath, _, htemporary, _, hcacheCapacity, _, hflushEveryMs, ⟨⟩⟩
    exact ⟨hpath, htemporary, hcacheCapacity, hflushEveryMs⟩
  · rintro ⟨hpath, htemporary, hcacheCapacity, hflushEveryMs⟩
    exact ⟨_, hpath, _, htemporary, _, hcacheCapacity, _, hflushEveryMs, rfl⟩

theorem readPosting_eq_ok_iff (syncOnCommit : lookUp "sync_on_commit" entries =
    some (value .syncOnCommit)) {p : PostingSettings} :
    readPosting (.table entries) = .ok p ↔
      toBool? (value .syncOnCommit) = some p.syncOnCommit := by
  show ((Group.named entries).read "sync_on_commit" 0 SettingTree.toBool? >>= _) = .ok p ↔ _
  simp only [Group.read_bind_eq_ok_iff syncOnCommit, required]
  constructor
  · rintro ⟨_, h, ⟨⟩⟩
    exact h
  · exact fun h => ⟨_, h, rfl⟩

theorem readLog_eq_ok_iff (level : lookUp "level" entries = some (value .level))
    (json : lookUp "json" entries = some (value .json)) {g : LogSettings} :
    readLog (.table entries) = .ok g ↔
      toText? (value .level) = some g.level ∧ toBool? (value .json) = some g.json := by
  show ((Group.named entries).read "level" 0 SettingTree.toText? >>= _) = .ok g ↔ _
  simp only [Group.read_bind_eq_ok_iff level, Group.read_bind_eq_ok_iff json, required]
  constructor
  · rintro ⟨_, hlevel, _, hjson, ⟨⟩⟩
    exact ⟨hlevel, hjson⟩
  · rintro ⟨hlevel, hjson⟩
    exact ⟨_, hlevel, _, hjson, rfl⟩

end ReadGroups

/-- A group that is there is read as it is read alone. -/
theorem readGroup_bind_eq_ok_iff {entries : List (String × SettingTree)} {t : SettingTree}
    {name : String} (h : lookUp name entries = some t) {α β : Type}
    {read : SettingTree → Except SettingsError α} {next : α → Except SettingsError β} {y : β} :
    (readGroup (.table entries) name read >>= next) = .ok y ↔
      ∃ x, read t = .ok x ∧ next x = .ok y := by
  have hread : readGroup (.table entries) name read =
      (read t).mapError (SettingsError.under name) := by
    rw [readGroup, SettingTree.entries, h]
    rfl
  rw [hread]
  cases read t with
  | error e =>
    constructor
    · intro h
      cases h
    · rintro ⟨_, ⟨⟩, -⟩
  | ok x =>
    constructor
    · exact fun h => ⟨x, rfl, h⟩
    · rintro ⟨_, ⟨⟩, h⟩
      exact h

/-! ## Reading a tree -/

section OfTree

variable {entries inner : List (String × SettingTree)} {l : Leaf} {t : SettingTree}

theorem exists_group (hgroups : Groups entries) (h : at? entries l = some t) :
    ∃ inner, lookUp l.group entries = some (.table inner) := by
  obtain ⟨g, hg, -⟩ := Option.bind_eq_some_iff.mp h
  obtain ⟨-, inner, rfl⟩ := hgroups _ (mem_of_lookUp hg)
  exact ⟨inner, hg⟩

theorem lookUp_of_at? (hgroup : lookUp l.group entries = some (.table inner))
    (h : at? entries l = some t) : lookUp l.name inner = some t := by
  rw [at?, hgroup] at h
  exact h

/-- Groups with a value at each leaf make settings just if every field takes the one of its leaf. -/
theorem ofTree_eq_ok_iff {value : Leaf → SettingTree} (hgroups : Groups entries)
    (hvalue : ∀ l, at? entries l = some (value l)) {s : Settings} :
    ofTree (.table entries) = .ok s ↔ ∀ l : Leaf, l.convert (value l) = some (l.field s) := by
  obtain ⟨database, hdatabase⟩ : ∃ inner, lookUp "database" entries = some (.table inner) :=
    exists_group hgroups (hvalue .path)
  obtain ⟨posting, hposting⟩ : ∃ inner, lookUp "posting" entries = some (.table inner) :=
    exists_group hgroups (hvalue .syncOnCommit)
  obtain ⟨log, hlog⟩ : ∃ inner, lookUp "log" entries = some (.table inner) :=
    exists_group hgroups (hvalue .level)
  have hat {l : Leaf} {inner : List (String × SettingTree)}
      (hgroup : lookUp l.group entries = some (.table inner)) :
      lookUp l.name inner = some (value l) := lookUp_of_at? hgroup (hvalue l)
  have readsDatabase := readDatabase_eq_ok_iff (d := s.database)
    (hat (l := .path) hdatabase) (hat (l := .temporary) hdatabase)
    (hat (l := .cacheCapacity) hdatabase) (hat (l := .flushEveryMs) hdatabase)
  have readsPosting := readPosting_eq_ok_iff (p := s.posting) (hat (l := .syncOnCommit) hposting)
  have readsLog := readLog_eq_ok_iff (g := s.log)
    (hat (l := .level) hlog) (hat (l := .json) hlog)
  have hiff : ofTree (.table entries) = .ok s ↔ readDatabase (.table database) = .ok s.database ∧
      readPosting (.table posting) = .ok s.posting ∧ readLog (.table log) = .ok s.log := by
    show (readGroup (.table entries) "database" readDatabase >>= _) = .ok s ↔ _
    simp only [readGroup_bind_eq_ok_iff hdatabase, readGroup_bind_eq_ok_iff hposting,
      readGroup_bind_eq_ok_iff hlog]
    constructor
    · rintro ⟨_, hdatabase, _, hposting, _, hlog, ⟨⟩⟩
      exact ⟨hdatabase, hposting, hlog⟩
    · rintro ⟨hdatabase, hposting, hlog⟩
      exact ⟨_, hdatabase, _, hposting, _, hlog, rfl⟩
  rw [hiff, readsDatabase, readsPosting, readsLog, Leaf.forall_iff]
  rfl

end OfTree

end Settings

end Depot
