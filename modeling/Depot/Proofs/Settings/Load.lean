import Depot.Proofs.Settings.Layers
import Depot.Proofs.Steps
import Mathlib
/-!
# Settings are decided leaf by leaf

A setting is what the environment gives for it, or else what the settings file gives, or else its
default. Settings are loaded just if every field takes what is given for it, and then that is what
is in the fields (`Settings.load_leaf_by_leaf`). So a setting that is given neither changes nor
unsets another one, and a value that is overridden does no harm, whatever it is.

The file may be JSON or TOML or there may be none. It may hold any of the groups, with any settings
in them. What the environment has besides settings does not matter.

## How the proof goes

The file and the environment make a layer each, and the three layers are laid over each other. What
stands at a leaf in the end is told by the lemmas on layers (`exists_layers`), and reading a tree of
groups takes each leaf for itself (`ofTree_eq_ok_iff`).

## The side condition

A table in the file is merged into what is there, as deep as it goes, also where a setting is
expected. No field takes a table, so this is an error if the table has an entry. But a table without
entries adds nothing to the default, which stays: it is as if the file did not name the setting
(`setsNothing`, `load_ignores_empty_table`).
-/

namespace Depot

namespace Settings

open SettingTree

/-! ## What decides a leaf -/

/-- The entries of a settings file. Without a file there are none. -/
def fileEntries (file : Option (FileFormat × String)) :
    Except SettingsError (List (String × SettingTree)) :=
  match file with
  | none => .ok []
  | some (format, content) => ofFile format content

/-- A value that sets nothing: there is nothing in it to be laid over what is there. -/
def setsNothing : SettingTree → Bool
  | .table [] => true
  | _ => false

/-- What a file gives for a leaf. -/
def inFile (entries : List (String × SettingTree)) (l : Leaf) : Option SettingTree :=
  (at? entries l).filter fun t => !setsNothing t

/-- What is given for a leaf: by the environment, or else by the file. -/
def given? (entries : List (String × SettingTree)) (environment : List (String × String))
    (l : Leaf) : Option SettingTree :=
  (inEnvironment environment l).or (inFile entries l)

/-- What the field of a leaf makes of what is given for it, and its default if nothing is. -/
def decided? (entries : List (String × SettingTree)) (environment : List (String × String))
    (l : Leaf) : Option l.Field :=
  match given? entries environment l with
  | some t => l.convert t
  | none => some (l.field default)

/-- The file, if there is one, can be read and holds groups of settings, and the environment sets
leaves. -/
structure Sources (file : Option (FileFormat × String)) (environment : List (String × String))
    (entries : List (String × SettingTree)) : Prop where
  reads : fileEntries file = .ok entries
  groups : Groups entries
  keys : SetsLeaves environment

/-- What sets something is taken by a field as if it were laid over nothing. -/
theorem convert_merged (l : Leaf) {t : SettingTree} (ht : setsNothing t = false)
    (before : Option SettingTree) :
    l.convert (merged t before) = l.convert t ∧ setsNothing (merged t before) = false := by
  match t, ht with
  | .table (e :: rest), _ =>
    obtain ⟨e', rest', heq⟩ := exists_merged_cons e rest before
    rw [heq, l.convert_table, l.convert_table]
    exact ⟨rfl, rfl⟩
  | .null, _ | .bool _, _ | .int _, _ | .float _, _ | .text _, _ | .list _, _ => exact ⟨rfl, rfl⟩

/-- A value from a file, laid over nothing and then over the default of its leaf. -/
theorem convert_over_default (l : Leaf) (t d : SettingTree) :
    l.convert (merged (merged t none) (some d)) =
      if setsNothing t then l.convert d else l.convert t := by
  cases ht : setsNothing t with
  | true =>
    obtain rfl : t = .table [] := by
      match t, ht with
      | .table [], _ => rfl
    rw [merged_table_nil, Option.getD_none, merged_table_nil, Option.getD_some]
    rfl
  | false =>
    obtain ⟨hfirst, hfirstSets⟩ := convert_merged l ht none
    obtain ⟨hall, -⟩ := convert_merged l hfirstSets (some d)
    rw [hall, hfirst]
    rfl

/-! ## The layers of settings -/

theorem ofFile_eq_ok {format : FileFormat} {content : String}
    {entries : List (String × SettingTree)} (h : ofFile format content = .ok entries) :
    ∃ t, (Json.parse? content = some t ∨ Toml.parse? content = some t) ∧ entries = t.entries := by
  cases format with
  | json =>
    cases hparse : Json.parse? content with
    | none => simp only [ofFile, hparse, reduceCtorEq] at h
    | some t =>
      simp only [ofFile, hparse, Except.ok.injEq] at h
      exact ⟨t, .inl rfl, h.symm⟩
  | toml =>
    cases hparse : Toml.parse? content with
    | none => simp only [ofFile, hparse, reduceCtorEq] at h
    | some t =>
      simp only [ofFile, hparse, Except.ok.injEq] at h
      exact ⟨t, .inr rfl, h.symm⟩

theorem distinct_of_fileEntries {file : Option (FileFormat × String)}
    {entries : List (String × SettingTree)} (h : fileEntries file = .ok entries) :
    (SettingTree.table entries).Distinct := by
  match file with
  | none =>
    cases h
    exact .table_nil
  | some (format, content) =>
    obtain ⟨t, hparse, rfl⟩ := ofFile_eq_ok h
    exact (hparse.elim Json.distinct_of_parse? Toml.distinct_of_parse?).table_entries

/-- Of the three layers laid over each other the fields take what decides their leaves. -/
theorem exists_layers {entries : List (String × SettingTree)} (hlayer : Layer entries)
    {environment : List (String × String)} (hkeys : SetsLeaves environment) :
    ∃ all, overlay (overlay (ofEnvironment environment)
        (overlay entries (.table []))).entries defaultTree = .table all ∧ Groups all ∧
      ∀ l, ∃ t, at? all l = some t ∧ l.convert t = decided? entries environment l := by
  obtain ⟨first, hfirst, hfirstLayer, hatFirst⟩ := hlayer.exists_overlay .nil
  obtain ⟨given, hgiven, hgivenLayer, hatGiven⟩ := hfirstLayer.exists_overlay_environment hkeys
  obtain ⟨all, hall, hallLayer, hatAll⟩ := hgivenLayer.exists_overlay layer_default
  refine ⟨all, by rw [hfirst, hgiven]; exact hall, hallLayer.groups, fun l => ?_⟩
  obtain ⟨d, hd, hdefault⟩ := exists_default l
  rw [hatAll, hatGiven, hatFirst, hd, decided?]
  cases henvironment : inEnvironment environment l with
  | some t =>
    obtain ⟨v, -, rfl⟩ := Option.map_eq_some_iff.mp henvironment
    rw [given?, henvironment]
    exact ⟨_, rfl, rfl⟩
  | none =>
    rw [given?, henvironment, Option.none_or, inFile]
    cases at? entries l with
    | none => exact ⟨d, rfl, hdefault⟩
    | some t =>
      refine ⟨merged (merged t none) (some d), rfl, ?_⟩
      rw [convert_over_default, hdefault, Option.filter_some]
      cases setsNothing t <;> rfl

/-! ## Loading -/

section Load

variable {file : Option (FileFormat × String)} {environment : List (String × String)}
  {entries : List (String × SettingTree)}

/-- A file that can be read is laid under the environment, and both over the defaults. -/
theorem load_eq (hreads : fileEntries file = .ok entries) :
    load file environment = ofTree (overlay (overlay (ofEnvironment environment)
      (overlay entries (.table []))).entries defaultTree) := by
  match file with
  | none =>
    cases hreads
    rfl
  | some (format, content) => exact bind_ok hreads rfl

theorem load_eq_ok_iff (h : Sources file environment entries) {s : Settings} :
    load file environment = .ok s ↔
      ∀ l : Leaf, decided? entries environment l = some (l.field s) := by
  obtain ⟨all, hall, hgroups, hat⟩ :=
    exists_layers (.of_distinct h.groups (distinct_of_fileEntries h.reads)) h.keys
  choose value hvalue hconvert using hat
  rw [load_eq h.reads, hall, ofTree_eq_ok_iff hgroups hvalue]
  simp only [hconvert]

theorem isOk_load_iff (h : Sources file environment entries) :
    (∃ s, load file environment = .ok s) ↔ ∀ l, (decided? entries environment l).isSome := by
  simp only [load_eq_ok_iff h]
  constructor
  · rintro ⟨s, hs⟩ l
    rw [hs l]
    rfl
  · intro hdecided
    obtain ⟨s, hs⟩ := Leaf.exists_settings fun l =>
      (decided? entries environment l).get (hdecided l)
    exact ⟨s, fun l => by rw [hs l, Option.some_get]⟩

/-! ### One more variable -/

variable {v : String × String} {l : Leaf}

theorem Sources.append (h : Sources file environment entries)
    (hkey : environmentKey? v.1 = some l.key) :
    Sources file (environment ++ [v]) entries where
  reads := h.reads
  groups := h.groups
  keys w hw key hw' := by
    rcases List.mem_append.mp hw with hw | hw
    · exact h.keys w hw key hw'
    · obtain rfl := List.mem_singleton.mp hw
      exact ⟨l, Option.some.inj (hw'.symm.trans hkey)⟩

theorem given?_append (hkey : environmentKey? v.1 = some l.key) (l' : Leaf) :
    given? entries (environment ++ [v]) l' =
      if l = l' then some (.text v.2) else given? entries environment l' := by
  have hsame : environmentKey? v.1 = some l'.key ↔ l = l' := by
    rw [hkey]
    exact ⟨fun h => Leaf.key_injective (Option.some.inj h), fun h => h ▸ rfl⟩
  simp only [given?, inEnvironment, List.reverse_append, List.reverse_singleton,
    List.singleton_append, List.find?_cons, hsame]
  by_cases h : l = l'
  · simp [h]
  · simp [h]

theorem decided?_append_self (hkey : environmentKey? v.1 = some l.key) :
    decided? entries (environment ++ [v]) l = l.convert (.text v.2) := by
  rw [decided?, given?_append hkey, if_pos rfl]

theorem decided?_append_of_ne (hkey : environmentKey? v.1 = some l.key) {l' : Leaf}
    (hne : l' ≠ l) :
    decided? entries (environment ++ [v]) l' = decided? entries environment l' := by
  rw [decided?, given?_append hkey, if_neg hne.symm, decided?]

/-- One more variable gives the field of its leaf its value and leaves the other fields alone. -/
theorem exists_load_append (h : Sources file environment entries)
    (hkey : environmentKey? v.1 = some l.key) {x : l.Field} (hx : l.convert (.text v.2) = some x)
    {s : Settings} (hs : load file environment = .ok s) :
    ∃ s', load file (environment ++ [v]) = .ok s' ∧ l.field s' = x ∧
      ∀ l' ≠ l, l'.field s' = l'.field s := by
  have hbefore := (load_eq_ok_iff h).mp hs
  obtain ⟨s', hs'⟩ := (isOk_load_iff (h.append hkey)).mpr fun l' => by
    by_cases hl : l' = l
    · subst hl
      rw [decided?_append_self hkey, hx]
      rfl
    · rw [decided?_append_of_ne hkey hl, hbefore l']
      rfl
  have hafter := (load_eq_ok_iff (h.append hkey)).mp hs'
  refine ⟨s', hs', ?_, fun l' hne => ?_⟩
  · have hself := hafter l
    rw [decided?_append_self hkey, hx] at hself
    exact (Option.some.inj hself).symm
  · have hother := hafter l'
    rw [decided?_append_of_ne hkey hne, hbefore l'] at hother
    exact (Option.some.inj hother).symm

/-! ### Leaf by leaf -/

/-- Settings are loaded from a file and an environment leaf by leaf: they are there just if every
field takes what is given for it, one more variable changes one field, a field depends on what is
given for it alone, and of a file only what is not overridden counts. -/
theorem load_leaf_by_leaf (h : Sources file environment entries) :
    (∀ s, load file environment = .ok s ↔
      ∀ l : Leaf, decided? entries environment l = some (l.field s)) ∧
    ((∃ s, load file environment = .ok s) ↔
      ∀ l, (decided? entries environment l).isSome) ∧
    (∀ v (l : Leaf) x s, environmentKey? v.1 = some l.key → l.convert (.text v.2) = some x →
      load file environment = .ok s → ∃ s', load file (environment ++ [v]) = .ok s' ∧
        l.field s' = x ∧ ∀ l' ≠ l, l'.field s' = l'.field s) ∧
    (∀ file' environment' entries', Sources file' environment' entries' → ∀ s s',
      load file environment = .ok s → load file' environment' = .ok s' →
        ∀ l, given? entries environment l = given? entries' environment' l →
          l.field s = l.field s') ∧
    (∀ file' entries', Sources file' environment entries' →
      (∀ l, inEnvironment environment l = none → inFile entries l = inFile entries' l) →
        ∀ s, load file environment = .ok s ↔ load file' environment = .ok s) := by
  refine ⟨fun s => load_eq_ok_iff h, isOk_load_iff h,
    fun v l x s hkey hx hs => exists_load_append h hkey hx hs, ?_, ?_⟩
  · intro file' environment' entries' h' s s' hs hs' l hgiven
    have hl := (load_eq_ok_iff h).mp hs l
    have hl' := (load_eq_ok_iff h').mp hs' l
    rw [decided?, ← hgiven] at hl'
    exact Option.some.inj (hl.symm.trans hl')
  · intro file' entries' h' hfile s
    have hgiven (l : Leaf) : given? entries environment l = given? entries' environment l := by
      unfold given?
      cases henvironment : inEnvironment environment l with
      | some t => rfl
      | none => rw [hfile l henvironment]
    simp only [load_eq_ok_iff h, load_eq_ok_iff h', decided?, hgiven]

end Load

/-- Of the two values in the file one is taken, and the other, which the field would not take, is
overridden. What neither the file nor the environment gives has its default. -/
theorem load_leaf_by_leaf_overridden :
    load (some (.json, "\x7b\"log\":\x7b\"level\":[],\"json\":true\x7d\x7d"))
        [("HOME", "/"), ("Stockpost__Log__Level", "warn"),
          ("STOCKPOST__DATABASE__FLUSH_EVERY_MS", "250")] =
      .ok ⟨⟨"stockpost.db", false, 1073741824, some 250⟩, ⟨true⟩, ⟨"warn", true⟩⟩ := by
  refine ((@load_leaf_by_leaf _ _ [("log", .table [("level", .list []), ("json", .bool true)])]
    ⟨by cbv, ?groups, ?keys⟩).1 _).mpr (Leaf.forall_iff.mpr (by decide +kernel))
  case groups => exact groups_singleton .level _
  case keys =>
    have home : environmentKey? "HOME" = none := by decide +kernel
    have level : environmentKey? "Stockpost__Log__Level" = some Leaf.level.key := by decide +kernel
    have flushEveryMs : environmentKey? "STOCKPOST__DATABASE__FLUSH_EVERY_MS" =
        some Leaf.flushEveryMs.key := by decide +kernel
    simp only [SetsLeaves, List.forall_mem_cons, home, level, flushEveryMs, Option.some.injEq]
    refine ⟨fun _ h => ?_, fun _ h => ⟨_, h.symm⟩, fun _ h => ⟨_, h.symm⟩, fun v hv => ?_⟩
    · cases h
    · cases hv

/-- A table without entries is not taken for a level of logging, but as it adds nothing to the
default, the file that gives it is no error. -/
theorem load_ignores_empty_table :
    Sources (some (.json, "\x7b\"log\":\x7b\"level\":\x7b\x7d\x7d\x7d")) []
        [("log", .table [("level", .table [])])] ∧
      at? [("log", .table [("level", .table [])])] .level = some (.table []) ∧
      Leaf.level.convert (.table []) = none ∧
      load (some (.json, "\x7b\"log\":\x7b\"level\":\x7b\x7d\x7d\x7d")) [] = .ok default := by
  have h : Sources (some (.json, "\x7b\"log\":\x7b\"level\":\x7b\x7d\x7d\x7d")) []
      [("log", .table [("level", .table [])])] := by
    exact ⟨by cbv, groups_singleton .level _, nofun⟩
  exact ⟨h, rfl, rfl, (load_eq_ok_iff h).mpr (Leaf.forall_iff.mpr (by decide +kernel))⟩

end Settings

end Depot
