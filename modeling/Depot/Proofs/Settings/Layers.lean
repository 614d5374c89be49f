import Depot.Proofs.Settings.Distinct
import Depot.Proofs.Settings.Leaf
/-!
# Layers of settings

A layer is a tree of groups that names neither a group nor a setting in it twice. Such are the tree
of a settings file that holds groups (`Layer.of_distinct`) and the tree of the defaults
(`layer_default`), and a layer stays one when another is laid over it (`Layer.exists_overlay`) or
variables of the environment are (`Layer.exists_overlay_environment`).

What comes of that is told leaf by leaf: a variable takes the place of what stands at its leaf, and
a value of another layer is merged into what stands at its leaf. No other leaf takes part.
-/

namespace Depot

namespace Settings

open SettingTree

/-! ## Layers -/

/-- Groups of settings, none of which is named twice, with no setting named twice in a group. -/
structure Layer (entries : List (String × SettingTree)) : Prop where
  groups : Groups entries
  nodup : (entries.map (·.1)).Nodup
  inner : ∀ e ∈ entries, (e.2.entries.map (·.1)).Nodup

namespace Layer

variable {entries source before : List (String × SettingTree)}

theorem nil : Layer [] := ⟨nofun, List.nodup_nil, nofun⟩

theorem of_distinct (hgroups : Groups entries) (h : (SettingTree.table entries).Distinct) :
    Layer entries := by
  cases h with
  | table nodup values =>
    refine ⟨hgroups, nodup, fun e he => ?_⟩
    obtain ⟨-, inner, hinner⟩ := hgroups e he
    have hdistinct := values e he
    rw [hinner] at hdistinct ⊢
    cases hdistinct with
    | table nodup values => exact nodup

theorem putGroup (h : Layer entries) (l : Leaf) {inner : List (String × SettingTree)}
    (hinner : (inner.map (·.1)).Nodup) : Layer (put l.group (.table inner) entries) where
  groups e he := by
    rcases mem_put he with rfl | he
    · exact ⟨⟨l, rfl⟩, inner, rfl⟩
    · exact h.groups e he
  nodup := nodup_put h.nodup
  inner e he := by
    rcases mem_put he with rfl | he
    · exact hinner
    · exact h.inner e he

/-- What stands under a name, if anything, is a table. -/
theorem table_of_lookUp (h : Layer entries) {name : String} {t : SettingTree}
    (ht : lookUp name entries = some t) :
    ∃ inner, t = .table inner ∧ (inner.map (·.1)).Nodup := by
  have hmem := mem_of_lookUp ht
  obtain ⟨-, inner, rfl⟩ := h.groups _ hmem
  exact ⟨inner, rfl, h.inner _ hmem⟩

/-- A table that is merged into a group, or set where there is none, makes a table. -/
theorem exists_merged (h : Layer entries) (incoming : List (String × SettingTree))
    (name : String) : ∃ inner, merged (.table incoming) (lookUp name entries) = .table inner ∧
      (inner.map (·.1)).Nodup := by
  obtain ⟨old, hold, hnodup⟩ : ∃ old, (lookUp name entries).getD (.table []) = .table old ∧
      (old.map (·.1)).Nodup := by
    cases ht : lookUp name entries with
    | none => exact ⟨[], rfl, List.nodup_nil⟩
    | some t => exact h.table_of_lookUp ht
  obtain ⟨inner, hinner, hkept, -⟩ := exists_setFields incoming old
  exact ⟨inner, by rw [merged, hold, hinner], hkept hnodup⟩

/-! ### A layer over a layer -/

theorem overlay_eq_setFields (h : Groups source) (root : SettingTree) :
    overlay source root = setFields source root := by
  induction source generalizing root with
  | nil => simp only [overlay, setFields, List.foldl_nil]
  | cons e rest ih =>
    obtain ⟨⟨l, hl⟩, -⟩ := h e List.mem_cons_self
    have hstep : setPath (keyPath e.1) e.2 root = setField e.1 e.2 root := by
      rw [hl, Leaf.keyPath_group, setPath]
    rw [setFields_cons, ← hstep]
    exact ih (fun e he => h e (List.mem_cons_of_mem _ he)) _

theorem exists_layer_setFields (hsource : Groups source) (hbefore : Layer before) :
    ∃ entries, setFields source (.table before) = .table entries ∧ Layer entries := by
  induction source generalizing before with
  | nil => exact ⟨before, by rw [setFields], hbefore⟩
  | cons e rest ih =>
    obtain ⟨⟨l, hl⟩, inner, hinner⟩ := hsource e List.mem_cons_self
    obtain ⟨entries, hentries, hnodup⟩ := hbefore.exists_merged inner e.1
    have hstep : setField e.1 e.2 (.table before) =
        .table (put l.group (.table entries) before) := by
      rw [setField_eq, hinner, ← hl]
      exact congrArg (fun t => SettingTree.table (put e.1 t before)) hentries
    rw [setFields_cons, hstep]
    exact ih (fun e he => hsource e (List.mem_cons_of_mem _ he)) (hbefore.putGroup l hnodup)

theorem at?_setFields (hsource : Layer source) (before : List (String × SettingTree)) (l : Leaf) :
    at? (setFields source (.table before)).entries l =
      match at? source l with
      | some t => some (merged t (at? before l))
      | none => at? before l := by
  rw [at?, lookUp_setFields hsource.nodup]
  simp only [at?]
  cases hgroup : lookUp l.group source with
  | none => rfl
  | some t =>
    obtain ⟨inner, rfl, hnodup⟩ := hsource.table_of_lookUp hgroup
    have hbefore : lookUp l.name ((lookUp l.group before).getD (.table [])).entries =
        (lookUp l.group before).bind fun t => lookUp l.name t.entries := by
      cases lookUp l.group before <;> rfl
    show lookUp l.name (setFields inner _).entries = _
    rw [lookUp_setFields hnodup]
    exact hbefore ▸ rfl

/-- A layer over another makes a layer, in which every value of the first is merged into what the
second has at its leaf. -/
theorem exists_overlay (hsource : Layer source) (hbefore : Layer before) :
    ∃ entries, overlay source (.table before) = .table entries ∧ Layer entries ∧
      ∀ l, at? entries l =
        match at? source l with
        | some t => some (merged t (at? before l))
        | none => at? before l := by
  obtain ⟨entries, heq, hlayer⟩ := exists_layer_setFields hsource.groups hbefore
  refine ⟨entries, (overlay_eq_setFields hsource.groups _).trans heq, hlayer, fun l => ?_⟩
  rw [← at?_setFields hsource before l, heq]
  rfl

end Layer

/-! ## The environment -/

/-- Each variable for a setting is for one of the leaves. -/
def SetsLeaves (environment : List (String × String)) : Prop :=
  ∀ v ∈ environment, ∀ key, environmentKey? v.1 = some key → ∃ l : Leaf, key = l.key

/-- What the environment gives for a leaf: the value of the last variable with its key. -/
def inEnvironment (environment : List (String × String)) (l : Leaf) : Option SettingTree :=
  (environment.reverse.find? fun v => environmentKey? v.1 = some l.key).map fun v => .text v.2

theorem inEnvironment_cons (v : String × String) (rest : List (String × String)) (l : Leaf) :
    inEnvironment (v :: rest) l = (inEnvironment rest l).or
      (if environmentKey? v.1 = some l.key then some (.text v.2) else none) := by
  simp only [inEnvironment, List.reverse_cons, List.find?_append, Option.map_or,
    List.find?_singleton]
  split <;> simp_all

/-- A variable sets its leaf and leaves the others alone. -/
theorem Layer.exists_setPath {before : List (String × SettingTree)} (hbefore : Layer before)
    (l : Leaf) (value : String) :
    ∃ entries, setPath (keyPath l.key) (.text value) (.table before) = .table entries ∧
      Layer entries ∧
      ∀ l', at? entries l' = if l = l' then some (.text value) else at? before l' := by
  let group := ((lookUp l.group before).getD .null).entries
  have hnodup : (group.map (·.1)).Nodup := by
    simp only [group]
    cases hgroup : lookUp l.group before with
    | none => exact List.nodup_nil
    | some t =>
      obtain ⟨inner, rfl, hnodup⟩ := hbefore.table_of_lookUp hgroup
      exact hnodup
  have hold (l' : Leaf) (hsame : l.group = l'.group) : lookUp l'.name group = at? before l' := by
    simp only [group, at?, hsame]
    cases lookUp l'.group before <;> rfl
  refine ⟨put l.group (.table (put l.name (.text value) group)) before, ?_,
    hbefore.putGroup l (nodup_put hnodup), fun l' => ?_⟩
  · rw [Leaf.keyPath_key, setPath, setPath, setField_eq]
    · rfl
    · intro h
      cases h
  · rw [at?, lookUp_put]
    by_cases hgroup : l.group = l'.group
    · rw [if_pos hgroup, Option.bind_some, SettingTree.entries, lookUp_put, hold l' hgroup]
      exact if_congr ⟨Leaf.eq_of_place hgroup, fun h => h ▸ rfl⟩ rfl rfl
    · rw [if_neg hgroup, if_neg (mt (congrArg Leaf.group) hgroup), at?]

/-- The environment over a layer: what it gives comes first. -/
theorem Layer.exists_overlay_environment {before : List (String × SettingTree)}
    (hbefore : Layer before) {environment : List (String × String)}
    (hkeys : SetsLeaves environment) :
    ∃ entries, overlay (ofEnvironment environment) (.table before) = .table entries ∧
      Layer entries ∧ ∀ l, at? entries l = (inEnvironment environment l).or (at? before l) := by
  induction environment generalizing before with
  | nil => exact ⟨before, rfl, hbefore, fun _ => rfl⟩
  | cons v rest ih =>
    have hrest : SetsLeaves rest := fun w hw => hkeys w (List.mem_cons_of_mem v hw)
    cases hkey : environmentKey? v.1 with
    | none =>
      obtain ⟨entries, hoverlay, hlayer, hat⟩ := ih hbefore hrest
      refine ⟨entries, ?_, hlayer, fun l => ?_⟩
      · rw [← hoverlay]
        simp [ofEnvironment, hkey]
      · simp [hat, inEnvironment_cons, hkey]
    | some key =>
      obtain ⟨l, rfl⟩ := hkeys v List.mem_cons_self key hkey
      obtain ⟨set, hset, hlayer, hat⟩ := hbefore.exists_setPath l v.2
      obtain ⟨entries, hoverlay, hlayer, hat'⟩ := ih hlayer hrest
      refine ⟨entries, ?_, hlayer, fun l' => ?_⟩
      · rw [← hoverlay, ← hset]
        simp [ofEnvironment, hkey, overlay]
      · have hsame : some l.key = some l'.key ↔ l = l' :=
          ⟨fun h => Leaf.key_injective (Option.some.inj h), fun h => h ▸ rfl⟩
        simp only [hat', hat, inEnvironment_cons, hkey, hsame, Option.or_assoc]
        split <;> rfl

/-! ## The defaults -/

theorem layer_default : Layer defaultTree.entries where
  groups e he := by
    simp only [defaultTree, SettingTree.entries, List.mem_cons, List.not_mem_nil, or_false] at he
    rcases he with rfl | rfl | rfl
    · exact ⟨⟨.path, rfl⟩, _, rfl⟩
    · exact ⟨⟨.syncOnCommit, rfl⟩, _, rfl⟩
    · exact ⟨⟨.level, rfl⟩, _, rfl⟩
  nodup := by decide +kernel
  inner e he := by
    simp only [defaultTree, SettingTree.entries, List.mem_cons, List.not_mem_nil, or_false] at he
    rcases he with rfl | rfl | rfl <;> decide +kernel

/-- There is a default at each leaf, which its field takes. -/
theorem exists_default (l : Leaf) : ∃ t, at? defaultTree.entries l = some t ∧
    l.convert t = some (l.field default) := by
  cases l <;> exact ⟨_, rfl, rfl⟩

end Settings

end Depot
