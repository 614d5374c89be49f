import Depot.Settings.Tree
import Mathlib.Data.List.Nodup
/-!
# Tables laid over each other

What stands under a name after a table was laid over a value: what the table has there, merged into
what stood there before, and what stood there before if the table does not have the name
(`SettingTree.lookUp_setFields`). This needs that the table names nothing twice.
-/

namespace Depot

namespace SettingTree

/-! ## Entries by name -/

theorem mem_of_lookUp {name : String} {value : SettingTree} {l : List (String × SettingTree)}
    (h : lookUp name l = some value) : (name, value) ∈ l := by
  induction l with
  | nil => cases h
  | cons e rest ih =>
    simp only [lookUp] at h
    split at h
    · rename_i hname
      cases h
      exact hname ▸ List.mem_cons_self
    · exact List.mem_cons_of_mem _ (ih h)

theorem lookUp_eq_none_iff {name : String} {l : List (String × SettingTree)} :
    lookUp name l = none ↔ name ∉ l.map (·.1) := by
  induction l with
  | nil => simp [lookUp]
  | cons e rest ih =>
    simp only [lookUp, List.map_cons, List.mem_cons, not_or]
    split
    · rename_i hname
      simp [hname]
    · rename_i hname
      simp [ih, Ne.symm hname]

/-- Setting an entry adds its name behind the others, if it is not among them. -/
theorem names_put (name : String) (value : SettingTree) (l : List (String × SettingTree)) :
    (put name value l).map (·.1) =
      if name ∈ l.map (·.1) then l.map (·.1) else l.map (·.1) ++ [name] := by
  induction l with
  | nil => rfl
  | cons e rest ih =>
    simp only [put]
    split
    · rename_i hname
      simp [hname]
    · rename_i hname
      simp only [List.map_cons, ih, List.mem_cons, Ne.symm hname, false_or]
      split <;> rfl

theorem nodup_put {name : String} {value : SettingTree} {l : List (String × SettingTree)}
    (h : (l.map (·.1)).Nodup) : ((put name value l).map (·.1)).Nodup := by
  rw [names_put]
  split
  · exact h
  · rename_i hname
    exact List.nodup_append.mpr ⟨h, List.nodup_singleton name, by
      rintro a ha b hb rfl
      exact hname (List.mem_singleton.mp hb ▸ ha)⟩

theorem mem_put {name : String} {value : SettingTree} {l : List (String × SettingTree)}
    {e : String × SettingTree} (h : e ∈ put name value l) : e = (name, value) ∨ e ∈ l := by
  induction l with
  | nil => exact .inl (List.mem_singleton.mp h)
  | cons x rest ih =>
    simp only [put] at h
    split at h
    · exact (List.mem_cons.mp h).imp_right (List.mem_cons_of_mem _)
    · rcases List.mem_cons.mp h with rfl | h
      · exact .inr List.mem_cons_self
      · exact (ih h).imp_right (List.mem_cons_of_mem _)

theorem put_ne_nil (name : String) (value : SettingTree) (l : List (String × SettingTree)) :
    put name value l ≠ [] := by
  cases l with
  | nil => exact List.cons_ne_nil _ _
  | cons e rest =>
    simp only [put]
    split <;> exact List.cons_ne_nil _ _

/-! ## Merging -/

/-- What comes of a value that is laid over what stands in its place. -/
def merged (value : SettingTree) (before : Option SettingTree) : SettingTree :=
  match value with
  | .table incoming => setFields incoming (before.getD (.table []))
  | leaf => leaf

/-- A table without entries adds nothing. -/
theorem merged_table_nil (before : Option SettingTree) :
    merged (.table []) before = before.getD (.table []) := by
  rw [merged, setFields]

theorem setField_eq (name : String) (value root : SettingTree) :
    setField name value root =
      .table (put name (merged value (lookUp name root.entries)) root.entries) := by
  cases value <;> simp only [setField, merged]

theorem lookUp_setField (name name' : String) (value root : SettingTree) :
    lookUp name' (setField name value root).entries =
      if name = name' then some (merged value (lookUp name root.entries))
      else lookUp name' root.entries := by
  rw [setField_eq]
  exact lookUp_put ..

theorem setFields_cons (e : String × SettingTree) (rest : List (String × SettingTree))
    (target : SettingTree) :
    setFields (e :: rest) target = setFields rest (setField e.1 e.2 target) := by
  rw [setFields]

/-- What stands under a name after the entries of a table were laid over a value. -/
theorem lookUp_setFields {incoming : List (String × SettingTree)}
    (hnodup : (incoming.map (·.1)).Nodup) (target : SettingTree) (name : String) :
    lookUp name (setFields incoming target).entries =
      match lookUp name incoming with
      | some value => some (merged value (lookUp name target.entries))
      | none => lookUp name target.entries := by
  induction incoming generalizing target with
  | nil => simp only [setFields, lookUp]
  | cons e rest ih =>
    obtain ⟨hnew, hrest⟩ := List.nodup_cons.mp hnodup
    rw [setFields_cons, ih hrest, lookUp_setField]
    simp only [lookUp]
    by_cases hname : e.1 = name
    · have hlater : lookUp name rest = none := lookUp_eq_none_iff.mpr (hname ▸ hnew)
      simp only [hlater, hname, if_true]
    · simp only [hname, if_false]

/-- What is laid over a table makes a table, which names nothing twice if that table did not, and
keeps what there was. -/
theorem exists_setFields (incoming before : List (String × SettingTree)) :
    ∃ entries, setFields incoming (.table before) = .table entries ∧
      ((before.map (·.1)).Nodup → (entries.map (·.1)).Nodup) ∧ (before ≠ [] → entries ≠ []) := by
  induction incoming generalizing before with
  | nil => exact ⟨before, by rw [setFields], id, id⟩
  | cons e rest ih =>
    rw [setFields_cons, setField_eq]
    obtain ⟨entries, heq, hnodup, hne⟩ := ih (put e.1 (merged e.2 (lookUp e.1 before)) before)
    exact ⟨entries, heq, fun h => hnodup (nodup_put h), fun _ => hne (put_ne_nil _ _ _)⟩

/-- A table with entries makes a table with entries of whatever it is laid over. -/
theorem exists_merged_cons (e : String × SettingTree) (rest : List (String × SettingTree))
    (before : Option SettingTree) :
    ∃ e' rest', merged (.table (e :: rest)) before = .table (e' :: rest') := by
  rw [merged, setFields_cons, setField_eq]
  obtain ⟨entries, heq, -, hne⟩ := exists_setFields rest
    (put e.1 (merged e.2 (lookUp e.1 (before.getD (.table [])).entries))
      (before.getD (.table [])).entries)
  obtain ⟨e', rest', rfl⟩ := List.exists_cons_of_ne_nil (hne (put_ne_nil _ _ _))
  exact ⟨e', rest', heq⟩

end SettingTree

end Depot
