import Depot.Proofs.Settings.Merge
import Depot.Settings.Json
import Depot.Settings.Toml.Document
import Mathlib.Data.Option.Basic
/-!
# No table of a settings file names an entry twice

A JSON text may give a name several times in an object, and the last value counts; a TOML document
that does so is rejected. Either way the tables of the tree that is read name each entry once
(`Json.distinct_of_parse?`, `Toml.distinct_of_parse?`), so that a name alone tells what a file says.

## How the proof goes

What a reader returns has a property if what its last step returns does, whatever comes in front
(`returns_behind`), or if each step hands on what the next one needs (`returns_bind`). The readers
call each other on what is left of a bound of steps, and so the inductions are on this bound, over
all readers of a format at once. An entry comes into a table by `put` alone, which keeps names apart
(`Distinct.table_put`).

A TOML document is read in two turns, first to values and then to trees. Values may name an entry
twice; that their leaves are trees of this kind is all that the second turn needs.
-/

namespace Depot

/-- No table in the tree names an entry twice. -/
inductive SettingTree.Distinct : SettingTree → Prop
  | null : Distinct .null
  | bool (b : Bool) : Distinct (.bool b)
  | int (i : Int) : Distinct (.int i)
  | float (x : Float) : Distinct (.float x)
  | text (s : String) : Distinct (.text s)
  | list {l : List SettingTree} (elements : ∀ t ∈ l, Distinct t) : Distinct (.list l)
  | table {l : List (String × SettingTree)} (nodup : (l.map (·.1)).Nodup)
    (values : ∀ e ∈ l, Distinct e.2) : Distinct (.table l)

namespace SettingTree.Distinct

theorem table_nil : Distinct (.table []) := table List.nodup_nil nofun

theorem table_entries {t : SettingTree} (h : t.Distinct) : Distinct (.table t.entries) := by
  cases h with
  | table nodup values => exact table nodup values
  | _ => exact table_nil

theorem list_cons {t : SettingTree} {l : List SettingTree} (ht : t.Distinct)
    (hl : Distinct (.list l)) : Distinct (.list (t :: l)) := by
  cases hl with
  | list elements => exact list (List.forall_mem_cons.mpr ⟨ht, elements⟩)

theorem list_elements {t : SettingTree} (h : t.Distinct) : Distinct (.list t.elements) := by
  cases h with
  | list elements => exact list elements
  | _ => exact list nofun

theorem table_put {name : String} {value : SettingTree} {l : List (String × SettingTree)}
    (hl : Distinct (.table l)) (hvalue : value.Distinct) :
    Distinct (.table (put name value l)) := by
  cases hl with
  | table nodup values =>
    refine table (nodup_put nodup) fun e he => ?_
    rcases mem_put he with rfl | he
    · exact hvalue
    · exact values e he

end SettingTree.Distinct

/-! ## Results of readers -/

/-- The value that is read, if one is, has a property. -/
def Returns {α : Type} (P : α → Prop) (r : Option α) : Prop := ∀ x, r = some x → P x

section Returns

variable {α β : Type} {P : α → Prop} {Q : β → Prop}

theorem returns_none : Returns P none := nofun

theorem returns_some {x : α} (h : P x) : Returns P (some x) := fun _ heq => Option.some.inj heq ▸ h

theorem returns_bind {r : Option α} {f : α → Option β} (hr : Returns P r)
    (hf : ∀ x, P x → Returns Q (f x)) : Returns Q (r >>= f) := by
  intro y h
  obtain ⟨x, hx, hy⟩ := Option.bind_eq_some_iff.mp h
  exact hf x (hr x hx) y hy

/-- What comes in front does not matter. -/
theorem returns_behind {r : Option α} {f : α → Option β} (hf : ∀ x, Returns Q (f x)) :
    Returns Q (r >>= f) := returns_bind (fun _ _ => trivial) fun x (_ : True) => hf x

theorem returns_map {r : Option α} {f : α → β} (hr : Returns P r) (hf : ∀ x, P x → Q (f x)) :
    Returns Q (r.map f) := by
  intro y h
  obtain ⟨x, hx, rfl⟩ := Option.map_eq_some_iff.mp h
  exact hf x (hr x hx)

theorem returns_ite {c : Prop} [Decidable c] {r s : Option α} (hr : Returns P r)
    (hs : Returns P s) : Returns P (if c then r else s) := by
  split
  · exact hr
  · exact hs

theorem returns_map_of_forall {r : Option α} {f : α → β} (hf : ∀ x, Q (f x)) :
    Returns Q (r.map f) := returns_map (fun _ _ => trivial) fun x (_ : True) => hf x

end Returns

open SettingTree (Distinct put lookUp)

/-! ## JSON -/

namespace Json

/-- A reader gives trees whose tables name nothing twice. -/
abbrev ReturnsDistinct (r : Option (SettingTree × List Char)) : Prop :=
  Returns (fun x => x.1.Distinct) r

theorem returns_toFloat? (s : Scanned) (negative : Bool) :
    Returns Distinct (s.toFloat? negative) :=
  returns_behind fun _ => returns_some (Distinct.float _)

theorem returns_rest {r : Option SettingTree} {rest : List Char} (hr : Returns Distinct r) :
    ReturnsDistinct (do return (← r, rest)) :=
  returns_bind hr fun _ ht => returns_some ht

theorem returns_finishNumber (negative : Bool) (s : Scanned) (input : List Char) :
    ReturnsDistinct (finishNumber negative s input) := by
  have hfloat (s : Scanned) (rest : List Char) :
      ReturnsDistinct (do return (← s.toFloat? negative, rest)) :=
    returns_rest (returns_toFloat? s negative)
  unfold finishNumber
  split
  · refine returns_ite (returns_behind fun _ => ?_) (hfloat _ _)
    exact returns_ite (returns_behind fun _ => returns_some (Distinct.float _)) (hfloat _ _)
  · exact hfloat _ _

theorem returns_plain (negative : Bool) (whole : Scanned) (rest : List Char) :
    ReturnsDistinct (parseNumber.plain negative whole rest) :=
  returns_ite (returns_some (Distinct.int _)) <| returns_ite (returns_some (Distinct.int _)) <|
    returns_rest (returns_toFloat? whole negative)

theorem returns_parseNumber (negative : Bool) (input : List Char) :
    ReturnsDistinct (parseNumber negative input) := by
  refine returns_behind fun _ => returns_behind fun _ => ?_
  dsimp only
  split
  · exact returns_behind fun _ => returns_finishNumber _ _ _
  · exact returns_behind fun _ => returns_ite (returns_finishNumber _ _ _) (returns_plain _ _ _)
  · exact returns_plain _ _ _

/-- Values, the elements of arrays and the entries of objects. -/
theorem returns_parse (fuel : Nat) :
    (∀ depth input, ReturnsDistinct (parseValue fuel depth input)) ∧
    (∀ depth input, Returns (fun x => Distinct (.list x.1)) (parseElements fuel depth input)) ∧
    (∀ depth before input, Distinct (.table before) →
      Returns (fun x => Distinct (.table x.1)) (parseEntries fuel depth before input)) := by
  induction fuel with
  | zero =>
    refine ⟨fun _ _ => ?_, fun _ _ => ?_, fun _ _ _ _ => ?_⟩
    · unfold parseValue; exact returns_none
    · unfold parseElements; exact returns_none
    · unfold parseEntries; exact returns_none
  | succ fuel ih =>
    obtain ⟨ihValue, ihElements, ihEntries⟩ := ih
    refine ⟨fun depth input => ?_, fun depth input => ?_, fun depth before input hbefore => ?_⟩
    · unfold parseValue
      split
      · exact returns_none
      refine returns_ite (returns_map_of_forall fun _ => Distinct.null) ?_
      refine returns_ite (returns_map_of_forall fun _ => Distinct.bool true) ?_
      refine returns_ite (returns_map_of_forall fun _ => Distinct.bool false) ?_
      refine returns_ite (returns_map_of_forall fun _ => Distinct.text _) ?_
      refine returns_ite (returns_parseNumber _ _) ?_
      refine returns_ite (returns_parseNumber _ _) ?_
      refine returns_ite (returns_ite returns_none ?list) ?_
      case list =>
        split
        · exact returns_some (Distinct.list nofun)
        · exact returns_map (ihElements _ _) fun _ hl => hl
      refine returns_ite (returns_ite returns_none ?_) returns_none
      split
      · exact returns_some Distinct.table_nil
      · exact returns_map (ihEntries _ _ _ Distinct.table_nil) fun _ hl => hl
    · unfold parseElements
      refine returns_bind (ihValue depth input) fun (x, rest) hx => ?_
      dsimp only at hx ⊢
      split
      · exact returns_bind (ihElements _ _) fun _ hl => returns_some (hx.list_cons hl)
      · exact returns_some (hx.list_cons (Distinct.list nofun))
      · exact returns_none
    · unfold parseEntries
      split
      · refine returns_behind fun (name, rest) => ?_
        dsimp only
        split
        · refine returns_bind (ihValue _ _) fun (x, rest) hx => ?_
          have hput : Distinct (.table (put (String.ofList name) x before)) := hbefore.table_put hx
          dsimp only
          split
          · exact ihEntries _ _ _ hput
          · exact returns_some hput
          · exact returns_none
        · exact returns_none
      · exact returns_none

/-- No table of a JSON text names an entry twice, whatever the text does. -/
theorem distinct_of_parse? {s : String} {t : SettingTree} (h : parse? s = some t) : t.Distinct := by
  have hparse : Returns Distinct (parse? s) :=
    returns_bind ((returns_parse _).1 _ _) fun _ hx => returns_behind fun _ => returns_some hx
  exact hparse t h

end Json

/-! ## TOML -/

namespace Toml

/-- The leaves of the value are trees whose tables name nothing twice. -/
inductive Value.Distinct : Value → Prop
  | leaf {t : SettingTree} (tree : t.Distinct) : Value.Distinct (.leaf t)
  | date (spelling : List Char) : Value.Distinct (.date spelling)
  | array {l : List Value} (elements : ∀ v ∈ l, Value.Distinct v) : Value.Distinct (.array l)
  | inline {l : List (String × Value)} (values : ∀ e ∈ l, Value.Distinct e.2) :
    Value.Distinct (.inline l)
  | dotted {l : List (String × Value)} (values : ∀ e ∈ l, Value.Distinct e.2) :
    Value.Distinct (.dotted l)

/-- The values of entries have leaves of this kind. -/
abbrev DistinctValues (l : List (String × Value)) : Prop := ∀ e ∈ l, e.2.Distinct

theorem distinctValues_nil : DistinctValues [] := nofun

/-! ### Numbers -/

theorem returns_basedInteger? (base : Nat) (body : List Char) :
    Returns Distinct (basedInteger? base body) :=
  returns_behind fun _ => returns_behind fun _ => returns_behind fun _ => returns_behind fun _ =>
    returns_some (Distinct.int _)

theorem returns_integer? (word : List Char) : Returns Distinct (integer? word) :=
  returns_behind fun _ => returns_behind fun _ => returns_behind fun _ =>
    returns_some (Distinct.int _)

theorem returns_float? (word : List Char) (behindPoint : Option (List Char)) (rest : List Char) :
    Returns (fun x => x.1.Distinct) (float? word behindPoint rest) := by
  refine returns_behind fun _ => ?_
  dsimp only
  split
  · exact returns_behind fun _ => returns_behind fun _ => returns_behind fun _ =>
      returns_some (Distinct.float _)
  · refine returns_ite ?_ returns_none
    exact returns_behind fun _ => returns_behind fun _ => returns_behind fun _ =>
      returns_some (Distinct.float _)

theorem returns_number? (word rest : List Char) :
    Returns (fun x => x.1.Distinct) (number? word rest) := by
  have hbased (base : Nat) (body : List Char) :
      Returns (fun x => x.1.Distinct) ((basedInteger? base body).map fun t => (t, rest)) :=
    returns_map (returns_basedInteger? base body) fun _ ht => ht
  unfold number?
  split
  · exact hbased _ _
  · exact hbased _ _
  · exact hbased _ _
  refine returns_ite (returns_float? _ _ _) ?_
  refine returns_ite (returns_behind fun _ => returns_float? _ _ _) ?_
  refine returns_ite (returns_some (Distinct.float _)) ?_
  refine returns_ite (returns_some (Distinct.float _)) ?_
  refine returns_ite (returns_some (Distinct.float _)) ?_
  exact returns_map (returns_integer? word) fun _ ht => ht

/-! ### Values -/

theorem returns_addEntry {path : List String} {x : Value} {entries : List (String × Value)}
    (hx : x.Distinct) (hentries : DistinctValues entries) :
    Returns DistinctValues (addEntry path x entries) := by
  have happend {entries : List (String × Value)} (hentries : DistinctValues entries) {x : Value}
      (hx : x.Distinct) (name : String) : DistinctValues (entries ++ [(name, x)]) :=
    List.forall_mem_append.mpr ⟨hentries, List.forall_mem_singleton.mpr hx⟩
  fun_induction addEntry path x entries with
  | case1 => exact returns_none
  | case2 name x entries => exact returns_some (happend hentries hx name)
  | case3 name rest x entries hrest hfresh ih =>
    exact returns_bind (ih hx nofun) fun inner hinner =>
      returns_some (happend hentries (.dotted hinner) name)
  | case4 name rest x entries hrest i hfound name' inner hi ih =>
    have hinner : DistinctValues inner := by
      cases hentries _ (List.mem_of_getElem? hi) with
      | dotted values => exact values
    refine returns_bind (ih hx hinner) fun inner' hinner' => returns_some fun e he => ?_
    rcases List.mem_or_eq_of_mem_set he with he | rfl
    · exact hentries e he
    · exact .dotted hinner'
  | case5 => exact returns_none

theorem returns_leaf {r : Option (SettingTree × List Char)}
    (h : Returns (fun x => x.1.Distinct) r) :
    Returns (fun x => x.1.Distinct) (do return (← r).map Value.leaf id) :=
  returns_bind h fun _ ht => returns_some (Value.Distinct.leaf ht)

theorem returns_date? (input rest : List Char) (inClock : Bool) :
    Returns (fun x => x.1.Distinct) (date? input rest inClock) := by
  have hdate (r : Option (List Char)) : Returns (fun x => x.1.Distinct) (do
      let rest ← r
      return (Value.date (input.take (input.length - rest.length)), rest)) :=
    returns_behind fun _ => returns_some (Value.Distinct.date _)
  exact returns_ite (hdate _) (returns_ite (hdate _) (hdate (some _)))

theorem returns_parseWord? (input : List Char) :
    Returns (fun x => x.1.Distinct) (parseWord? input) := by
  have hbool (b : Bool) (rest : List Char) :
      Returns (fun x => x.1.Distinct) (some (Value.leaf (.bool b), rest)) :=
    returns_some (Value.Distinct.leaf (.bool b))
  refine returns_ite (returns_behind fun _ => returns_leaf (returns_number? _ _)) ?_
  refine returns_behind fun (word, rest) => ?_
  refine returns_ite (hbool true rest) (returns_ite (hbool false rest) ?_)
  refine returns_behind fun _ => returns_ite (returns_date? _ _ _) ?_
  exact returns_ite (returns_date? _ _ _) (returns_leaf (returns_number? _ _))

/-- Values, the elements of arrays and the entries of tables in braces. -/
theorem returns_parse (fuel : Nat) :
    (∀ input, Returns (fun x => x.1.Distinct) (parseValue fuel input)) ∧
    (∀ input, Returns (fun x => ∀ v ∈ x.1, v.Distinct) (parseElements fuel input)) ∧
    (∀ before input, DistinctValues before →
      Returns (fun x => DistinctValues x.1) (parseInline fuel before input)) := by
  induction fuel with
  | zero =>
    refine ⟨fun _ => ?_, fun _ => ?_, fun _ _ _ => ?_⟩
    · unfold parseValue; exact returns_none
    · unfold parseElements; exact returns_none
    · unfold parseInline; exact returns_none
  | succ fuel ih =>
    obtain ⟨ihValue, ihElements, ihInline⟩ := ih
    refine ⟨fun input => ?_, fun input => ?_, fun before input hbefore => ?_⟩
    · unfold parseValue
      split
      · exact returns_none
      refine returns_ite (returns_map_of_forall fun _ => .leaf (.text _)) ?_
      refine returns_ite (returns_map (ihElements _) fun _ hl => .array hl) ?_
      refine returns_ite ?_ (returns_parseWord? _)
      split
      · exact returns_some (Value.Distinct.inline nofun)
      · exact returns_map (ihInline _ _ nofun) fun _ hl => .inline hl
    · unfold parseElements
      split
      · exact returns_some nofun
      · refine returns_bind (ihValue _) fun (x, rest) hx => ?_
        dsimp only at hx ⊢
        split
        · exact returns_bind (ihElements _) fun _ hl =>
            returns_some (List.forall_mem_cons.mpr ⟨hx, hl⟩)
        · exact returns_some (List.forall_mem_singleton.mpr hx)
        · exact returns_none
    · unfold parseInline
      refine returns_behind fun (path, rest) => ?_
      dsimp only
      split
      · refine returns_bind (ihValue _) fun (x, rest) hx => ?_
        refine returns_bind (returns_addEntry hx hbefore) fun entries hentries => ?_
        dsimp only
        split
        · exact ihInline _ _ hentries
        · exact returns_some hentries
        · exact returns_none
      · exact returns_none

/-! ### Trees -/

theorem returns_dateTree? (spelling : List Char) : Returns Distinct (dateTree? spelling) :=
  returns_map_of_forall fun _ => Distinct.text _

theorem returns_markedDate? (v : Value) : Returns Distinct v.markedDate? := by
  unfold Value.markedDate?
  split
  · exact returns_dateTree? _
  · exact returns_none

theorem returns_table {l : List (String × Value)}
    (hentries : Returns (fun t => Distinct (.table t)) (entryTrees? [] l)) :
    Returns Distinct (if isMarked l then l.head?.bind fun e => e.2.markedDate?
      else (entryTrees? [] l).map .table) :=
  returns_ite (returns_behind fun _ => returns_markedDate? _) (returns_map hentries fun _ ht => ht)

mutual

theorem returns_toTree? : ∀ {v : Value}, v.Distinct → Returns Distinct v.toTree?
  | .leaf _, .leaf tree => by
    rw [Value.toTree?]
    exact returns_some tree
  | .date _, _ => by
    rw [Value.toTree?]
    exact returns_dateTree? _
  | .array _, .array elements => by
    rw [Value.toTree?]
    exact returns_map (returns_toTrees? elements) fun _ hl => hl
  | .inline _, .inline values => by
    rw [Value.toTree?]
    exact returns_table (returns_entryTrees? .table_nil values)
  | .dotted _, .dotted values => by
    rw [Value.toTree?]
    exact returns_table (returns_entryTrees? .table_nil values)
termination_by v => sizeOf v

theorem returns_toTrees? : ∀ {l : List Value}, (∀ v ∈ l, v.Distinct) →
    Returns (fun t => Distinct (.list t)) (toTrees? l)
  | [], _ => by
    rw [toTrees?]
    exact returns_some (Distinct.list nofun)
  | v :: rest, h => by
    obtain ⟨hv, hrest⟩ := List.forall_mem_cons.mp h
    rw [toTrees?]
    exact returns_bind (returns_toTree? hv) fun _ ht =>
      returns_bind (returns_toTrees? hrest) fun _ hl => returns_some (ht.list_cons hl)
termination_by l => sizeOf l

theorem returns_entryTrees? {before : List (String × SettingTree)}
    (hbefore : Distinct (.table before)) : ∀ {l : List (String × Value)}, DistinctValues l →
    Returns (fun t => Distinct (.table t)) (entryTrees? before l)
  | [], _ => by
    rw [entryTrees?]
    exact returns_some hbefore
  | (name, v) :: rest, h => by
    obtain ⟨hv, hrest⟩ := List.forall_mem_cons.mp h
    rw [entryTrees?]
    split
    · exact returns_none
    · exact returns_bind (returns_toTree? hv) fun _ ht =>
        returns_entryTrees? (hbefore.table_put ht) hrest
termination_by l => sizeOf l

end

/-! ### Sections -/

/-- The entries below a header have values of this kind. -/
def Section.Distinct (s : Section) : Prop := DistinctValues s.entries

theorem returns_parseEntries (fuel : Nat) {before : List (String × Value)}
    (hbefore : DistinctValues before) (input : List Char) :
    Returns (fun x => DistinctValues x.1) (parseEntries fuel before input) := by
  induction fuel generalizing before input with
  | zero => exact returns_none
  | succ fuel ih =>
    unfold parseEntries
    split
    · exact returns_some hbefore
    · exact returns_some hbefore
    · refine returns_behind fun (path, rest) => ?_
      dsimp only
      split
      · refine returns_bind ((returns_parse _).1 _) fun (x, rest) hx => ?_
        exact returns_bind (returns_addEntry hx hbefore) fun _ hentries =>
          returns_behind fun _ => ih hentries _
      · exact returns_none

theorem returns_parseHeaders (fuel : Nat) (input : List Char) :
    Returns (fun l => ∀ s ∈ l, s.Distinct) (parseHeaders fuel input) := by
  induction fuel generalizing input with
  | zero =>
    cases input with
    | nil => exact returns_some nofun
    | cons c rest => exact returns_none
  | succ fuel ih =>
    cases input with
    | nil => exact returns_some nofun
    | cons c rest =>
      refine returns_behind fun _ => ?_
      refine returns_bind (returns_parseEntries _ distinctValues_nil _) fun x hx => ?_
      exact returns_bind (ih _) fun _ hrest => returns_some (List.forall_mem_cons.mpr ⟨hx, hrest⟩)

theorem returns_parseSections? (s : String) :
    Returns (fun l => ∀ x ∈ l, x.Distinct) (parseSections? s) := by
  refine returns_bind (returns_parseEntries _ distinctValues_nil _) fun (first, rest) hfirst => ?_
  refine returns_bind (returns_parseHeaders _ _) fun sections hsections => returns_some ?_
  split
  · exact hsections
  · exact List.forall_mem_cons.mpr ⟨hfirst, hsections⟩

/-! ### Documents -/

section Documents

variable {sections : List Section} (hsections : ∀ s ∈ sections, s.Distinct)
include hsections

/-- The tables and arrays of a document, each put together in as many steps as are left. -/
theorem returns_readTable (fuel : Nat) :
    (∀ seen c before, DistinctValues c.entries → Distinct (.table before) →
      Returns (fun x => x.1.Distinct) (readTable sections fuel seen c before)) ∧
    (∀ seen depth i limit,
      Returns (fun x => x.1.Distinct) (readElements sections fuel seen depth i limit)) := by
  induction fuel with
  | zero =>
    refine ⟨fun _ _ _ _ _ => ?_, fun _ _ _ _ => ?_⟩
    · unfold readTable; exact returns_none
    · unfold readElements; exact returns_none
  | succ fuel ih =>
    obtain ⟨ihTable, ihElements⟩ := ih
    have hsection (i : Nat) : Returns (fun s => DistinctValues s.entries) sections[i]? :=
      fun s h => hsections s (List.mem_of_getElem? h)
    refine ⟨fun seen c before hc hbefore => ?_, fun seen depth i limit => ?_⟩
    · unfold readTable
      split
      · rename_i name x rest hentries
        obtain ⟨hx, hrest⟩ := List.forall_mem_cons.mp (hentries ▸ hc)
        refine returns_ite (returns_map (returns_markedDate? x) fun _ ht => ht) ?_
        exact returns_behind fun _ => returns_bind (returns_toTree? hx) fun _ ht =>
          ihTable _ _ _ hrest (hbefore.table_put ht)
      · split
        · exact returns_some hbefore
        · refine returns_bind (hsection _) fun s hs => ?_
          refine returns_behind fun owner => returns_behind fun _ => ?_
          dsimp only
          split
          · have hput (name : String) (x : SettingTree × List Nat) (hx : x.1.Distinct)
                (owner next : Nat) : Returns (fun x => x.1.Distinct)
                  (readTable sections fuel x.2 { c with owner := owner, next := next }
                    (put name x.1 before)) :=
              ihTable _ _ _ hc (hbefore.table_put hx)
            refine returns_behind fun _ => returns_ite ?_ ?_
            · exact returns_bind (ihElements _ _ _ _) fun x hx => hput _ x hx _ _
            · exact returns_bind (ihTable _ _ _ distinctValues_nil .table_nil) fun x hx =>
                hput _ x hx _ _
          · exact returns_behind fun _ => ihTable _ _ _ hs hbefore
    · unfold readElements
      refine returns_ite (returns_some (Distinct.list nofun)) ?_
      refine returns_bind (hsection i) fun s hs => ?_
      refine returns_bind (ihTable _ _ _ hs .table_nil) fun x hx => ?_
      refine returns_bind (ihElements _ _ _ _) fun l hl => returns_some ?_
      exact hx.list_cons hl.list_elements

end Documents

/-- No table of a TOML document names an entry twice, as a document that does so is not read. -/
theorem distinct_of_parse? {s : String} {t : SettingTree} (h : parse? s = some t) : t.Distinct := by
  have hparse : Returns Distinct (parse? s) :=
    returns_bind (returns_parseSections? s) fun _ hsections =>
      returns_bind ((returns_readTable hsections _).1 _ _ _ nofun .table_nil) fun _ ht =>
        returns_some ht
  exact hparse t h

end Toml

end Depot
