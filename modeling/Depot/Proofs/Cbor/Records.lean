import Depot.Proofs.Cbor.Items
/-!
# Records are read back

A record is read field by field. What is left of a record at each moment is again the body of a
record, that of the fields not read yet (`recordBody`), and the number of elements left is its
length (`recordLength`). So one lemma for each kind of field, stated for an arbitrary list of
further fields, reads back every record: `readField_body`, `readOptional_body` and
`readRecordEnd_body`, behind `readArrayHead_writeRecord`.

Alternatives of enumerations are read back by `readAlternativeHead_writeAlternative`.
-/

namespace Depot.Cbor

/-- The elements of a record with these fields, without its head. -/
def recordBody (fields : List (Option Bytes)) : Bytes :=
  ((dropAbsent fields).map (·.getD [nullByte])).flatten

/-- How many elements a record with these fields has. -/
def recordLength (fields : List (Option Bytes)) : Nat := (dropAbsent fields).length

/-! ## Absent fields -/

/-- A field stays if it is present or stands before one that stays. -/
theorem dropAbsent_cons (field : Option Bytes) (fields : List (Option Bytes)) :
    dropAbsent (field :: fields) =
      if field.isNone ∧ dropAbsent fields = [] then [] else field :: dropAbsent fields := by
  unfold dropAbsent
  rw [List.reverse_cons, List.dropWhile_append]
  by_cases h : fields.reverse.dropWhile Option.isNone = []
  · cases field <;> simp [h]
  · simp [h]

theorem recordLength_le (fields : List (Option Bytes)) : recordLength fields ≤ fields.length := by
  have h := (List.dropWhile_sublist (l := fields.reverse) Option.isNone).length_le
  simpa [recordLength, dropAbsent] using h

/-! ## Fields -/

/-- A record is its head and its body. -/
theorem readArrayHead_writeRecord {fields : List (Option Bytes)}
    (h : fields.length ≤ maxUInt64) (rest : Bytes) :
    readArrayHead (writeRecord fields ++ rest) =
      .ok (some (recordLength fields), recordBody fields ++ rest) := by
  have hlen : recordLength fields ≤ maxUInt64 := Nat.le_trans (recordLength_le fields) h
  rw [writeRecord, writeArray, List.length_map, List.append_assoc]
  exact readArrayHead_head hlen _

theorem present_writeRecord {fields : List (Option Bytes)} (h : fields.length ≤ maxUInt64) :
    Present (writeRecord fields) := by
  refine present_writeArray ?_
  rw [List.length_map]
  exact Nat.le_trans (recordLength_le fields) h

theorem recordBody_some (b : Bytes) (fields : List (Option Bytes)) :
    recordBody (some b :: fields) = b ++ recordBody fields := by
  simp [recordBody, dropAbsent_cons]

theorem recordLength_some (b : Bytes) (fields : List (Option Bytes)) :
    recordLength (some b :: fields) = recordLength fields + 1 := by
  simp [recordLength, dropAbsent_cons]

/-- A present field is read, and the fields behind it are left. -/
theorem readField_body {α : Type} {read : Reader α} {b : Bytes} {x : α} (h : Reads read b x)
    (fields : List (Option Bytes)) (rest : Bytes) :
    readField read (some (recordLength (some b :: fields)))
        (recordBody (some b :: fields) ++ rest) =
      .ok (x, some (recordLength fields), recordBody fields ++ rest) := by
  rw [recordLength_some, recordBody_some, List.append_assoc]
  simp [readField, hasNext, h _, Left.pred, bind, Except.bind, pure, Except.pure]

/-- An optional field and what is written for it. -/
def ReadsOption {α : Type} (read : Reader α) : Option Bytes → Option α → Prop
  | none, none => True
  | some b, some x => Reads read b x ∧ Present b
  | _, _ => False

theorem readsOption_map {α : Type} {read : Reader α} {write : α → Bytes} {o : Option α}
    (h : ∀ x ∈ o, Reads read (write x) x ∧ Present (write x)) :
    ReadsOption read (o.map write) o := by
  cases o with
  | none => trivial
  | some x => exact h x rfl

/-- An optional field is read, and the fields behind it are left. An absent field behind which no
field is present is not written at all; it is read off the end of the record. -/
theorem readOptional_body {α : Type} {read : Reader α} {field : Option Bytes} {x : Option α}
    (h : ReadsOption read field x) (fields : List (Option Bytes)) (rest : Bytes) :
    readOptional read (some (recordLength (field :: fields)))
        (recordBody (field :: fields) ++ rest) =
      .ok (x, some (recordLength fields), recordBody fields ++ rest) := by
  match field, x with
  | some b, some x =>
    obtain ⟨hread, d, t, hb, hnull, hneg⟩ := h
    have hr := hread (recordBody fields ++ rest)
    rw [recordLength_some, recordBody_some, List.append_assoc]
    rw [hb, List.cons_append] at hr ⊢
    simp [readOptional, hasNext, peek, hneg, hnull, hr, Left.pred, bind, Except.bind, pure,
      Except.pure]
  | none, none =>
    by_cases hf : dropAbsent fields = []
    · simp [recordLength, recordBody, dropAbsent_cons, hf, readOptional, hasNext, bind, Except.bind,
        pure, Except.pure]
    · have hlen : recordLength (none :: fields) = recordLength fields + 1 := by
        simp [recordLength, dropAbsent_cons, hf]
      have hbody : recordBody (none :: fields) = nullByte :: recordBody fields := by
        simp [recordBody, dropAbsent_cons, hf]
      have hwide : isWideNegative nullByte = false := by decide
      rw [hlen, hbody, List.cons_append]
      simp [readOptional, hasNext, peek, hwide, Left.pred, bind, Except.bind, pure, Except.pure]
  | none, some _ => exact h.elim
  | some _, none => exact h.elim

/-- Nothing is left behind the last field. -/
theorem readRecordEnd_body (rest : Bytes) :
    readRecordEnd (some (recordLength [])) (recordBody [] ++ rest) = .ok rest := rfl

/-! ## Alternatives -/

/-- The index of an alternative is read, and the record of its fields is left. -/
theorem readAlternativeHead_writeAlternative (index : Nat) (h : index ≤ maxInt64)
    (fields : List (Option Bytes)) (rest : Bytes) :
    readAlternativeHead (writeAlternative index fields ++ rest) =
      .ok ((index : Int), writeRecord fields ++ rest) := by
  have hmax : maxInt64 = 0x7FFFFFFFFFFFFFFF := rfl
  have hfits : fitsInt64 (index : Int) = true := by
    simp only [fitsInt64, decide_eq_true_eq]
    omega
  have hint : Reads readInt (writeNat index) (index : Int) := by
    have hi := reads_writeInt hfits
    rwa [writeInt, if_neg (by omega)] at hi
  have hhead :=
    readArrayHead_head (n := 2) (by decide) (writeNat index ++ writeRecord fields ++ rest)
  have hwrite : writeAlternative index fields ++ rest =
      head .array 2 ++ (writeNat index ++ writeRecord fields ++ rest) := by
    simp [writeAlternative, writeArray]
  rw [hwrite, readAlternativeHead, hhead]
  simp only [bind, Except.bind, if_true, List.append_assoc]
  exact hint _

/-- The empty record of an alternative without fields is skipped. -/
theorem skip_writeRecord_nil (rest : Bytes) : skip (writeRecord [] ++ rest) = .ok rest := by
  have hw : writeRecord [] ++ rest = 0x80 :: rest := rfl
  have hhead : skipHead (0x80 :: rest) = .ok (.container (some 0), rest) := rfl
  rw [hw, skip, List.length_cons, skipPending, hhead]
  · cases rest <;> rfl
  · intro h
    cases h

end Depot.Cbor
