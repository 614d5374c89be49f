import Depot.Proofs.Effect
import Depot.Proofs.Receivables.Record
/-!
# Purchases are told apart by their keys

A ledger that sales are recorded in, one after the other, tells them apart by the key of the
purchase and by nothing else: a recording is new if no earlier one had its key, and the purchases
of a customer are the new ones whose key begins with the start of the customer (`purchases_by_key`).

Two purchases of different customers have one key if a zero byte in an identifier moves to where
the separator stands (`purchaseKey_shared`): the second is not recorded, nothing is owed for it,
and its customer is shown the purchase of the other. If the identifiers of the customers are free
of U+0000 the first zero byte of a key is the separator, and then customers are isolated: a key is
that of one customer and document, and the purchases of a customer are the customer's.

## How the proof goes

A row of the purchases is there exactly for the keys of what was recorded, and is that of the first
recording with its key (`Ledger`). One recording keeps this (`recordOne_ledger`), so a run does.
-/

namespace Depot

/-- The first zero byte splits a byte string in one way only. -/
theorem zero_append_inj {a a' b b' : Bytes} (ha : 0 ∉ a) (ha' : 0 ∉ a')
    (h : a ++ [0] ++ b = a' ++ [0] ++ b') : a = a' ∧ b = b' := by
  have hreverse : b.reverse ++ [0] ++ a.reverse = b'.reverse ++ [0] ++ a'.reverse := by
    simpa using congrArg List.reverse h
  obtain ⟨hb, ha⟩ := append_zero_append_inj (by simpa using ha) (by simpa using ha') hreverse
  exact ⟨List.reverse_inj.mp ha, List.reverse_inj.mp hb⟩

namespace Purchase

/-- The key of the purchase. -/
def key (p : Purchase) : Bytes := Receivables.purchaseKey p.customer p.document

/-- The row of the purchase. -/
def row (p : Purchase) : Bytes :=
  match (encode p : Except EncodeFault Bytes) with
  | .ok row => row
  | .error _ => []

/-- The purchase can be recorded: its texts are texts in memory, and its time is in range. -/
structure Recordable (p : Purchase) : Prop where
  fits : p.Fits
  inRange : p.recordedAt.unixNanos?.isSome

theorem Recordable.encode_eq {p : Purchase} (h : p.Recordable) : encode p = .ok p.row := by
  obtain ⟨bytes, hbytes⟩ := p.encode_isOk_iff.mpr h.inRange
  unfold row
  rw [hbytes]

theorem Recordable.decodeRow {p : Purchase} (h : p.Recordable) : decodeRow p.row = .ok p.stored :=
  decodeRow_of_reads (reads_encode h.fits h.encode_eq)

end Purchase

namespace Receivables

/-! ## Keys -/

section Keys

variable {customer customer' : CustomerId} {document document' : DocumentId}

theorem zero_not_mem_customer (h : '\x00' ∉ customer.text.toList) : 0 ∉ customer.bytes :=
  Bytes.zero_not_mem_ofText h

theorem purchaseKey_eq_iff (hc : '\x00' ∉ customer.text.toList)
    (hc' : '\x00' ∉ customer'.text.toList) :
    purchaseKey customer document = purchaseKey customer' document' ↔
      customer = customer' ∧ document = document' := by
  constructor
  · intro h
    obtain ⟨hcustomer, hdocument⟩ :=
      zero_append_inj (zero_not_mem_customer hc) (zero_not_mem_customer hc') h
    exact ⟨Ident.bytes_injective hcustomer, Ident.bytes_injective hdocument⟩
  · rintro ⟨rfl, rfl⟩
    rfl

/-- A key begins with the start of its own customer only. -/
theorem purchasesStart_isPrefix_iff (hc : '\x00' ∉ customer.text.toList)
    (hc' : '\x00' ∉ customer'.text.toList) :
    purchasesStart customer <+: purchaseKey customer' document' ↔ customer = customer' := by
  constructor
  · rintro ⟨rest, hrest⟩
    obtain ⟨hcustomer, -⟩ :=
      zero_append_inj (zero_not_mem_customer hc) (zero_not_mem_customer hc') hrest
    exact Ident.bytes_injective hcustomer
  · rintro rfl
    exact ⟨_, rfl⟩

end Keys

/-! ## Recording -/

/-- Record a sale as this purchase. -/
def recordOne (p : Purchase) (db : Database) : Except StoreError Bool × Database :=
  UnitOfWork.commit (record p.customer p.document p.totalValue p.recordedAt) db

/-- Record sales one after the other. -/
def recordAll (ps : List Purchase) (db : Database) : Database :=
  ps.foldl (fun db p => (recordOne p db).2) db

/-- The first of the recordings with a key. -/
def firstWith (key : Bytes) (ps : List Purchase) : Option Purchase :=
  ps.find? fun p => p.key = key

/-- The ledger after these recordings: every purchase has the row of the first recording with its
key, and every balance can be read. -/
structure Ledger (ps : List Purchase) (db : Database) : Prop where
  rows : ∀ key, db.purchases.get? key = (firstWith key ps).map Purchase.row
  balances : ∀ customer, ∃ owed, balance customer db = .ok owed

/-- Nothing was recorded in a ledger without rows. -/
theorem ledger_start {db : Database} (hreceivables : db.receivables = ∅)
    (hpurchases : db.purchases = ∅) : Ledger [] db where
  rows key := by
    rw [hpurchases]
    rfl
  balances customer := by
    rw [balance, hreceivables]
    exact ⟨0, rfl⟩

theorem ledger_empty : Ledger [] ∅ := ledger_start rfl rfl

theorem firstWith_eq_none {key : Bytes} {ps : List Purchase} :
    firstWith key ps = none ↔ ∀ q ∈ ps, q.key ≠ key := by
  simp [firstWith]

theorem key_of_firstWith {key : Bytes} {ps : List Purchase} {q : Purchase}
    (h : firstWith key ps = some q) : q.key = key ∧ q ∈ ps :=
  ⟨by simpa using List.find?_some h, List.mem_of_find?_eq_some h⟩

/-- A further recording is the first with its key if there is none before. -/
theorem firstWith_append (key : Bytes) (ps : List Purchase) (p : Purchase) :
    firstWith key (ps ++ [p]) = (firstWith key ps).or (if p.key = key then some p else none) := by
  simp only [firstWith, List.find?_append, List.find?_singleton, decide_eq_true_eq]

section Record

variable {p : Purchase} {ps : List Purchase} {db : Database}

/-- What a recording answers and does: nothing if its key is there, and else it adds the value to
what the customer owes. -/
inductive RecordedAs (p : Purchase) (db : Database) : Bool → Database → Prop
  | again : RecordedAs p db false db
  | fresh {owed : UInt64} {db' : Database} (owes : balance p.customer db = .ok owed)
    (adds : balance p.customer db' = .ok (satAdd owed p.totalValue))
    (others : ∀ customer ≠ p.customer, balance customer db' = balance customer db) :
    RecordedAs p db true db'

theorem recordOne_ledger (h : Ledger ps db) (hp : p.Recordable) :
    ∃ fresh db', recordOne p db = (.ok fresh, db') ∧ (fresh = true ↔ ∀ q ∈ ps, q.key ≠ p.key) ∧
      RecordedAs p db fresh db' ∧ Ledger (ps ++ [p]) db' := by
  cases hfirst : firstWith p.key ps with
  | some q =>
    have hrow : db.purchases.get? p.key = some q.row := by rw [h.rows, hfirst, Option.map_some]
    refine ⟨false, db, ?_, ?_, .again, fun key => ?_, h.balances⟩
    · rw [recordOne, UnitOfWork.commit, record_of_recorded hp.encode_eq hrow]
    · obtain ⟨hkey, hmem⟩ := key_of_firstWith hfirst
      simp only [Bool.false_eq_true, false_iff, not_forall, not_not]
      exact ⟨q, hmem, hkey⟩
    · rw [h.rows, firstWith_append]
      by_cases hkey : p.key = key
      · rw [← hkey, hfirst, Option.some_or]
      · rw [if_neg hkey, Option.or_none]
  | none =>
    obtain ⟨owed, howed⟩ := h.balances p.customer
    have hrow : db.purchases.get? p.key = none := by rw [h.rows, hfirst, Option.map_none]
    have hrecord := record_of_fresh hp.encode_eq hrow howed
    refine ⟨true, _, by rw [recordOne, UnitOfWork.commit, hrecord],
      ⟨fun _ => firstWith_eq_none.mp hfirst, fun _ => rfl⟩,
      .fresh howed ?_ fun customer hne => ?_, fun key => ?_, fun customer => ?_⟩
    · rw [balance_insert rfl, if_pos rfl]
    · rw [balance_insert rfl, if_neg hne]
    · rw [firstWith_append]
      by_cases hkey : p.key = key
      · subst hkey
        rw [if_pos rfl, hfirst, Option.none_or]
        exact SortedMap.get?_insert_self ..
      · rw [if_neg hkey, Option.or_none, ← h.rows]
        exact SortedMap.get?_insert_ne _ (Ne.symm hkey) _
    · obtain ⟨before, hbefore⟩ := h.balances customer
      rw [balance_insert rfl]
      split
      · exact ⟨_, rfl⟩
      · exact ⟨before, hbefore⟩

/-- A run of recordings leaves their ledger. -/
theorem ledger_recordAll {qs : List Purchase} (h : Ledger ps db)
    (hqs : ∀ q ∈ qs, q.Recordable) : Ledger (ps ++ qs) (recordAll qs db) := by
  induction qs generalizing ps db with
  | nil => simpa [recordAll] using h
  | cons q qs ih =>
    obtain ⟨hq, hqs⟩ := List.forall_mem_cons.mp hqs
    obtain ⟨fresh, db', hrecord, -, -, hnext⟩ := recordOne_ledger h hq
    have hrest := ih hnext hqs
    rw [List.append_assoc] at hrest
    rw [recordAll, List.foldl_cons, hrecord]
    exact hrest

/-- A row whose key begins with a customer's start is that of the first recording with its key. -/
theorem Ledger.row_eq (h : Ledger ps db) {start : Bytes} {r : Bytes × Bytes}
    (hr : r ∈ db.purchases.startingWith start) :
    ∃ q ∈ ps, firstWith q.key ps = some q ∧ start <+: q.key ∧ r = (q.key, q.row) := by
  obtain ⟨hr, hstart⟩ := List.mem_filter.mp hr
  have hget := SortedMap.mem_toList_iff.mp hr
  rw [h.rows, Option.map_eq_some_iff] at hget
  obtain ⟨q, hq, hrow⟩ := hget
  obtain ⟨hkey, hmem⟩ := key_of_firstWith hq
  rw [← hkey] at hq
  refine ⟨q, hmem, hq, ?_, by rw [hkey, hrow]⟩
  rw [hkey]
  exact List.isPrefixOf_iff_prefix.mp hstart

/-- The purchases of a customer are the first recordings of the keys that begin with the
customer's start. -/
theorem Ledger.purchases_eq (h : Ledger ps db) (hps : ∀ q ∈ ps, q.Recordable)
    (customer : CustomerId) :
    ∃ listed, purchases customer db = .ok listed ∧
      ∀ p, p ∈ listed ↔ ∃ q ∈ ps, firstWith q.key ps = some q ∧
        purchasesStart customer <+: q.key ∧ p = q.stored := by
  obtain ⟨listed, hlisted⟩ := exists_mapM_eq_ok
    (f := fun r : Bytes × Bytes => (decodeRow r.2 : Except StoreError Purchase)) fun r hr => by
      obtain ⟨q, hq, -, -, rfl⟩ := h.row_eq hr
      exact ⟨q.stored, (hps q hq).decodeRow⟩
  refine ⟨listed, hlisted, fun p => ?_⟩
  rw [mem_of_mapM_eq_ok hlisted]
  constructor
  · rintro ⟨r, hr, hp⟩
    obtain ⟨q, hq, hfirst, hstart, rfl⟩ := h.row_eq hr
    rw [(hps q hq).decodeRow] at hp
    cases hp
    exact ⟨q, hq, hfirst, hstart, rfl⟩
  · rintro ⟨q, hq, hfirst, hstart, rfl⟩
    refine ⟨(q.key, q.row), List.mem_filter.mpr ⟨?_, List.isPrefixOf_iff_prefix.mpr hstart⟩,
      (hps q hq).decodeRow⟩
    rw [SortedMap.mem_toList_iff, h.rows, hfirst, Option.map_some]

theorem recordAll_take_succ {n : Nat} (h : ps[n]? = some p) (db : Database) :
    recordAll (ps.take (n + 1)) db = (recordOne p (recordAll (ps.take n) db)).2 :=
  foldl_take_succ h db

end Record

/-- In a run of recordings with any identifiers, a recording is new exactly if no earlier one has
its key, and then adds its value to what its customer owes and changes no other balance. The
purchases of a customer are those of the new recordings whose key begins with the customer's start.
If the customers are free of U+0000, a recording is new exactly if none before was for the same
customer and document, and a customer is shown the customer's purchases only. -/
theorem purchases_by_key {ps : List Purchase} (h : ∀ p ∈ ps, p.Recordable) :
    (∀ n p, ps[n]? = some p → ∃ fresh,
      (recordOne p (recordAll (ps.take n) ∅)).1 = .ok fresh ∧
      (fresh = true ↔ ∀ q ∈ ps.take n, q.key ≠ p.key) ∧
      RecordedAs p (recordAll (ps.take n) ∅) fresh (recordAll (ps.take (n + 1)) ∅)) ∧
    (∀ customer, ∃ listed, purchases customer (recordAll ps ∅) = .ok listed ∧
      ∀ p, p ∈ listed ↔ ∃ q ∈ ps, firstWith q.key ps = some q ∧
        purchasesStart customer <+: q.key ∧ p = q.stored) ∧
    ((∀ p ∈ ps, '\x00' ∉ p.customer.text.toList) →
      (∀ n p, ps[n]? = some p →
        ((recordOne p (recordAll (ps.take n) ∅)).1 = .ok true ↔
          ∀ q ∈ ps.take n, ¬ (q.customer = p.customer ∧ q.document = p.document))) ∧
      ∀ customer : CustomerId, '\x00' ∉ customer.text.toList →
        ∃ listed, purchases customer (recordAll ps ∅) = .ok listed ∧
          ∀ p ∈ listed, p.customer = customer) := by
  have hledger : ∀ qs : List Purchase, (∀ q ∈ qs, q.Recordable) → Ledger qs (recordAll qs ∅) :=
    fun qs hqs => ledger_recordAll ledger_empty hqs
  have hanswers : ∀ n p, ps[n]? = some p → ∃ fresh,
      (recordOne p (recordAll (ps.take n) ∅)).1 = .ok fresh ∧
      (fresh = true ↔ ∀ q ∈ ps.take n, q.key ≠ p.key) ∧
      RecordedAs p (recordAll (ps.take n) ∅) fresh (recordAll (ps.take (n + 1)) ∅) := by
    intro n p hp
    obtain ⟨fresh, db', hrecord, hfresh, hdone, -⟩ :=
      recordOne_ledger (hledger _ fun q hq => h q (List.mem_of_mem_take hq))
        (h p (List.mem_of_getElem? hp))
    rw [recordAll_take_succ hp, hrecord]
    exact ⟨fresh, rfl, hfresh, hdone⟩
  refine ⟨hanswers, (hledger ps h).purchases_eq h, fun hplain => ⟨fun n p hp => ?_, ?_⟩⟩
  · obtain ⟨fresh, hanswer, hfresh, -⟩ := hanswers n p hp
    rw [hanswer, Except.ok.injEq, hfresh]
    refine forall₂_congr fun q hq => not_congr ?_
    exact purchaseKey_eq_iff (hplain q (List.mem_of_mem_take hq))
      (hplain p (List.mem_of_getElem? hp))
  · intro customer hcustomer
    obtain ⟨listed, hlisted, hmem⟩ := (hledger ps h).purchases_eq h customer
    refine ⟨listed, hlisted, fun p hp => ?_⟩
    obtain ⟨q, hq, -, hstart, rfl⟩ := (hmem p).mp hp
    exact ((purchasesStart_isPrefix_iff hcustomer (hplain q hq)).mp hstart).symm

/-- Two customers, the name of one beginning with that of the other, and one sale recorded again: it
is new once, and each customer is shown the customer's own. -/
theorem purchases_by_key_again :
    let p : Purchase := ⟨⟨"a"⟩, ⟨"bd"⟩, 7, .ofUnixNanos 0⟩
    let q : Purchase := ⟨⟨"ab"⟩, ⟨"d"⟩, 5, .ofUnixNanos 1⟩
    (∀ r ∈ [p, q, p], r.Recordable) ∧ (∀ r ∈ [p, q, p], '\x00' ∉ r.customer.text.toList) ∧
      (recordOne p ∅).1 = .ok true ∧ (recordOne q (recordAll [p] ∅)).1 = .ok true ∧
      (recordOne p (recordAll [p, q] ∅)).1 ≠ .ok true ∧
      (∀ customer ∈ [p.customer, q.customer],
        ∃ listed, purchases customer (recordAll [p, q, p] ∅) = .ok listed ∧
          ∀ r ∈ listed, r.customer = customer) ∧
      purchases p.customer (recordAll [p, q, p] ∅) = .ok [p] ∧
      purchases q.customer (recordAll [p, q, p] ∅) = .ok [q] ∧
      balance p.customer (recordAll [p, q, p] ∅) = .ok 7 ∧
      balance q.customer (recordAll [p, q, p] ∅) = .ok 5 := by
  intro p q
  have hp : p.Recordable := ⟨by decide, by decide⟩
  have hq : q.Recordable := ⟨by decide, by decide⟩
  have hrecordable : ∀ r ∈ [p, q, p], r.Recordable := by simp [hp, hq]
  have hcustomers : ∀ r ∈ [p, q, p], '\x00' ∉ r.customer.text.toList := by decide
  have hplain : ∀ customer ∈ [p.customer, q.customer], '\x00' ∉ customer.text.toList := by decide
  obtain ⟨hnew, hisolated⟩ := (purchases_by_key hrecordable).2.2 hcustomers
  refine ⟨hrecordable, hcustomers, (hnew 0 p rfl).mpr (by simp), (hnew 1 q rfl).mpr ?_,
    fun hagain => ?_, fun customer hc => hisolated customer (hplain customer hc), ?_⟩
  · intro r hr
    cases List.mem_singleton.mp hr
    decide
  · exact (hnew 2 p rfl).mp hagain p (by simp) ⟨rfl, rfl⟩
  · decide +kernel

/-- Two sales to different customers that have one key: the second is not recorded, and its
customer owes nothing and is shown the purchase of the other. -/
theorem purchaseKey_shared :
    let p : Purchase := ⟨⟨"a\x00b"⟩, ⟨"c"⟩, 7, .ofUnixNanos 0⟩
    let q : Purchase := ⟨⟨"a"⟩, ⟨"b\x00c"⟩, 5, .ofUnixNanos 0⟩
    p.Recordable ∧ q.Recordable ∧ p.customer ≠ q.customer ∧ p.key = q.key ∧
      (recordOne q (recordAll [p] ∅)).1 ≠ .ok true ∧
      balance q.customer (recordAll [p, q] ∅) = .ok 0 ∧
      purchases q.customer (recordAll [p, q] ∅) = .ok [p] := by
  refine ⟨⟨by decide, by decide⟩, ⟨by decide, by decide⟩, by decide, by decide, ?_⟩
  decide +kernel

end Receivables

end Depot
