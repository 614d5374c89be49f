import Depot.Proofs.Receivables.Isolation
import Depot.Proofs.Table
import Mathlib.Algebra.BigOperators.Group.Finset.Basic
import Mathlib.Data.List.Find
/-!
# The first recording counts

Sales may be recorded any number of times, in any order and with other values each time: for a
customer and a document the first recording counts. If the identifiers of the customers are free of
U+0000, the balance of a customer is the sum of the first values of the customer's documents,
stopped at the largest 64-bit number, and the purchases are these documents, each once and with its
first value, in the order of identifiers. A later recording changes nothing, so the balance depends
on the first values only, and not on the order in which they came (`first_recording_counts`).

## How the proof goes

The sum is exact, and the balance is stopped in every step. The invariant is that the balance is the
sum of the first values so far, stopped once; a further recording adds its value to both, or to none
of them (`firstSum_append`). That the ledger and the sum agree on which recordings are new is where
the identifiers matter: the ledger asks for the key only (`isNew_iff`).
-/

namespace Depot.Receivables

/-! ## First values -/

/-- The first of the recordings for a customer and a document. -/
def firstFor (customer : CustomerId) (document : DocumentId) (ps : List Purchase) :
    Option Purchase :=
  ps.find? fun p => p.customer = customer ∧ p.document = document

/-- The value of the first recording. -/
def firstValue (customer : CustomerId) (document : DocumentId) (ps : List Purchase) : Nat :=
  ((firstFor customer document ps).map fun p => p.totalValue.toNat).getD 0

/-- The documents that were recorded for a customer. -/
def documentsFor (customer : CustomerId) (ps : List Purchase) : Finset DocumentId :=
  ((ps.filter fun p => p.customer = customer).map Purchase.document).toFinset

/-- What the first values of a customer's documents add up to. -/
def firstSum (customer : CustomerId) (ps : List Purchase) : Nat :=
  ∑ document ∈ documentsFor customer ps, firstValue customer document ps

section FirstValues

variable {customer : CustomerId} {document : DocumentId} {ps qs : List Purchase} {p q : Purchase}

theorem of_firstFor (h : firstFor customer document ps = some q) :
    q ∈ ps ∧ q.customer = customer ∧ q.document = document :=
  ⟨List.mem_of_find?_eq_some h, by simpa using List.find?_some h⟩

theorem mem_documentsFor :
    document ∈ documentsFor customer ps ↔
      ∃ q ∈ ps, q.customer = customer ∧ q.document = document := by
  simp [documentsFor, and_assoc]

theorem mem_documentsFor_iff_isSome :
    document ∈ documentsFor customer ps ↔ (firstFor customer document ps).isSome := by
  rw [mem_documentsFor, firstFor, List.find?_isSome]
  simp

/-- A further recording is the first of its document if there is none before. -/
theorem firstFor_append (customer : CustomerId) (document : DocumentId) (ps : List Purchase)
    (p : Purchase) : firstFor customer document (ps ++ [p]) =
      (firstFor customer document ps).or
        (if p.customer = customer ∧ p.document = document then some p else none) := by
  simp only [firstFor, List.find?_append, List.find?_singleton, decide_eq_true_eq]

theorem firstValue_append_of_mem (h : document ∈ documentsFor customer ps) (p : Purchase) :
    firstValue customer document (ps ++ [p]) = firstValue customer document ps := by
  obtain ⟨q, hq⟩ := Option.isSome_iff_exists.mp (mem_documentsFor_iff_isSome.mp h)
  rw [firstValue, firstFor_append, hq, Option.some_or, firstValue, hq]

theorem firstValue_append_self (h : p.document ∉ documentsFor p.customer ps) :
    firstValue p.customer p.document (ps ++ [p]) = p.totalValue.toNat := by
  rw [mem_documentsFor_iff_isSome, Option.not_isSome_iff_eq_none] at h
  rw [firstValue, firstFor_append, h, Option.none_or, if_pos ⟨rfl, rfl⟩]
  rfl

theorem documentsFor_append (customer : CustomerId) (ps : List Purchase) (p : Purchase) :
    documentsFor customer (ps ++ [p]) =
      if p.customer = customer then insert p.document (documentsFor customer ps)
      else documentsFor customer ps := by
  ext document
  by_cases h : p.customer = customer
  · simp [mem_documentsFor, h, or_and_right, exists_or, or_comm, eq_comm]
  · simp [mem_documentsFor, h, or_and_right, exists_or]

/-- A further recording adds its value if it is the first of its document, and nothing if not. -/
theorem firstSum_append (customer : CustomerId) (ps : List Purchase) (p : Purchase) :
    firstSum customer (ps ++ [p]) = firstSum customer ps +
      if p.customer = customer ∧ p.document ∉ documentsFor customer ps then p.totalValue.toNat
      else 0 := by
  have hold : ∑ document ∈ documentsFor customer ps, firstValue customer document (ps ++ [p]) =
      firstSum customer ps :=
    Finset.sum_congr rfl fun document h => firstValue_append_of_mem h p
  rw [firstSum, documentsFor_append]
  -- the documents are those of before, or with one more that had no value
  by_cases hc : p.customer = customer
  · subst hc
    by_cases hd : p.document ∈ documentsFor p.customer ps
    · simp [hd, hold]
    · rw [if_pos rfl, if_pos ⟨rfl, hd⟩, Finset.sum_insert hd, hold, firstValue_append_self hd,
        Nat.add_comm]
  · simp [hc, hold]

/-- The sum depends on the first values only. -/
theorem firstSum_congr
    (h : ∀ document, (firstFor customer document qs).map Purchase.totalValue =
      (firstFor customer document ps).map Purchase.totalValue) :
    firstSum customer qs = firstSum customer ps := by
  have hdocuments : documentsFor customer qs = documentsFor customer ps := by
    ext document
    rw [mem_documentsFor_iff_isSome, mem_documentsFor_iff_isSome, ← Option.isSome_map, h,
      Option.isSome_map]
  rw [firstSum, hdocuments, firstSum]
  refine Finset.sum_congr rfl fun document _ => ?_
  have hvalue := congrArg (fun value => (value.map UInt64.toNat).getD 0) (h document)
  simp only [Option.map_map] at hvalue
  exact hvalue

/-- The order of recordings of different documents or customers does not matter. -/
theorem firstFor_perm (hperm : qs.Perm ps)
    (h : (ps.map fun p => (p.customer, p.document)).Nodup) (customer : CustomerId)
    (document : DocumentId) :
    firstFor customer document qs = firstFor customer document ps := by
  refine (List.find?_eq_find?_of_perm hperm.symm fun p hp q hq => ?_).symm
  simp only [Set.mem_ofPred_eq, decide_eq_true_eq] at hp hq
  refine List.inj_on_of_nodup_map h hp.1 hq.1 ?_
  rw [hp.2.1, hp.2.2, hq.2.1, hq.2.2]

end FirstValues

/-! ## Keys -/

section Keys

variable {ps : List Purchase} (hplain : ∀ p ∈ ps, '\x00' ∉ p.customer.text.toList)
include hplain

/-- A key was recorded exactly if its customer and document were. -/
theorem isNew_iff {p : Purchase} (hp : '\x00' ∉ p.customer.text.toList) :
    (∀ q ∈ ps, q.key ≠ p.key) ↔ p.document ∉ documentsFor p.customer ps := by
  rw [mem_documentsFor]
  simp only [not_exists, not_and]
  refine forall₂_congr fun q hq => ?_
  rw [ne_eq, Purchase.key, Purchase.key, purchaseKey_eq_iff (hplain q hq) hp, not_and]

theorem firstWith_key {customer : CustomerId} (hc : '\x00' ∉ customer.text.toList)
    (document : DocumentId) :
    firstWith (purchaseKey customer document) ps = firstFor customer document ps := by
  refine List.find?_congr fun p hp => ?_
  rw [decide_eq_decide]
  exact purchaseKey_eq_iff (hplain p hp) hc

end Keys

/-! ## Runs -/

section Runs

variable {ps : List Purchase} {db : Database}

/-- The step of a run: what a recording answers, what it leaves, and what is owed then. -/
theorem recordOne_of_owed (h : Ledger ps db)
    (howed : ∀ customer, balance customer db = .ok (clamp (firstSum customer ps)))
    (hps : ∀ q ∈ ps, '\x00' ∉ q.customer.text.toList) {p : Purchase} (hp : p.Recordable)
    (hplain : '\x00' ∉ p.customer.text.toList) :
    (p.document ∈ documentsFor p.customer ps → recordOne p db = (.ok false, db)) ∧
    (p.document ∉ documentsFor p.customer ps → (recordOne p db).1 = .ok true) ∧
    ∀ customer, balance customer (recordOne p db).2 =
      .ok (clamp (firstSum customer (ps ++ [p]))) := by
  obtain ⟨fresh, db', hrecord, hfresh, hdone, -⟩ := recordOne_ledger h hp
  rw [isNew_iff hps hplain] at hfresh
  rw [hrecord]
  cases hdone with
  | again =>
    have hrecorded : p.document ∈ documentsFor p.customer ps := by simpa using hfresh
    refine ⟨fun _ => rfl, fun hnew => absurd hrecorded hnew, fun customer => ?_⟩
    rw [howed, firstSum_append, if_neg, Nat.add_zero]
    rintro ⟨rfl, hnew⟩
    exact hnew hrecorded
  | fresh owes adds others =>
    have hnew := hfresh.mp rfl
    refine ⟨fun hrecorded => absurd hrecorded hnew, fun _ => rfl, fun customer => ?_⟩
    rw [firstSum_append]
    by_cases hc : p.customer = customer
    · subst hc
      rw [howed] at owes
      cases owes
      rw [adds, satAdd_clamp, if_pos ⟨rfl, hnew⟩]
    · rw [others customer (Ne.symm hc), howed, if_neg (fun hand => hc hand.1), Nat.add_zero]

/-- What is owed after a run is the sum of the first values, stopped at the largest number. The
induction is on the run, by its last recording. -/
theorem balance_recordAll (hstart : Ledger [] db)
    (hzero : ∀ customer, balance customer db = .ok 0) (h : ∀ p ∈ ps, p.Recordable)
    (hplain : ∀ p ∈ ps, '\x00' ∉ p.customer.text.toList) (customer : CustomerId) :
    balance customer (recordAll ps db) = .ok (clamp (firstSum customer ps)) := by
  induction ps using List.reverseRecOn generalizing customer with
  | nil => exact hzero customer
  | append_singleton ps p ih =>
    rw [List.forall_mem_append] at h hplain
    have hrun : recordAll (ps ++ [p]) db = (recordOne p (recordAll ps db)).2 := by
      rw [recordAll, List.foldl_append]
      rfl
    rw [hrun]
    exact (recordOne_of_owed (ledger_recordAll hstart h.1) (ih h.1 hplain.1) hplain.1
      (h.2 p List.mem_cons_self) (hplain.2 p List.mem_cons_self)).2.2 customer

/-- The purchases of a customer are the first recordings of the customer's documents, in the order
of identifiers. -/
theorem Ledger.purchases_of_plain (h : Ledger ps db) (hps : ∀ p ∈ ps, p.Recordable)
    (hplain : ∀ p ∈ ps, '\x00' ∉ p.customer.text.toList) {customer : CustomerId}
    (hc : '\x00' ∉ customer.text.toList) :
    ∃ listed, purchases customer db = .ok listed ∧
      listed.Pairwise (fun p q => compare p.document.bytes q.document.bytes = .lt) ∧
      ∀ p, p ∈ listed ↔ ∃ q, firstFor customer p.document ps = some q ∧ p = q.stored := by
  obtain ⟨listed, hlisted, hmem⟩ := h.purchases_eq hps customer
  have hkeys : listed.map (fun p => purchasesStart customer ++ p.document.bytes) =
      (db.purchases.startingWith (purchasesStart customer)).map Prod.fst := by
    refine map_of_mapM_eq_ok hlisted fun r hr p hp => ?_
    obtain ⟨q, hq, -, hstart, rfl⟩ := h.row_eq hr
    rw [(hps q hq).decodeRow] at hp
    cases hp
    rw [(purchasesStart_isPrefix_iff hc (hplain q hq)).mp hstart]
    rfl
  refine ⟨listed, hlisted, Table.increasing_startingWith hkeys, fun p => ?_⟩
  rw [hmem]
  constructor
  · rintro ⟨q, hq, hfirst, hstart, rfl⟩
    obtain rfl := (purchasesStart_isPrefix_iff hc (hplain q hq)).mp hstart
    exact ⟨q, (firstWith_key hplain hc _).symm.trans hfirst, rfl⟩
  · rintro ⟨q, hfirst, rfl⟩
    obtain ⟨hq, rfl, hdocument⟩ := of_firstFor hfirst
    rw [← hdocument] at hfirst
    exact ⟨q, hq, (firstWith_key hplain hc _).trans hfirst, ⟨_, rfl⟩, rfl⟩

end Runs

/-- In a run of recordings, with any documents and values, for customers free of U+0000: a
recording whose document was recorded for its customer before is answered with false and changes
nothing, and any other with true. The balance of a customer is the sum of the first values of the
customer's documents, stopped at the largest number, and the purchases are the first recordings of
these documents, in the order of identifiers. Runs with the same first values have the same
balances, and so have runs of recordings of different documents or customers in any order. -/
theorem first_recording_counts {db : Database} (hreceivables : db.receivables = ∅)
    (hpurchases : db.purchases = ∅) {ps : List Purchase} (h : ∀ p ∈ ps, p.Recordable)
    (hplain : ∀ p ∈ ps, '\x00' ∉ p.customer.text.toList) :
    (∀ n p, ps[n]? = some p →
      (p.document ∈ documentsFor p.customer (ps.take n) →
        recordOne p (recordAll (ps.take n) db) = (.ok false, recordAll (ps.take n) db)) ∧
      (p.document ∉ documentsFor p.customer (ps.take n) →
        (recordOne p (recordAll (ps.take n) db)).1 = .ok true)) ∧
    (∀ customer, balance customer (recordAll ps db) = .ok (clamp (firstSum customer ps))) ∧
    (∀ customer : CustomerId, '\x00' ∉ customer.text.toList →
      ∃ listed, purchases customer (recordAll ps db) = .ok listed ∧
        listed.Pairwise (fun p q => compare p.document.bytes q.document.bytes = .lt) ∧
        ∀ p, p ∈ listed ↔ ∃ q, firstFor customer p.document ps = some q ∧ p = q.stored) ∧
    (∀ qs : List Purchase, (∀ q ∈ qs, q.Recordable) →
      (∀ q ∈ qs, '\x00' ∉ q.customer.text.toList) →
      (∀ customer document, (firstFor customer document qs).map Purchase.totalValue =
        (firstFor customer document ps).map Purchase.totalValue) →
      ∀ customer, balance customer (recordAll qs db) = balance customer (recordAll ps db)) ∧
    ∀ qs : List Purchase, qs.Perm ps → (ps.map fun p => (p.customer, p.document)).Nodup →
      ∀ customer, balance customer (recordAll qs db) = balance customer (recordAll ps db) := by
  have hstart := ledger_start hreceivables hpurchases
  have hzero (customer : CustomerId) : balance customer db = .ok 0 := by
    rw [balance, hreceivables]
    rfl
  have howed {qs : List Purchase} (hqs : ∀ q ∈ qs, q.Recordable)
      (hplain' : ∀ q ∈ qs, '\x00' ∉ q.customer.text.toList) (customer : CustomerId) :
      balance customer (recordAll qs db) = .ok (clamp (firstSum customer qs)) :=
    balance_recordAll hstart hzero hqs hplain' customer
  have hsame (qs : List Purchase) (hqs : ∀ q ∈ qs, q.Recordable)
      (hplain' : ∀ q ∈ qs, '\x00' ∉ q.customer.text.toList)
      (hfirst : ∀ customer document, (firstFor customer document qs).map Purchase.totalValue =
        (firstFor customer document ps).map Purchase.totalValue) (customer : CustomerId) :
      balance customer (recordAll qs db) = balance customer (recordAll ps db) := by
    rw [howed hqs hplain', howed h hplain, firstSum_congr (hfirst customer)]
  refine ⟨fun n p hp => ?_, howed h hplain, fun customer hc =>
    (ledger_recordAll hstart h).purchases_of_plain h hplain hc, hsame, fun qs hperm hpairs => ?_⟩
  · have hps : ∀ q ∈ ps.take n, q.Recordable := fun q hq => h q (List.mem_of_mem_take hq)
    have hplain' : ∀ q ∈ ps.take n, '\x00' ∉ q.customer.text.toList :=
      fun q hq => hplain q (List.mem_of_mem_take hq)
    have hmem := List.mem_of_getElem? hp
    have hone := recordOne_of_owed (ledger_recordAll hstart hps) (howed hps hplain') hplain'
      (h p hmem) (hplain p hmem)
    exact ⟨hone.1, hone.2.1⟩
  · refine hsame qs (fun q hq => h q (hperm.mem_iff.mp hq))
      (fun q hq => hplain q (hperm.mem_iff.mp hq)) fun customer document => ?_
    rw [firstFor_perm hperm hpairs]

/-- Sales to two customers whose identifiers begin alike. The second one for a document of the first
customer has another value, and the sum of the first customer's values is too large. -/
def mixedSales : List Purchase :=
  [⟨⟨"a"⟩, ⟨"d2"⟩, 5, .ofUnixNanos 0⟩, ⟨⟨"ab"⟩, ⟨"d1"⟩, 7, .ofUnixNanos 1⟩,
    ⟨⟨"a"⟩, ⟨"d1"⟩, 0xFFFFFFFFFFFFFFFF, .ofUnixNanos 2⟩, ⟨⟨"a"⟩, ⟨"d2"⟩, 9, .ofUnixNanos 3⟩]

/-- The last sale is not recorded; what the customers owe is stopped at the largest number, and
seven. Of the other sales the order does not matter. -/
theorem first_recording_counts_mixed :
    (∀ p ∈ mixedSales, p.Recordable) ∧
    (∀ p ∈ mixedSales, '\x00' ∉ p.customer.text.toList) ∧
    recordOne ⟨⟨"a"⟩, ⟨"d2"⟩, 9, .ofUnixNanos 3⟩ (recordAll (mixedSales.take 3) ∅) =
      (.ok false, recordAll (mixedSales.take 3) ∅) ∧
    balance ⟨"a"⟩ (recordAll mixedSales ∅) = .ok 0xFFFFFFFFFFFFFFFF ∧
    balance ⟨"ab"⟩ (recordAll mixedSales ∅) = .ok 7 ∧
    balance ⟨"a"⟩ (recordAll (mixedSales.take 3).reverse ∅) =
      balance ⟨"a"⟩ (recordAll (mixedSales.take 3) ∅) := by
  have hsales : ∀ p ∈ mixedSales, p.Recordable := by
    simp only [mixedSales, List.forall_mem_cons]
    exact ⟨⟨by decide, by decide⟩, ⟨by decide, by decide⟩, ⟨by decide, by decide⟩,
      ⟨by decide, by decide⟩, by simp⟩
  have hplain : ∀ p ∈ mixedSales, '\x00' ∉ p.customer.text.toList := by decide
  have hnone : (∅ : Database).receivables = ∅ := rfl
  obtain ⟨hanswers, howed, -⟩ := first_recording_counts hnone rfl hsales hplain
  obtain ⟨-, -, -, -, horder⟩ := first_recording_counts hnone rfl
    (fun p hp => hsales p (List.mem_of_mem_take (i := 3) hp))
    (fun p hp => hplain p (List.mem_of_mem_take hp))
  refine ⟨hsales, hplain, (hanswers 3 _ rfl).1 (by decide), (howed ⟨"a"⟩).trans (by decide),
    (howed ⟨"ab"⟩).trans (by decide), horder _ (List.reverse_perm _) (by decide) ⟨"a"⟩⟩

end Depot.Receivables
