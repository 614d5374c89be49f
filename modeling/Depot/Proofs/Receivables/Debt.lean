import Depot.Proofs.Archive
import Depot.Proofs.Posting
import Depot.Proofs.Receivables.Record
import Mathlib.Algebra.BigOperators.Ring.Finset
/-!
# What customers owe is the sum of their posted sales

If documents are made, posted and voided by the service, the balance of every customer is the sum
of the values of the posted sales to this customer, stopped at the largest number of 64 bits, and
there is one purchase record for each of these sales and no other (`balance_eq_debt`). Drafts,
failed documents and sales without a customer add nothing, nor does running the hook again for a
sale that is posted.

## How the proof goes

A sale is posted in one unit of work and recorded by the hook in another one behind it. `Booked`
compares the tables between operations: every balance is a sum over the rows of the archive, and
purchases and posted sales are the same. An operation writes at most one row of the archive, and
there was none before, or a draft. So it makes no posted sale (`Booked.put`) or one that is new
(`Booked.put_sale`), and the hook does in the second case what the ledger lacks: the key of
the purchase is new, since a purchase with this key would be of a document that is posted already;
its time can be stored, since that of the posting was; and every balance can be read.

## The side conditions

Identifiers of documents are free of U+0000, as those that are generated are. With that letter in
them two sales could have one key.

The ledger reads the clock behind the commit of a posting, and the clock has not left the times that
can be stored since the posting read it. Nothing else is asked of it: it may stand still or go back.

The medium keeps what is committed. Where it does not confirm a posting, the document is posted and
the ledger is not told (`Posting.postSynced_of_unconfirmed`).
-/

namespace Depot

/-! ## Posted sales -/

/-- The document is a posted sale to the customer. -/
def Document.OwedBy (customer : CustomerId) (d : Document) : Prop :=
  d.kind = .sale ∧ d.status = .posted ∧ d.customer = some customer

instance (customer : CustomerId) : DecidablePred (Document.OwedBy customer) := fun d =>
  inferInstanceAs (Decidable (d.kind = .sale ∧ d.status = .posted ∧ d.customer = some customer))

/-- A sale as the ledger keeps it, but for the time. -/
structure SaleEntry where
  customer : CustomerId
  document : DocumentId
  totalValue : UInt64
  deriving DecidableEq, Repr

/-- The entry that a posted sale to a customer makes. -/
def Document.saleEntry (d : Document) : Option SaleEntry :=
  if d.kind = .sale ∧ d.status = .posted then d.customer.map fun c => ⟨c, d.id, d.totalValue⟩
  else none

/-- The entry that a purchase record holds. -/
def Purchase.entry (p : Purchase) : SaleEntry := ⟨p.customer, p.document, p.totalValue⟩

namespace Receivables

/-- The exact sum of what a customer owes for the posted sales among documents. -/
def debt (customer : CustomerId) (docs : List Document) : Nat :=
  ((docs.filter fun d => d.OwedBy customer).map fun d => d.totalValue.toNat).sum

/-- What a document counts for a customer. -/
def debtShare (customer : CustomerId) (d : Document) : Int :=
  if d.OwedBy customer then (d.totalValue.toNat : Int) else 0

theorem saleEntry_eq_some {d : Document} {e : SaleEntry} :
    d.saleEntry = some e ↔ d.status = .posted ∧ debtor? d = some e.customer ∧ e.document = d.id ∧
      e.totalValue = d.totalValue := by
  obtain ⟨customer, document, value⟩ := e
  unfold Document.saleEntry debtor?
  by_cases hkind : d.kind = .sale <;> by_cases hstatus : d.status = .posted <;>
    cases d.customer <;> simp [hkind, hstatus, eq_comm]

theorem saleEntry_of_not_posted {d : Document} (h : d.status ≠ .posted) : d.saleEntry = none :=
  if_neg fun hp => h hp.2

theorem owedBy_iff {customer : CustomerId} {d : Document} :
    d.OwedBy customer ↔ ∃ e, d.saleEntry = some e ∧ e.customer = customer := by
  unfold Document.OwedBy Document.saleEntry
  by_cases hkind : d.kind = .sale <;> by_cases hstatus : d.status = .posted <;>
    cases d.customer <;> simp [hkind, hstatus]

theorem debtShare_of_none {d : Document} (h : d.saleEntry = none) (customer : CustomerId) :
    debtShare customer d = 0 := by
  refine if_neg fun howed => ?_
  obtain ⟨e, he, -⟩ := owedBy_iff.mp howed
  rw [h] at he
  cases he

theorem debtShare_of_some {d : Document} {e : SaleEntry} (h : d.saleEntry = some e)
    (customer : CustomerId) :
    debtShare customer d = if customer = e.customer then (e.totalValue.toNat : Int) else 0 := by
  have howed : d.OwedBy customer ↔ customer = e.customer := by
    rw [owedBy_iff, h]
    simp [eq_comm]
  rw [debtShare, (saleEntry_eq_some.mp h).2.2.2]
  simp only [howed]

/-- The sum over the rows of the archive is the sum over its listing. -/
theorem sum_debtShare {db : Database} {docs : List Document} (h : Archive.list db = .ok docs)
    (customer : CustomerId) :
    db.documents.sum (Archive.rowValue (debtShare customer)) = debt customer docs := by
  unfold debtShare debt
  rw [Archive.sum_listed_if _ _ h, Nat.cast_list_sum, List.map_map]
  rfl

/-! ## The tables between operations -/

/-- There is a posted sale with this entry. -/
def Sold (db : Database) (e : SaleEntry) : Prop :=
  ∃ d : Document, Archive.load d.id db = .ok d ∧ d.saleEntry = some e

/-- There is a purchase record with this entry, at its key. -/
def Recorded (db : Database) (e : SaleEntry) : Prop :=
  ∃ row p, db.purchases.get? (purchaseKey e.customer e.document) = some row ∧
    (decodeRow row : Except StoreError Purchase) = .ok p ∧ p.entry = e

/-- The ledger holds what the archive says. -/
structure Booked (db : Database) : Prop where
  /-- The identifiers of documents are free of U+0000. -/
  plain : db.documents.Every fun key _ => 0 ∉ key
  balances : ∀ customer, ∃ n : Nat, balance customer db = .ok (clamp n) ∧
    db.documents.sum (Archive.rowValue (debtShare customer)) = n
  /-- Every purchase is of a posted sale. -/
  purchases : db.purchases.Every fun key row => ∃ p : Purchase, decodeRow row = .ok p ∧
    purchaseKey p.customer p.document = key ∧ Sold db p.entry
  /-- Every posted sale has its purchase. -/
  sales : ∀ e, Sold db e → Recorded db e

theorem booked_empty : Booked ∅ where
  plain := Table.every_empty
  balances customer := ⟨0, rfl, rfl⟩
  purchases := Table.every_empty
  sales := by
    rintro e ⟨d, hload, -⟩
    cases hload

theorem Sold.plain {db : Database} (hplain : db.documents.Every fun key _ => 0 ∉ key)
    {e : SaleEntry} (h : Sold db e) : 0 ∉ e.document.bytes := by
  obtain ⟨d, hload, he⟩ := h
  obtain ⟨row, hrow, -⟩ := Archive.load_eq_ok hload
  rw [(saleEntry_eq_some.mp he).2.2.1]
  exact hplain _ _ hrow

/-- A document that is written adds its entry, if none was lost with what it replaces. -/
theorem sold_insert {db db' : Database} {id : DocumentId} {row : Bytes} {d : Document}
    (hold : ∀ d, Archive.load id db = .ok d → d.saleEntry = none) (hd : decodeRow row = .ok d)
    (hid : d.id = id) (hdocuments : db'.documents = db.documents.insert id.bytes row)
    (e : SaleEntry) : Sold db' e ↔ Sold db e ∨ d.saleEntry = some e := by
  have hload : Archive.load id db' = .ok d :=
    Archive.load_of_row (by rw [hdocuments, SortedMap.get?_insert_self]) hd
  constructor
  · rintro ⟨d', hload', he⟩
    by_cases hsame : d'.id = id
    · rw [hsame, hload] at hload'
      cases hload'
      exact .inr he
    · rw [Archive.load_insert_of_ne hsame hdocuments] at hload'
      exact .inl ⟨d', hload', he⟩
  · rintro (⟨d', hload', he⟩ | he)
    · have hne : d'.id ≠ id := by
        intro hsame
        rw [hsame] at hload'
        rw [hold d' hload'] at he
        cases he
      exact ⟨d', by rw [Archive.load_insert_of_ne hne hdocuments, hload'], he⟩
    · exact ⟨d, by rw [hid, hload], he⟩

section Put

variable {db db' : Database} {id : DocumentId} {row : Bytes} {d : Document}

/-- With the same posted sales the same purchases and balances are right. -/
theorem Booked.of_sold (h : Booked db) (hplain : db'.documents.Every fun key _ => 0 ∉ key)
    (hsold : ∀ e, Sold db' e ↔ Sold db e)
    (hsum : ∀ customer, db'.documents.sum (Archive.rowValue (debtShare customer)) =
      db.documents.sum (Archive.rowValue (debtShare customer)))
    (hreceivables : db'.receivables = db.receivables) (hpurchases : db'.purchases = db.purchases) :
    Booked db' where
  plain := hplain
  balances customer := by
    rw [hsum]
    unfold balance
    rw [hreceivables]
    exact h.balances customer
  purchases := by
    rw [hpurchases]
    simp only [hsold]
    exact h.purchases
  sales e he := by
    unfold Recorded
    rw [hpurchases]
    exact h.sales e ((hsold e).mp he)

theorem Booked.congr (h : Booked db) (hdocuments : db'.documents = db.documents)
    (hreceivables : db'.receivables = db.receivables) (hpurchases : db'.purchases = db.purchases) :
    Booked db' := by
  have hplain : db'.documents.Every fun key _ => 0 ∉ key := by
    rw [hdocuments]
    exact h.plain
  have hsold : ∀ e, Sold db' e ↔ Sold db e := fun e => by
    simp only [Sold, Archive.load_congr hdocuments]
  exact h.of_sold hplain hsold (fun _ => by rw [hdocuments]) hreceivables hpurchases

/-- Writing a document that is no posted sale to a customer leaves the ledger right. -/
theorem Booked.put (h : Booked db) (hdb : db.Integrity) (hplain : 0 ∉ id.bytes)
    (hold : ∀ d, Archive.load id db = .ok d → d.saleEntry = none) (hd : decodeRow row = .ok d)
    (hid : d.id = id) (hquiet : d.saleEntry = none)
    (hdocuments : db'.documents = db.documents.insert id.bytes row)
    (hreceivables : db'.receivables = db.receivables) (hpurchases : db'.purchases = db.purchases) :
    Booked db' := by
  have hplain' : db'.documents.Every fun key _ => 0 ∉ key := by
    rw [hdocuments]
    exact h.plain.insert hplain
  have hsold : ∀ e, Sold db' e ↔ Sold db e := fun e => by
    rw [sold_insert hold hd hid hdocuments, hquiet]
    simp
  refine h.of_sold hplain' hsold (fun customer => ?_) hreceivables hpurchases
  rw [hdocuments, Archive.sum_insert hdb _ (fun d hd => debtShare_of_none (hold d hd) customer) hd,
    debtShare_of_none hquiet, Int.add_zero]

/-- Writing a posted sale and its purchase, and adding its value to what its customer owes, leaves
the ledger right. -/
theorem Booked.put_sale (h : Booked db) (hdb : db.Integrity) (hplain : 0 ∉ id.bytes)
    (hold : ∀ d, Archive.load id db = .ok d → d.saleEntry = none) (hd : decodeRow row = .ok d)
    (hid : d.id = id) {e : SaleEntry} (hsale : d.saleEntry = some e) {owed : UInt64}
    (howed : balance e.customer db = .ok owed) {purchaseRow : Bytes} {p : Purchase}
    (hp : decodeRow purchaseRow = .ok p) (hentry : p.entry = e)
    (hdocuments : db'.documents = db.documents.insert id.bytes row)
    (hreceivables : db'.receivables =
      db.receivables.insert e.customer.bytes (Bytes.ofUInt64 (satAdd owed e.totalValue)))
    (hpurchases : db'.purchases =
      db.purchases.insert (purchaseKey e.customer e.document) purchaseRow) : Booked db' := by
  have hsold : ∀ e', Sold db' e' ↔ Sold db e' ∨ e' = e := fun e' => by
    rw [sold_insert hold hd hid hdocuments, hsale, Option.some.injEq, eq_comm (a := e)]
  have hplain' : db'.documents.Every fun key _ => 0 ∉ key := by
    rw [hdocuments]
    exact h.plain.insert hplain
  subst hentry
  refine ⟨hplain', fun customer => ?_, ?_, fun e' he' => ?_⟩
  · obtain ⟨n, hbalance, hsum⟩ := h.balances customer
    have hsum' := Archive.sum_insert hdb (debtShare customer)
      (fun d hd => debtShare_of_none (hold d hd) customer) hd
    rw [hdocuments, hsum', hsum, debtShare_of_some hsale, balance_insert hreceivables]
    by_cases hc : customer = p.entry.customer
    · subst hc
      rw [howed] at hbalance
      cases hbalance
      refine ⟨n + p.entry.totalValue.toNat, ?_, ?_⟩
      · rw [if_pos rfl, satAdd_clamp]
      · rw [if_pos rfl]
        rfl
    · refine ⟨n, ?_, ?_⟩
      · rw [if_neg hc, hbalance]
      · rw [if_neg hc, Int.add_zero]
  · rw [hpurchases]
    simp only [hsold]
    refine Table.Every.insert (fun key row hrow => ?_) ⟨p, hp, rfl, .inr rfl⟩
    obtain ⟨p', hp', hkey, hsold'⟩ := h.purchases key row hrow
    exact ⟨p', hp', hkey, .inl hsold'⟩
  · rcases (hsold e').mp he' with hbefore | rfl
    · -- the new purchase has a key of its own, since its document was not sold before
      obtain ⟨row', p', hrow', hp', rfl⟩ := h.sales e' hbefore
      refine ⟨row', p', ?_, hp', rfl⟩
      have hdocument : p.entry.document = id := (saleEntry_eq_some.mp hsale).2.2.1.trans hid
      have hne : purchaseKey p'.entry.customer p'.entry.document ≠
          purchaseKey p.entry.customer p.entry.document := by
        intro hkey
        obtain ⟨-, hsame⟩ := purchaseKey_injective (hbefore.plain h.plain)
          (by rw [hdocument]; exact hplain) hkey
        obtain ⟨d', hload', he'⟩ := hbefore
        rw [← (saleEntry_eq_some.mp he').2.2.1, hsame, hdocument] at hload'
        rw [hold d' hload'] at he'
        cases he'
      rw [hpurchases, SortedMap.get?_insert_ne _ hne]
      exact hrow'
    · exact ⟨purchaseRow, p, by rw [hpurchases, SortedMap.get?_insert_self], hp, rfl⟩

end Put

/-! ## One operation -/

/-- The operations of the catalog and the service, under identifiers without U+0000, and the hook
run again for posted documents. Behind a posting whose time can be stored, so can the one that the
ledger reads. -/
def ledgerOperation (db : Database) : Operation → Prop
  | .catalog _ => True
  | .service (.create id _ _) => '\x00' ∉ id.text.toList
  | .service (.post _ _ now recordedAt) => now.unixNanos?.isSome → recordedAt.unixNanos?.isSome
  | .service _ => True
  | .receivables (.onSalePosted d _) => Archive.load d.id db = .ok d.stored ∧ d.status = .posted
  | .receivables (.balance _) | .receivables (.purchases _) => True
  | _ => False

section Step

variable {db : Database} {op : Operation}

theorem saleEntry_of_draft {id : DocumentId} {d : Document} (hload : Archive.load id db = .ok d)
    (hdraft : d.status = .draft) : ∀ d', Archive.load id db = .ok d' → d'.saleEntry = none := by
  intro d' hload'
  rw [hload] at hload'
  cases hload'
  exact saleEntry_of_not_posted (by simp [hdraft])

/-- A draft that fails makes no sale. -/
theorem Booked.fail (h : Booked db) (hdb : db.Integrity) {id : DocumentId} {d : Document}
    (hload : Archive.load id db = .ok d) (hdraft : d.status = .draft) {r : FailureRecord}
    (hr : r.Fits) {row : Bytes} (hrow : encode (d.settle (.failure r)) = .ok row) :
    Booked { db with documents := db.documents.insert id.bytes row } := by
  obtain ⟨old, hold, -⟩ := Archive.load_eq_ok hload
  obtain ⟨hdecode, hid⟩ := Archive.decodeRow_settle hdb hload (s := .failure r) hr hrow
  have hfailed : (d.settle (.failure r)).stored.saleEntry = none :=
    saleEntry_of_not_posted (by simp [Document.settle, Document.stored])
  exact h.put hdb (h.plain _ _ hold) (saleEntry_of_draft hload hdraft) hdecode hid hfailed rfl rfl
    rfl

theorem isRegular_of_ledgerOperation (h : ledgerOperation db op) : op.IsRegular := by
  cases op with
  | stock op | archive op => cases h
  | _ => trivial

theorem plain_of_ledgerOperation (h : ledgerOperation db op) {d : Document}
    (hd : op.draft? = some d) : 0 ∉ d.id.bytes := by
  cases op with
  | archive op => cases h
  | service op =>
    cases op with
    | create id request now =>
      cases hd
      rw [Service.DraftRequest.id_document]
      exact Bytes.zero_not_mem_ofText h
    | _ => cases hd
  | _ => cases hd

/-- An operation that leaves the ledger alone makes no posted sale. -/
theorem Booked.of_effect (h : Booked db) (hdb : db.Integrity) (hfits : op.Fits)
    (hallowed : ledgerOperation db op) (hop : ¬ op.WritesReceivables) {db' : Database}
    (heffect : Effect op db db') : Booked db' := by
  have hregular := isRegular_of_ledgerOperation hallowed
  have hnone := Operation.approval?_of_quiet hop
  cases heffect with
  | none => exact h
  | moved asked applied =>
    rw [hregular.batch?_eq_none] at asked
    cases asked
  | @drafted d row asked draft encoded fresh =>
    have hnew : ∀ d', Archive.load d.id db = .ok d' → d'.saleEntry = none := by
      intro d' hload
      obtain ⟨row', hrow', -⟩ := Archive.load_eq_ok hload
      rw [fresh] at hrow'
      cases hrow'
    have hdraft : d.stored.saleEntry = none :=
      saleEntry_of_not_posted (by simp [Document.stored, draft])
    have hdecode := (Document.isRow_stored (Operation.fits_draft hfits asked) encoded).decodeRow
    exact h.put hdb (plain_of_ledgerOperation hallowed asked) hnew hdecode rfl hdraft rfl rfl rfl
  | settled asked loaded draft encoded =>
    have hs := Operation.fits_settlement hfits asked
    obtain ⟨r, rfl⟩ := hregular.voids asked
    exact h.fail hdb loaded draft hs encoded
  | posted asked ready applied encoded =>
    rw [hnone] at asked
    cases asked
  | fellShort asked ready refused encoded =>
    rw [hnone] at asked
    cases asked
  | product => exact h.congr rfl rfl rfl
  | warehouse => exact h.congr rfl rfl rfl
  | removed => exact h.congr rfl rfl rfl

/-- Running the hook again for a posted document changes nothing. -/
theorem commit_onSalePosted_of_booked (h : Booked db) {d : Document}
    (hload : Archive.load d.id db = .ok d.stored) (hposted : d.status = .posted) (now : Timestamp) :
    (UnitOfWork.commit (onSalePosted d now) db).2 = db := by
  cases hdebtor : debtor? d with
  | none => exact commit_onSalePosted_of_none hdebtor now db
  | some customer =>
    have hsale : d.stored.saleEntry = some ⟨customer, d.id, d.totalValue⟩ :=
      saleEntry_eq_some.mpr ⟨hposted, hdebtor, rfl, rfl⟩
    obtain ⟨row, p, hrow, -, -⟩ := h.sales _ ⟨d.stored, hload, hsale⟩
    rw [commit_onSalePosted_of_some hdebtor]
    exact commit_record_of_recorded hrow

/-- The hook is run for posted sales only, but would do nothing for other documents. -/
theorem hook_database (d : Document) (now : Timestamp) (db : Database) :
    (if d.kind = .sale then (hook now d (db, ())).2 else (db, ())).1 =
      (UnitOfWork.commit (onSalePosted d now) db).2 := by
  by_cases hkind : d.kind = .sale
  · rw [if_pos hkind]
    rfl
  · rw [if_neg hkind, commit_onSalePosted_of_none (if_neg hkind)]

/-- No purchase stands at the key of a document that is still a draft. -/
theorem Booked.fresh (h : Booked db) {id : DocumentId} {d : Document}
    (hload : Archive.load id db = .ok d) (hdraft : d.status = .draft) (customer : CustomerId) :
    db.purchases.get? (purchaseKey customer id) = none := by
  cases hpurchase : db.purchases.get? (purchaseKey customer id) with
  | none => rfl
  | some row =>
    obtain ⟨old, hold, -⟩ := Archive.load_eq_ok hload
    obtain ⟨p, -, hkey, hsold⟩ := h.purchases _ _ hpurchase
    obtain ⟨-, hdocument⟩ := purchaseKey_injective (hsold.plain h.plain) (h.plain _ _ hold) hkey
    obtain ⟨d', hload', he⟩ := hsold
    rw [← (saleEntry_eq_some.mp he).2.2.1, show p.entry.document = id from hdocument] at hload'
    rw [saleEntry_of_draft hload hdraft d' hload'] at he
    cases he

/-- A document that is posted is a sale that its hook records, or no sale to a customer. -/
theorem Booked.settle_posted (h : Booked db) (hdb : db.Integrity) {id : DocumentId} {d : Document}
    (hload : Archive.load id db = .ok d) (hdraft : d.status = .draft) {approver : String}
    (happrover : Cbor.TextFits approver) {now recordedAt : Timestamp}
    (hclock : now.unixNanos?.isSome → recordedAt.unixNanos?.isSome) {row : Bytes}
    (hrow : encode (d.settle (Posting.recordOf d approver now)) = .ok row) {db₁ : Database}
    (hdocuments : db₁.documents = db.documents.insert id.bytes row)
    (hreceivables : db₁.receivables = db.receivables) (hpurchases : db₁.purchases = db.purchases) :
    Booked (UnitOfWork.commit (onSalePosted d recordedAt) db₁).2 := by
  obtain ⟨old, hold, rfl, hd⟩ := hdb.isRow_of_load hload
  have hs := Posting.fits_recordOf d happrover now
  obtain ⟨hdecode, hid⟩ := Archive.decodeRow_settle hdb hload hs hrow
  have hplain : 0 ∉ d.id.bytes := h.plain _ _ hold
  have hnone := saleEntry_of_draft hload hdraft
  cases hdebtor : debtor? d with
  | none =>
    have hquiet : (d.settle (Posting.recordOf d approver now)).stored.saleEntry = none := by
      refine Option.eq_none_iff_forall_ne_some.mpr fun e he => ?_
      have hsome : debtor? d = some e.customer := (saleEntry_eq_some.mp he).2.1
      rw [hdebtor] at hsome
      cases hsome
    rw [commit_onSalePosted_of_none hdebtor]
    exact h.put hdb hplain hnone hdecode hid hquiet hdocuments hreceivables hpurchases
  | some customer =>
    have hsale : (d.settle (Posting.recordOf d approver now)).stored.saleEntry =
        some ⟨customer, d.id, d.totalValue⟩ :=
      saleEntry_eq_some.mpr ⟨rfl, hdebtor, rfl, rfl⟩
    -- the time of the posting was stored with the document
    have hnow : now.unixNanos?.isSome :=
      (Document.encode_isOk_iff _).mp ⟨row, hrow⟩ now
        (by simp [Document.times, Document.settle, Posting.recordOf])
    have hfits : (⟨customer, d.id, d.totalValue, recordedAt⟩ : Purchase).Fits :=
      ⟨hd.fits.customer customer (debtor?_eq_some hdebtor).2, hd.fits.id⟩
    obtain ⟨purchaseRow, hpurchase⟩ :=
      (Purchase.encode_isOk_iff ⟨customer, d.id, d.totalValue, recordedAt⟩).mpr (hclock hnow)
    obtain ⟨n, howed, -⟩ := h.balances customer
    have howed₁ : balance customer db₁ = .ok (clamp n) := by
      unfold balance at howed ⊢
      rw [hreceivables, howed]
    have hfresh : db₁.purchases.get? (purchaseKey customer d.id) = none := by
      rw [hpurchases]
      exact h.fresh hload hdraft customer
    have hread := decodeRow_of_reads (Purchase.reads_encode hfits hpurchase)
    rw [commit_onSalePosted_of_some hdebtor]
    unfold UnitOfWork.commit
    rw [record_of_fresh hpurchase hfresh howed₁]
    exact h.put_sale hdb hplain hnone hdecode hid hsale howed hread rfl hdocuments
      (by rw [hreceivables]) (by rw [hpurchases])

/-- A posting that ends in whatever way leaves the ledger right. -/
theorem Booked.post (h : Booked db) (hdb : db.Integrity) (id : DocumentId) {approver : String}
    (happrover : Cbor.TextFits approver) {now recordedAt : Timestamp}
    (hclock : now.unixNanos?.isSome → recordedAt.unixNanos?.isSome) :
    Booked (Posting.post (hook recordedAt) id approver now (db, ())).2.1 := by
  cases hattempt : Posting.attempt id approver now db with
  | error e =>
    have hpost : Posting.post (hook recordedAt) id approver now (db, ()) = (.error e, (db, ())) :=
      Posting.post_of_error hattempt
    rw [hpost]
    exact h
  | ok result =>
    obtain ⟨outcome, db₁⟩ := result
    obtain ⟨d, hready, hended⟩ := Posting.attempt_eq_ok hattempt
    rcases hended with ⟨levels, moved, row, happlied, hrow, rfl, rfl⟩ |
      ⟨s, row, hrefused, hrow, rfl, rfl⟩
    · have hframe := Stock.applyBatch_frame happlied
      have hpost : Posting.post (hook recordedAt) id approver now (db, ()) = (.ok _, _) :=
        Posting.post_of_posted hattempt
      rw [hpost, hook_database, onSalePosted_settle]
      exact h.settle_posted hdb hready.loaded hready.draft happrover hclock hrow rfl
        (by rw [hframe]) (by rw [hframe])
    · have hpost : Posting.post (hook recordedAt) id approver now (db, ()) = (.error _, _) :=
        Posting.post_of_rejected hattempt
      rw [hpost]
      have hs := hdb.fits_shortfall hready.loaded hrefused now
      exact h.fail hdb hready.loaded hready.draft hs hrow

/-- An operation that may write the ledger leaves it right. -/
theorem Booked.of_writing {σ : Type} {world : Database × σ} (h : Booked world.1)
    (hdb : world.1.Integrity) (hfits : op.Fits) (hallowed : ledgerOperation world.1 op)
    (hop : op.WritesReceivables) (saleHook : SaleHook σ) :
    Booked (op.run saleHook world).2.1 := by
  cases op with
  | receivables op =>
    cases op with
    | record => cases hallowed
    | onSalePosted d now =>
      obtain ⟨hload, hposted⟩ := hallowed
      show Booked (UnitOfWork.commit (onSalePosted d now) world.1).2
      rw [commit_onSalePosted_of_booked h hload hposted]
      exact h
    | _ => exact h
  | service op =>
    cases op with
    | post id approver now recordedAt => exact h.post hdb id hfits hallowed
    | _ => cases hop
  | posting op => cases hallowed
  | _ => cases hop

end Step

/-! ## Histories -/

variable {σ : Type} {saleHook : LedgerHook σ} {world : Database × σ}

theorem booked_of_reachable (h : Reachable saleHook ledgerOperation world) : Booked world.1 := by
  induction h with
  | start s => exact booked_empty
  | @step world op hreach hfits hallowed ih =>
    by_cases hop : op.WritesReceivables
    · exact ih.of_writing hreach.integrity hfits hallowed hop saleHook.run
    · exact ih.of_effect hreach.integrity hfits hallowed hop (effect_quiet hop world)

/-- Purchases and posted sales to customers are the same entries, each once. -/
theorem Booked.perm {db : Database} (h : Booked db) (hdb : db.Integrity) {docs : List Document}
    (hdocs : Archive.list db = .ok docs) :
    ∃ ps : List Purchase, db.purchases.records = .ok ps ∧
      (ps.map Purchase.entry).Perm (docs.filterMap Document.saleEntry) := by
  have hrows : ∀ row ∈ db.purchases.toList, ∃ p : Purchase, decodeRow row.2 = .ok p ∧
      purchaseKey p.customer p.document = row.1 ∧ Sold db p.entry := fun row hrow =>
    h.purchases row.1 row.2 (SortedMap.mem_toList_iff.mp hrow)
  obtain ⟨ps, hps⟩ := exists_mapM_eq_ok (l := db.purchases.toList)
    (f := fun row => (decodeRow row.2 : Except StoreError Purchase)) fun row hrow =>
      let ⟨p, hp, _⟩ := hrows row hrow
      ⟨p, hp⟩
  have hkey : ∀ row ∈ db.purchases.toList, ∀ p : Purchase, decodeRow row.2 = .ok p →
      purchaseKey p.customer p.document = row.1 ∧ Sold db p.entry := by
    intro row hrow p hp
    obtain ⟨p', hp', hrest⟩ := hrows row hrow
    rw [hp] at hp'
    cases hp'
    exact hrest
  refine ⟨ps, hps, (List.perm_ext_iff_of_nodup ?_ ?_).mpr fun e => ?_⟩
  · have hkeys : ps.map (fun p => purchaseKey p.customer p.document) =
        db.purchases.toList.map Prod.fst :=
      map_of_mapM_eq_ok hps fun row hrow p hp => (hkey row hrow p hp).1
    have hnodup := db.purchases.nodup_keys
    rw [← hkeys] at hnodup
    refine List.Nodup.of_map (fun e => purchaseKey e.customer e.document) ?_
    rw [List.map_map]
    exact hnodup
  · rw [List.Nodup, List.pairwise_filterMap]
    refine (Archive.pairwise_list hdb hdocs).imp fun {d d'} hne e he e' he' heq => hne ?_
    rw [← (saleEntry_eq_some.mp he).2.2.1, ← (saleEntry_eq_some.mp he').2.2.1, heq]
  · have hsold : e ∈ docs.filterMap Document.saleEntry ↔ Sold db e := by
      simp only [List.mem_filterMap, Archive.mem_list hdb hdocs, Sold]
    rw [hsold, List.mem_map]
    constructor
    · rintro ⟨p, hp, rfl⟩
      obtain ⟨row, hrow, hdecode⟩ := (mem_of_mapM_eq_ok hps p).mp hp
      exact (hkey row hrow p hdecode).2
    · intro he
      obtain ⟨row, p, hrow, hp, hentry⟩ := h.sales e he
      exact ⟨p, (mem_of_mapM_eq_ok hps p).mpr ⟨_, SortedMap.mem_toList_iff.mpr hrow, hp⟩, hentry⟩

/-- Whatever was made, posted and voided, in any order and with any failures, and however often the
hook was run again: every balance can be read and is the sum of the posted sales to its customer,
stopped at the largest number, and each of these sales has one purchase record. The medium is taken
to keep what is committed, and the clock not to leave the times that can be stored between the
readings of a posting and of the ledger. -/
theorem balance_eq_debt (h : Reachable saleHook ledgerOperation world) :
    ∃ docs, Archive.list world.1 = .ok docs ∧
      (∀ customer, ∃ owed, balance customer world.1 = .ok owed ∧
        owed.toNat = min maxUInt64 (debt customer docs)) ∧
      ∃ ps : List Purchase, world.1.purchases.records = .ok ps ∧
        (ps.map Purchase.entry).Perm (docs.filterMap Document.saleEntry) := by
  have hdb := h.integrity
  have hbooked := booked_of_reachable h
  obtain ⟨docs, hdocs⟩ := Archive.exists_list hdb
  refine ⟨docs, hdocs, fun customer => ?_, hbooked.perm hdb hdocs⟩
  obtain ⟨n, hbalance, hsum⟩ := hbooked.balances customer
  rw [sum_debtShare hdocs] at hsum
  have hn : n = debt customer docs := by exact_mod_cast hsum.symm
  exact ⟨clamp n, hbalance, by rw [toNat_clamp, hn, Nat.min_comm]⟩

/-- The draft of a sale to a customer at price seven. -/
def saleDraft (id : String) (quantity : UInt64) : ServiceOperation :=
  .create ⟨id⟩ ⟨.sale ⟨"w"⟩ (some ⟨"c"⟩), [⟨⟨"p"⟩, quantity, some 7⟩], "a", none⟩ (.ofUnixNanos 1)

/-- Five units come in; two of them are sold to a customer, nine cannot be. -/
def salesHistory : List Operation :=
  [.catalog (.addWarehouse ⟨"w"⟩ "l"), .catalog (.addProduct ⟨"p"⟩ "n" 7),
    .service (.create ⟨"d"⟩ ⟨.inbound ⟨"w"⟩, [⟨⟨"p"⟩, 5, some 7⟩], "a", none⟩ (.ofUnixNanos 0)),
    .service (saleDraft "s" 2), .service (saleDraft "t" 9),
    .service (.post ⟨"d"⟩ "b" (.ofUnixNanos 2) (.ofUnixNanos 2)),
    .service (.post ⟨"s"⟩ "b" (.ofUnixNanos 3) (.ofUnixNanos 4)),
    .service (.post ⟨"t"⟩ "b" (.ofUnixNanos 5) (.ofUnixNanos 5))]

/-- The sale of two units as it was posted. -/
def soldDocument : Document :=
  let d : Document := { Document.draft ⟨"s"⟩ .sale "a" (.ofUnixNanos 1) with
    source := some ⟨"w"⟩, customer := some ⟨"c"⟩, lines := [⟨⟨"p"⟩, 2, some 7⟩] }
  d.settle (Posting.recordOf d "b" (.ofUnixNanos 3))

/-- The hook run once more for it, behind all others. -/
def salesWorld : Database × Unit :=
  (Operation.run LedgerHook.silent.run (.receivables (.onSalePosted soldDocument (.ofUnixNanos 6)))
    (runAll LedgerHook.silent.run salesHistory (∅, ()))).2

theorem fits_salesHistory : ∀ op ∈ salesHistory, op.Fits := by
  have hb : Cbor.TextFits "b" := by decide
  have hdrafts : ∀ op ∈ salesHistory, ∀ d ∈ op.draft?, d.Fits := by decide
  simp only [salesHistory, saleDraft, Operation.draft?, List.forall_mem_cons] at hdrafts
  simp only [salesHistory, List.forall_mem_cons]
  exact ⟨⟨by decide, by decide⟩, ⟨by decide, by decide⟩, hdrafts.2.2.1 _ rfl,
    hdrafts.2.2.2.1 _ rfl, hdrafts.2.2.2.2.1 _ rfl, hb, hb, hb, by simp⟩

theorem reachable_salesWorld : Reachable .silent ledgerOperation salesWorld := by
  have hallowed : ∀ op ∈ salesHistory, ∀ db, ledgerOperation db op := by
    have hclock : ∀ n ∈ [2, 4, 5], (Timestamp.ofUnixNanos n).unixNanos?.isSome := by decide
    simp only [List.forall_mem_cons] at hclock
    simp [salesHistory, saleDraft, ledgerOperation, hclock]
  have hsold : soldDocument.Fits := .settle (by decide) (Posting.fits_recordOf _ (by decide) _)
  exact (Reachable.runAll fits_salesHistory hallowed (.start ())).step hsold
    (show Archive.load _ _ = .ok _ ∧ _ by decide +kernel)

/-- Fourteen are owed, and by one purchase. -/
theorem balance_eq_debt_salesWorld :
    ∃ world : Database × Unit, Reachable .silent ledgerOperation world ∧
      balance ⟨"c"⟩ world.1 = .ok 14 ∧ ∃ docs, Archive.list world.1 = .ok docs ∧
        debt ⟨"c"⟩ docs = 14 ∧ docs.filterMap Document.saleEntry = [⟨⟨"c"⟩, ⟨"s"⟩, 14⟩] := by
  obtain ⟨docs, hdocs, howed, ps, hps, hperm⟩ := balance_eq_debt reachable_salesWorld
  have hbalance : balance ⟨"c"⟩ salesWorld.1 = .ok 14 := by decide +kernel
  have hpurchases : salesWorld.1.purchases.records =
      .ok [(⟨⟨"c"⟩, ⟨"s"⟩, 14, .ofUnixNanos 4⟩ : Purchase)] := by decide +kernel
  obtain ⟨owed, howed, hsum⟩ := howed ⟨"c"⟩
  rw [hbalance] at howed
  cases howed
  rw [hpurchases] at hps
  cases hps
  have hmax : maxUInt64 = 0xFFFFFFFFFFFFFFFF := rfl
  have hfourteen : (14 : UInt64).toNat = 14 := rfl
  exact ⟨_, reachable_salesWorld, hbalance, docs, hdocs, by omega, hperm.singleton_eq.symm⟩

end Receivables

end Depot
