import Depot.Proofs.Receivables.RoundTrip
import Depot.Proofs.SortedMap
/-!
# What the ledger writes

A sale to a customer is recorded under a key made of both identifiers with a zero byte between. A
zero byte is the form of the letter U+0000 and stands in no other text, so the key tells the two
apart if the document's identifier is free of that letter (`purchaseKey_injective`).

A sale is written if its key is new, and the balance can be read and the time be stored
(`record_of_fresh`); if the key is there already nothing is written (`commit_record_of_recorded`).
-/

namespace Depot

/-! ## Zero bytes in texts -/

theorem Bytes.ofText_eq_flatMap (s : String) :
    Bytes.ofText s = s.toList.flatMap String.utf8EncodeChar := by
  conv => lhs; rw [← String.ofList_toList (s := s)]
  rw [ofText, String.toByteArray_ofList, List.utf8Encode, List.toList_data_toByteArray]

theorem zero_not_mem_utf8EncodeChar {c : Char} (h : c ≠ '\x00') :
    0 ∉ String.utf8EncodeChar c := by
  have hzero (n : Nat) : (0 : UInt8) = UInt8.ofNat n ↔ n % 256 = 0 := by
    rw [← UInt8.toNat_inj, UInt8.toNat_ofNat']
    exact eq_comm
  have hval : c.val.toNat ≠ 0 := fun hc => h (Char.ext (UInt32.toNat_inj.mp hc))
  -- the leading byte of a longer form and all bytes behind it are at least 128
  fun_cases String.utf8EncodeChar <;>
    · simp only [List.mem_cons, List.not_mem_nil, or_false, hzero]
      omega

/-- A text without U+0000 has no zero byte. -/
theorem Bytes.zero_not_mem_ofText {s : String} (h : '\x00' ∉ s.toList) : 0 ∉ Bytes.ofText s := by
  rw [ofText_eq_flatMap, List.mem_flatMap]
  rintro ⟨c, hc, hzero⟩
  exact zero_not_mem_utf8EncodeChar (fun h0 => h (h0 ▸ hc)) hzero

/-- The last zero byte splits a byte string in one way only. -/
theorem append_zero_append_inj {a a' b b' : Bytes} (hb : 0 ∉ b) (hb' : 0 ∉ b')
    (h : a ++ [0] ++ b = a' ++ [0] ++ b') : a = a' ∧ b = b' := by
  -- if one front were longer, its zero byte would stand behind the other one
  have shorter {a a' b b' extra : Bytes} (hb : 0 ∉ b) (hfront : a' ++ [0] = a ++ [0] ++ extra)
      (hback : b = extra ++ b') : a = a' ∧ b = b' := by
    rcases List.eq_nil_or_concat extra with rfl | ⟨init, last, rfl⟩
    · rw [List.append_nil] at hfront
      exact ⟨(List.append_inj' hfront rfl).1.symm, hback⟩
    · rw [List.concat_eq_append, ← List.append_assoc] at hfront
      obtain ⟨-, hlast⟩ := List.append_inj' hfront rfl
      cases hlast
      exact absurd (by rw [hback]; simp) hb
  rcases List.append_eq_append_iff.mp h with ⟨extra, hfront, hback⟩ | ⟨extra, hfront, hback⟩
  · exact shorter hb hfront hback
  · obtain ⟨ha, hbb⟩ := shorter hb' hfront hback
    exact ⟨ha.symm, hbb.symm⟩

namespace Receivables

theorem purchaseKey_injective {customer customer' : CustomerId} {document document' : DocumentId}
    (hd : 0 ∉ document.bytes) (hd' : 0 ∉ document'.bytes)
    (h : purchaseKey customer document = purchaseKey customer' document') :
    customer = customer' ∧ document = document' := by
  obtain ⟨hcustomer, hdocument⟩ := append_zero_append_inj hd hd' h
  exact ⟨Ident.bytes_injective hcustomer, Ident.bytes_injective hdocument⟩

/-! ## Balances -/

/-- A balance that is set is read back, and no other changes. -/
theorem balance_insert {customer : CustomerId} {owed : UInt64} {db db' : Database}
    (h : db'.receivables = db.receivables.insert customer.bytes (Bytes.ofUInt64 owed))
    (customer' : CustomerId) :
    balance customer' db' = if customer' = customer then .ok owed else balance customer' db := by
  unfold balance
  rw [h]
  by_cases hc : customer' = customer
  · subst hc
    rw [SortedMap.get?_insert_self, if_pos rfl]
    simp only [readQuantity, Bytes.toUInt64?_ofUInt64]
  · have hne : customer'.bytes ≠ customer.bytes := fun hb => hc (Ident.bytes_injective hb)
    rw [SortedMap.get?_insert_ne _ hne, if_neg hc]

/-! ## Recording a sale -/

section Record

variable {customer : CustomerId} {document : DocumentId} {totalValue : UInt64} {now : Timestamp}
  {db : Database}

theorem record_of_fresh {row : Bytes}
    (hrow : encode (⟨customer, document, totalValue, now⟩ : Purchase) = .ok row)
    (hfresh : db.purchases.get? (purchaseKey customer document) = none) {owed : UInt64}
    (howed : balance customer db = .ok owed) :
    record customer document totalValue now db = .ok (true, { db with
      receivables := db.receivables.insert customer.bytes (Bytes.ofUInt64 (satAdd owed totalValue))
      purchases := db.purchases.insert (purchaseKey customer document) row }) := by
  have hcontains : db.purchases.contains (purchaseKey customer document) = false := by
    simp [SortedMap.contains, hfresh]
  unfold record
  refine bind_ok (by unfold encodeRow; rw [hrow]) ?_
  simp only [hcontains, Bool.false_eq_true, if_false]
  exact bind_ok howed rfl

/-- A sale that is recorded is not written again. -/
theorem commit_record_of_recorded {row : Bytes}
    (h : db.purchases.get? (purchaseKey customer document) = some row) :
    (UnitOfWork.commit (record customer document totalValue now) db).2 = db := by
  have hcontains : db.purchases.contains (purchaseKey customer document) = true := by
    simp [SortedMap.contains, h]
  unfold UnitOfWork.commit record
  simp only [hcontains, if_true]
  cases encodeRow (⟨customer, document, totalValue, now⟩ : Purchase) <;> rfl

theorem record_of_recorded {row row' : Bytes}
    (hrow : encode (⟨customer, document, totalValue, now⟩ : Purchase) = .ok row)
    (h : db.purchases.get? (purchaseKey customer document) = some row') :
    record customer document totalValue now db = .ok (false, db) := by
  have hcontains : db.purchases.contains (purchaseKey customer document) = true := by
    simp [SortedMap.contains, h]
  unfold record
  refine bind_ok (by unfold encodeRow; rw [hrow]) ?_
  simp only [hcontains, if_true]
  rfl

end Record

/-! ## Posted sales -/

/-- The customer that a sale is to. -/
def debtor? (d : Document) : Option CustomerId := if d.kind = .sale then d.customer else none

theorem debtor?_eq_some {d : Document} {customer : CustomerId} (h : debtor? d = some customer) :
    d.kind = .sale ∧ d.customer = some customer := by
  unfold debtor? at h
  split at h
  · exact ⟨‹_›, h⟩
  · cases h

/-- Settling a document changes nothing that the ledger looks at. -/
theorem onSalePosted_settle (d : Document) (s : Settlement) (now : Timestamp) :
    onSalePosted (d.settle s) now = onSalePosted d now := by
  cases s <;> rfl

theorem commit_onSalePosted_of_none {d : Document} (h : debtor? d = none) (now : Timestamp)
    (db : Database) : (UnitOfWork.commit (onSalePosted d now) db).2 = db := by
  unfold UnitOfWork.commit onSalePosted
  cases hkind : d.kind <;> cases hcustomer : d.customer <;> simp_all [debtor?] <;> rfl

theorem commit_onSalePosted_of_some {d : Document} {customer : CustomerId}
    (h : debtor? d = some customer) (now : Timestamp) (db : Database) :
    (UnitOfWork.commit (onSalePosted d now) db).2 =
      (UnitOfWork.commit (record customer d.id d.totalValue now) db).2 := by
  obtain ⟨hkind, hcustomer⟩ := debtor?_eq_some h
  unfold UnitOfWork.commit onSalePosted
  simp only [hkind, hcustomer]
  cases record customer d.id d.totalValue now db <;> rfl

end Receivables

end Depot
