import Depot.Proofs.Receivables.SaleHook
import Depot.Proofs.Service.Drafts
import Depot.Proofs.Service.Faults
import Depot.Proofs.Stock.Shortfall
/-!
# The stock check of a transfer agrees with its posting

When a transfer is made, the stock of its source is checked key by key, and keys that something
comes in for are passed over. When it is posted, all keys are planned, and one that would overflow
is refused as well. Both find the same first shortfall. Only an overflow in the destination may be
found before it, or where there is none (`Service.transfer_check_agrees`).

## How the proof goes

Check and plan go through the same keys in the same order (`applyBatch_of_checkAvailable`). A key
that the plan refuses and the check lets pass has no room for what comes in, so it is one of the
destination. The archive stands between the two, and writes no stock.

## The side conditions

The posting names an approver, and its time can be stored. A draft is put into the archive by hand
if its identifier is not taken and it has a stored form; its note, its identifier and its time
need not be those of the refused one.
-/

namespace Depot

/-! ## Transfers -/

namespace Document

theorem SameOrder.batch {a b : Document} (h : a.SameOrder b) : a.batch = b.batch := by
  have hline : a.lineMovements = b.lineMovements := by
    funext line
    unfold lineMovements
    rw [h.kind, h.source, h.destination]
  unfold Document.batch movements
  rw [hline, h.lines]

/-- A transfer that keeps the rules, of products in the catalog, between warehouses in the catalog
whose identifiers fit a key of stock. -/
structure SoundTransfer (d : Document) (source destination : WarehouseId) (db : Database) :
    Prop where
  kind : d.kind = .transfer
  leaves : d.source = some source
  enters : d.destination = some destination
  valid : d.violations = []
  short : ∀ w ∈ [source, destination], w.bytes.length ≤ StockKey.maxWarehouseLength
  warehouses : ∀ w ∈ [source, destination], ∃ r, Catalog.warehouse? w db = .ok (some r)
  products : ∀ line ∈ d.lines, ∃ p, Catalog.product? line.product db = .ok (some p)

namespace SoundTransfer

variable {d d' : Document} {source destination : WarehouseId} {db db' : Database}

/-- What is asked of a transfer is asked of its order and the catalog. -/
theorem of_sameOrder (h : d.SoundTransfer source destination db) (hd : d'.SameOrder d)
    (hwarehouses : db'.warehouses = db.warehouses) (hproducts : db'.products = db.products) :
    d'.SoundTransfer source destination db' where
  kind := hd.kind.trans h.kind
  leaves := hd.source.trans h.leaves
  enters := hd.destination.trans h.enters
  valid := hd.violations.trans h.valid
  short := h.short
  warehouses := by
    unfold Catalog.warehouse?
    rw [hwarehouses]
    exact h.warehouses
  products := by
    unfold Catalog.product?
    rw [hd.lines, hproducts]
    exact h.products

theorem warehouses_eq (h : d.SoundTransfer source destination db) :
    d.warehouses = [source, destination] := by
  rw [Document.warehouses, h.leaves, h.enters]
  rfl

theorem postingViolations (h : d.SoundTransfer source destination db) {approver : String}
    (happrover : isBlank approver = false) : d.postingViolations approver = [] := by
  rw [Document.postingViolations, h.valid, happrover]
  rfl

theorem hasSides (h : d.SoundTransfer source destination db) : d.HasSides :=
  fun _ => ⟨⟨source, h.leaves⟩, destination, h.enters⟩

theorem ready (h : d.SoundTransfer source destination db) {id : DocumentId}
    (hload : Archive.load id db = .ok d) (hdraft : d.status = .draft) {approver : String}
    (happrover : isBlank approver = false) : Posting.Ready id approver db d where
  loaded := hload
  draft := hdraft
  valid := h.postingViolations happrover
  warehouses := by
    rw [h.warehouses_eq]
    exact h.warehouses
  products := h.products

/-- The keys of a transfer are those of its warehouses. -/
theorem short_of_mem (h : d.SoundTransfer source destination db) {m : StockKey × Int}
    (hm : m ∈ d.batch.toList) :
    m.1.warehouse.bytes.length ≤ StockKey.maxWarehouseLength := by
  have hwarehouse := (key_of_mem_batch hm).2
  rw [h.warehouses_eq] at hwarehouse
  exact h.short _ hwarehouse

/-- A transfer adds to its destination only. -/
theorem destination_of_gain (h : d.SoundTransfer source destination db) {m : StockKey × Int}
    (hm : m ∈ d.batch.toList) (hgain : 0 < m.2) : m.1.warehouse = destination := by
  have hnet : m.2 = d.batch.net m.1 := (Batch.mem_ofList hm).2
  rw [net_batch h.hasSides, contribution_eq] at hnet
  by_contra hother
  have hdirection : d.direction m.1.warehouse ≤ 0 := by
    have hne : d.destination ≠ some m.1.warehouse := by
      rw [h.enters]
      exact fun heq => hother (Option.some.inj heq).symm
    simp only [direction, h.kind, hne, if_false]
    split <;> omega
  rcases d.direction_bounds m.1.warehouse with hd | hd | hd <;> rw [hd] at hnet hdirection <;> omega

end SoundTransfer

end Document

/-! ## Check and plan -/

namespace Stock

/-- The stock covers every movement of the batch. -/
def Covers (db : Database) (batch : Batch) : Prop :=
  ∀ m ∈ batch.toList, 0 ≤ ((onHand db m.1).toNat : Int) + m.2

/-- The movement is the first of the batch, in key order, that the stock falls short of. -/
structure FirstShort (db : Database) (batch : Batch) (m : StockKey × Int) : Prop where
  mem : m ∈ batch.toList
  lacks : ((onHand db m.1).toNat : Int) + m.2 < 0
  first : ∀ m' ∈ batch.toList, compare m'.1 m.1 = .lt → 0 ≤ ((onHand db m'.1).toNat : Int) + m'.2

theorem exists_firstShort {db : Database} {batch : Batch} (h : ¬ Covers db batch) :
    ∃ m, FirstShort db batch m := by
  obtain ⟨m, hm, hlacks, hfirst⟩ := exists_least h
  exact ⟨m, hm, Int.not_le.mp hlacks, hfirst⟩

/-- The shortfall that is reported of a movement. -/
def shortfallOf (db : Database) (m : StockKey × Int) : Shortfall :=
  ⟨m.1.warehouse, m.1.product, onHand db m.1, clamp m.2.natAbs⟩

theorem fault_of_lacks {db : Database} {m : StockKey × Int}
    (hshort : m.1.warehouse.bytes.length ≤ StockKey.maxWarehouseLength)
    (hlacks : ((onHand db m.1).toNat : Int) + m.2 < 0) :
    fault (onHand db m.1) m = .refused (.insufficient (shortfallOf db m)) := by
  rw [fault, if_neg (Nat.not_lt.mpr hshort), if_pos hlacks]
  rfl

theorem fault_of_covered {db : Database} {m : StockKey × Int}
    (hshort : m.1.warehouse.bytes.length ≤ StockKey.maxWarehouseLength)
    (hcovered : ¬ ((onHand db m.1).toNat : Int) + m.2 < 0) :
    fault (onHand db m.1) m = .refused (.overflow m.1) := by
  rw [fault, if_neg (Nat.not_lt.mpr hshort), if_neg hcovered]

end Stock

namespace Service

variable {d d' : Document} {source destination : WarehouseId} {db db' : Database}

/-- The check reads the batch and the stock, and nothing else. -/
theorem checkAvailable_congr (hbatch : d'.batch = d.batch) (hstock : db'.stock = db.stock) :
    checkAvailable d' db' = checkAvailable d db := by
  unfold checkAvailable Stock.quantity
  rw [hbatch, hstock]

/-- The check fails at the first movement that the stock falls short of. -/
theorem checkAvailable_eq (hstock : db.stock.HoldsQuantities)
    (hshort : ∀ m ∈ d.batch.toList, m.1.warehouse.bytes.length ≤ StockKey.maxWarehouseLength) :
    checkAvailable d db = d.batch.toList.forM fun m =>
      if ((Stock.onHand db m.1).toNat : Int) + m.2 < 0 then
        .error (.stock (.refused (.insufficient (Stock.shortfallOf db m))))
      else .ok () := by
  refine (alike_forM fun m hm => alike_of_eq ?_).eq
  obtain ⟨key, delta⟩ := m
  dsimp only
  rw [Stock.quantity_eq_onHand hstock (hshort _ hm)]
  by_cases hgain : 0 ≤ delta
  · rw [if_pos hgain, if_neg (by omega)]
  · rw [if_neg hgain]
    refine bind_ok rfl ?_
    by_cases hlacks : (Stock.onHand db key).toNat < delta.natAbs
    · rw [if_pos hlacks, if_pos (by omega)]
      rfl
    · rw [if_neg hlacks, if_neg (by omega)]
      rfl

/-- A batch that the stock covers passes the check. -/
theorem checkAvailable_of_covers (hstock : db.stock.HoldsQuantities)
    (hshort : ∀ m ∈ d.batch.toList, m.1.warehouse.bytes.length ≤ StockKey.maxWarehouseLength)
    (h : Stock.Covers db d.batch) : checkAvailable d db = .ok () := by
  rw [checkAvailable_eq hstock hshort, forM_eq_ok]
  intro m hm
  rw [if_neg (Int.not_lt.mpr (h m hm))]

/-- The first movement that the stock falls short of is reported. -/
theorem checkAvailable_of_firstShort (hstock : db.stock.HoldsQuantities)
    (hshort : ∀ m ∈ d.batch.toList, m.1.warehouse.bytes.length ≤ StockKey.maxWarehouseLength)
    {m : StockKey × Int} (h : Stock.FirstShort db d.batch m) :
    checkAvailable d db =
      .error (.stock (.refused (.insufficient (Stock.shortfallOf db m)))) := by
  obtain ⟨before, behind, hsplit, hbefore⟩ := Batch.exists_split h.mem
  rw [checkAvailable_eq hstock hshort, hsplit]
  refine forM_append_cons_eq_error (fun m' hm' => ?_) (if_pos h.lacks)
  obtain ⟨hmem, hlt⟩ := hbefore m' hm'
  rw [if_neg (Int.not_lt.mpr (h.first m' hmem hlt))]

/-- The batch of a transfer is refused for a key of the destination that has no room for it, or it
is applied or falls short as the check says. -/
theorem applyBatch_of_checkAvailable (hdb : db.HoldsQuantities) (hfits : d.Fits)
    (h : d.SoundTransfer source destination db) {approver : String}
    (happrover : isBlank approver = false) :
    (∃ key : StockKey, key.warehouse = destination ∧
      Stock.applyBatch d.batch db = .error (.refused (.overflow key))) ∨
    (checkAvailable d db = .ok () ∧ ∃ result, Stock.applyBatch d.batch db = .ok result) ∨
    ∃ s, checkAvailable d db = .error (.stock (.refused (.insufficient s))) ∧
      Stock.applyBatch d.batch db = .error (.refused (.insufficient s)) := by
  by_cases hall : ∀ m ∈ d.batch.toList, Stock.Admissible (Stock.onHand db m.1) m
  · have hcovers : Stock.Covers db d.batch := fun m hm => (hall m hm).nonneg
    exact .inr (.inl ⟨checkAvailable_of_covers hdb.stock (fun m hm => h.short_of_mem hm) hcovers,
      _, Stock.applyBatch_of_admissible hdb hall⟩)
  · have hroom := Document.hasRoom_batch hfits (h.postingViolations happrover)
    obtain ⟨m, hm, hrefused⟩ := Stock.refused_of_not_admissible hdb hroom hall
    have hshort := h.short_of_mem hm.mem
    by_cases hlacks : ((Stock.onHand db m.1).toNat : Int) + m.2 < 0
    · rw [Stock.fault_of_lacks hshort hlacks] at hrefused
      have hfirst : Stock.FirstShort db d.batch m :=
        ⟨hm.mem, hlacks, fun m' hm' hlt => (hm.first m' hm' hlt).nonneg⟩
      exact .inr (.inr ⟨_, checkAvailable_of_firstShort hdb.stock
        (fun m hm => h.short_of_mem hm) hfirst, hrefused⟩)
    · rw [Stock.fault_of_covered hshort hlacks] at hrefused
      refine .inl ⟨m.1, h.destination_of_gain hm.mem ?_, hrefused⟩
      -- what is there fits, so what does not fit is more
      have hquantity := (Stock.onHand db m.1).toNat_lt
      have hmax : maxUInt64 = 0xFFFFFFFFFFFFFFFF := rfl
      by_contra hgain
      exact hm.refused ⟨hshort, by omega, by omega⟩

end Service

/-! ## Posting the next draft -/

/-- The operation posts the document with this identifier, for an approver who has a name, at a time
that can be stored. -/
structure Operation.Posts (op : Operation) (id : DocumentId) (approver : String) (now : Timestamp) :
    Prop where
  asked : op.approval? = some (id, approver, now)
  named : isBlank approver = false
  clock : now.unixNanos?.isSome

/-- The answer of the operation and the world behind it are those of an end of a posting. The hook
is the one that the operation has in the system. -/
def Operation.EndsPosting {σ : Type} (op : Operation) (hook : LedgerHook σ) (id : DocumentId)
    (approver : String) (now : Timestamp) (world : Database × σ) : Prop :=
  ∃ result, Posting.Ends (op.ownHook hook).run id approver now world result ∧
    op.run hook.run world = ((result.1.mapError .posting).map .document, result.2)

section Taken

variable {σ : Type} {hook : LedgerHook σ} {world : Database × σ} {d : Document}
  {source destination : WarehouseId}

/-- What posts a document where every row can be read ends as a posting does. -/
theorem Operation.Posts.endsPosting {op : Operation} {id : DocumentId} {approver : String}
    {now : Timestamp} (h : op.Posts id approver now) (hdb : world.1.Integrity)
    (happrover : Cbor.TextFits approver) : op.EndsPosting hook id approver now world :=
  ⟨_, Posting.ends_of_integrity hdb id happrover h.clock, by
    rw [Operation.run_eq_perform, Operation.perform_of_some h.asked]⟩

/-- A new draft with a stored form is taken in. -/
theorem Archive.insert_of_fresh {db : Database} {row : Bytes} (hdraft : d.status = .draft)
    (hrow : encode d = .ok row) (hfresh : db.documents.get? d.id.bytes = none) :
    insert d db =
      .ok ((), { db with documents := db.documents.insert d.id.bytes row }) := by
  have hcontains : db.documents.contains d.id.bytes = false :=
    Table.contains_eq_false_iff.mpr hfresh
  unfold insert
  simp only [hdraft, ne_eq, not_true_eq_false, if_false]
  refine bind_ok (by rw [encodeRow_eq_ok.mpr hrow]; rfl) ?_
  simp only [hcontains]
  rfl

/-- The world behind an operation that has taken a draft in. -/
structure Document.Entered (d : Document) (world world' : Database × σ) : Prop where
  draft : d.status = .draft
  loads : Archive.load d.id world'.1 = .ok d.stored
  encodes : ∃ row, encode d.stored = .ok row
  frame : world'.1 = { world.1 with documents := world'.1.documents }

theorem Operation.entered (hfits : d.Fits) {taken : Operation} {answer : Answer}
    (htaken : taken.draft? = some d) (hok : (taken.run hook.run world).1 = .ok answer) :
    d.Entered world (taken.run hook.run world).2 := by
  have hinsert := Operation.insert_of_run htaken hok
  generalize (taken.run hook.run world).2 = world' at hinsert ⊢
  obtain ⟨hdraft, row, hrow, -, hwritten⟩ := Archive.insert_eq_ok hinsert
  have hget : world'.1.documents.get? d.id.bytes = some row := by
    rw [hwritten, SortedMap.get?_insert_self]
  exact ⟨hdraft, Archive.load_of_row hget (Document.isRow_stored hfits hrow).decodeRow,
    ⟨row, by rw [Document.encode_stored, hrow]⟩, by rw [hwritten]⟩

/-- The posting of a transfer that was taken in just before is refused for a key of the destination
that has no room for it, or it ends as the check says. -/
theorem Service.answer_of_entered (hook : LedgerHook σ) (hdb : world.1.HoldsQuantities)
    (hfits : d.Fits)
    (hsound : d.SoundTransfer source destination world.1) {world' : Database × σ}
    (hentered : d.Entered world world') {op : Operation} {approver : String} {now : Timestamp}
    (hop : op.Posts d.id approver now) :
    (∃ key : StockKey, key.warehouse = destination ∧
      (op.run hook.run world').1 = .error (.posting (.refused (.overflow key)))) ∨
    (checkAvailable d world.1 = .ok () ∧
      (op.run hook.run world').1 =
        .ok (.document (d.stored.settle (Posting.recordOf d.stored approver now)))) ∨
    ∃ s, checkAvailable d world.1 = .error (.stock (.refused (.insufficient s))) ∧
      (op.run hook.run world').1 = .error (.posting (.refused (.insufficient s))) := by
  have hdb' : world'.1.HoldsQuantities := by
    rw [hentered.frame]
    exact ⟨hdb.stock, hdb.occupancy⟩
  have hsound' : d.stored.SoundTransfer source destination world'.1 :=
    hsound.of_sameOrder d.sameOrder_stored (by rw [hentered.frame]) (by rw [hentered.frame])
  have hcheck : checkAvailable d.stored world'.1 = checkAvailable d world.1 :=
    checkAvailable_congr d.sameOrder_stored.batch (by rw [hentered.frame])
  obtain ⟨τ, run, t, hanswer, -⟩ := Operation.run_of_approval hook hop.asked world'
  have hready : Posting.Ready d.id approver (world'.1, t).1 d.stored :=
    hsound'.ready hentered.loads hentered.draft hop.named
  obtain ⟨row, hrow⟩ := hentered.encodes
  rw [hanswer, Posting.post_of_ready hready hrow hop.clock]
  rcases applyBatch_of_checkAvailable hdb' hfits.stored hsound' hop.named with
    ⟨key, hkey, hbatch⟩ | ⟨hok, result, hbatch⟩ | ⟨s, hshort, hbatch⟩
  · refine .inl ⟨key, hkey, ?_⟩
    rw [hbatch]
    rfl
  · refine .inr (.inl ⟨hcheck ▸ hok, ?_⟩)
    rw [hbatch]
    rfl
  · refine .inr (.inr ⟨s, hcheck ▸ hshort, ?_⟩)
    rw [hbatch]
    rfl

/-- A transfer that is made, or fails for a shortfall, has passed or failed the check. -/
theorem Service.checkAvailable_of_create {id : DocumentId} {request : DraftRequest}
    {now : Timestamp} {db : Database} (hkind : (request.document id now).kind = .transfer) :
    (∀ result, create id request now db = .ok result →
      checkAvailable (request.document id now) db = .ok ()) ∧
    ∀ s, create id request now db = .error (.stock (.refused (.insufficient s))) →
      checkAvailable (request.document id now) db =
        .error (.stock (.refused (.insufficient s))) := by
  unfold create
  dsimp only
  rw [if_pos hkind]
  constructor
  · intro result h
    obtain ⟨-, -, h⟩ := bind_eq_ok h
    obtain ⟨⟨⟩, hcheck, -⟩ := bind_eq_ok h
    exact hcheck
  · intro s h
    rcases bind_eq_error h with hvalid | ⟨-, -, h⟩
    · obtain ⟨_, -, hother⟩ := mapError_eq_error hvalid
      cases hother
    rcases bind_eq_error h with hcheck | ⟨-, -, hkeep⟩
    · exact hcheck
    · exact absurd_of_noShortfall (noShortfall_keep _ db) hkeep rfl

/-- In every reachable database, for a transfer that keeps the rules and the catalog: once it is
made, its posting as the next operation succeeds, unless a key of the destination has no room. If it
is not made for a shortfall, a draft for the same order that is put into the archive instead is
refused for the same shortfall, unless a key of the destination has no room. What is behind the
posting is what its end says (`Posting.Ends`). -/
theorem Service.transfer_check_agrees (h : Reachable hook anyOperation world) {id : DocumentId}
    {request : DraftRequest} {now : Timestamp} (hfits : (request.document id now).Fits)
    (hsound : (request.document id now).SoundTransfer source destination world.1) :
    let create : Operation := .service (.create id request now)
    (∀ made, (create.run hook.run world).1 = .ok (.document made) →
      ∀ op approver later, Operation.Posts op id approver later →
        let answer := (op.run hook.run (create.run hook.run world).2).1
        (answer = .ok (.document
            (made.stored.settle (Posting.recordOf made.stored approver later))) ∨
          ∃ key : StockKey, key.warehouse = destination ∧
            answer = .error (.posting (.refused (.overflow key)))) ∧
        (Cbor.TextFits approver →
          op.EndsPosting hook id approver later (create.run hook.run world).2)) ∧
    ∀ s, (create.run hook.run world).1 = .error (.stock (.refused (.insufficient s))) →
      ∀ d : Document, d.SameOrder (request.document id now) → d.status = .draft → d.Fits →
        (∃ row, encode d = .ok row) → world.1.documents.get? d.id.bytes = none →
        let insert : Operation := .archive (.insert d)
        (insert.run hook.run world).1 = .ok .done ∧
          ∀ op approver later, Operation.Posts op d.id approver later →
            let answer := (op.run hook.run (insert.run hook.run world).2).1
            (answer = .error (.posting (.refused (.insufficient s))) ∨
              ∃ key : StockKey, key.warehouse = destination ∧
                answer = .error (.posting (.refused (.overflow key)))) ∧
            (Cbor.TextFits approver →
              op.EndsPosting hook d.id approver later (insert.run hook.run world).2) := by
  intro create
  have hdb := h.integrity.quantities
  obtain ⟨hpassed, hfailed⟩ := checkAvailable_of_create hsound.kind
  constructor
  · intro made hmade op approver later hop answer
    have hmadeReach : Reachable hook anyOperation (create.run hook.run world).2 :=
      h.step hfits trivial
    refine ⟨?_, hop.endsPosting hmadeReach.integrity⟩
    have hid := request.id_document id now
    rw [← hid] at hop
    obtain ⟨value, db, hcreate, hvalue, -⟩ := update_eq_ok hmade
    cases hvalue
    obtain ⟨rfl, -⟩ := create_checked hcreate
    have hentered : (request.document id now).Entered world (create.run hook.run world).2 :=
      Operation.entered hfits rfl hmade
    rcases answer_of_entered hook hdb hfits hsound hentered hop with
      hfull | ⟨-, hposted⟩ | ⟨s, hshort, -⟩
    · exact .inr hfull
    · exact .inl hposted
    · rw [hpassed _ hcreate] at hshort
      cases hshort
  · intro s hcreate d hsame hdraft hdfits ⟨row, hrow⟩ hfresh insert
    obtain ⟨⟨_, hcreate, rfl⟩, -⟩ := update_eq_error hcreate
    have hinserted : (insert.run hook.run world).1 = .ok .done := by
      simp only [insert, Operation.run, ArchiveOperation.run, update, UnitOfWork.commit,
        Archive.insert_of_fresh hdraft hrow hfresh]
      rfl
    refine ⟨hinserted, ?_⟩
    intro op approver later hop answer
    have hinsertedReach : Reachable hook anyOperation (insert.run hook.run world).2 :=
      h.step hdfits trivial
    refine ⟨?_, hop.endsPosting hinsertedReach.integrity⟩
    have hcheck : checkAvailable d world.1 = .error (.stock (.refused (.insufficient s))) := by
      rw [checkAvailable_congr hsame.batch rfl]
      exact hfailed s hcreate
    have hentered : d.Entered world (insert.run hook.run world).2 :=
      Operation.entered hdfits rfl hinserted
    rcases answer_of_entered hook hdb hdfits (hsound.of_sameOrder hsame rfl rfl) hentered hop with
      hfull | ⟨hok, -⟩ | ⟨s', hshort, hrefused⟩
    · exact .inr hfull
    · rw [hcheck] at hok
      cases hok
    · rw [hcheck] at hshort
      cases hshort
      exact .inl hrefused

end Taken

namespace Service

/-- Five pieces come into one of two warehouses. -/
def supply : List Operation :=
  [.catalog (.addWarehouse ⟨"v"⟩ "l"), .catalog (.addWarehouse ⟨"w"⟩ "l"),
    .catalog (.addProduct ⟨"p"⟩ "n" 1), .stock (.applyDelta ⟨⟨"v"⟩, ⟨"p"⟩⟩ 5)]

/-- So many of them, and one more, are asked for in the other warehouse. -/
def demand (quantity : UInt64) : DraftRequest :=
  ⟨.transfer ⟨"v"⟩ ⟨"w"⟩, [⟨⟨"p"⟩, quantity, none⟩, ⟨⟨"p"⟩, 1, none⟩], "a", none⟩

theorem reachable_supply : Reachable (σ := Unit) .silent anyOperation
    (runAll LedgerHook.silent.run supply (∅, ())) := by
  refine .runAll ?_ (fun _ _ _ => trivial) (.start ())
  simp only [supply, List.forall_mem_cons, Operation.Fits]
  exact ⟨by decide, by decide, by decide, by decide, by simp⟩

theorem fits_demand {quantity : UInt64} (hquantity : quantity = 3 ∨ quantity = 8) :
    ((demand quantity).document ⟨"d"⟩ (.ofUnixNanos 0)).Fits := by
  rcases hquantity with rfl | rfl <;> decide

theorem soundTransfer_demand {quantity : UInt64} (hquantity : quantity = 3 ∨ quantity = 8) :
    ((demand quantity).document ⟨"d"⟩ (.ofUnixNanos 0)).SoundTransfer ⟨"v"⟩ ⟨"w"⟩
      (runAll SaleHook.none supply ((∅, ()) : Database × Unit)).1 where
  kind := rfl
  leaves := rfl
  enters := rfl
  valid := by
    rcases hquantity with rfl | rfl <;> decide
  short := by decide
  warehouses := by
    intro w hw
    refine ⟨⟨w, "l"⟩, ?_⟩
    revert w
    decide +kernel
  products := by
    intro line hline
    refine ⟨⟨⟨"p"⟩, "n", 1⟩, ?_⟩
    have hproduct : line.product = ⟨"p"⟩ := by
      simp only [demand, DraftRequest.document, Document.withLines, Document.ofRoute,
        Document.draft, List.nil_append, List.mem_cons, List.not_mem_nil, or_false] at hline
      rcases hline with rfl | rfl <;> rfl
    rw [hproduct]
    decide +kernel

/-- Three pieces and one are made a transfer, which is posted. Eight and one are not, and a draft
for them is refused for the same shortfall. Both postings end as postings do. -/
theorem transfer_check_agrees_supply :
    ∃ world : Database × Unit, Reachable .silent anyOperation world ∧
      (∀ quantity, quantity = 3 ∨ quantity = 8 →
        ((demand quantity).document ⟨"d"⟩ (.ofUnixNanos 0)).Fits ∧
          ((demand quantity).document ⟨"d"⟩ (.ofUnixNanos 0)).SoundTransfer ⟨"v"⟩ ⟨"w"⟩ world.1) ∧
      let post : Operation := .service (.post ⟨"d"⟩ "b" (.ofUnixNanos 1) (.ofUnixNanos 2))
      let create (quantity : UInt64) : Operation :=
        .service (.create ⟨"d"⟩ (demand quantity) (.ofUnixNanos 0))
      let insert : Operation := .archive (.insert ((demand 8).document ⟨"d"⟩ (.ofUnixNanos 0)))
      let s : Shortfall := ⟨⟨"v"⟩, ⟨"p"⟩, 5, 9⟩
      post.Posts ⟨"d"⟩ "b" (.ofUnixNanos 1) ∧ Cbor.TextFits "b" ∧
        (∃ made posted, ((create 3).run SaleHook.none world).1 = .ok (.document made) ∧
          (post.run SaleHook.none ((create 3).run SaleHook.none world).2).1 =
            .ok (.document posted)) ∧
        post.EndsPosting .silent ⟨"d"⟩ "b" (.ofUnixNanos 1)
          ((create 3).run SaleHook.none world).2 ∧
        ((create 8).run SaleHook.none world).1 = .error (.stock (.refused (.insufficient s))) ∧
        (insert.run SaleHook.none world).1 = .ok .done ∧
        (post.run SaleHook.none (insert.run SaleHook.none world).2).1 =
          .error (.posting (.refused (.insufficient s))) ∧
        post.EndsPosting .silent ⟨"d"⟩ "b" (.ofUnixNanos 1) (insert.run SaleHook.none world).2 := by
  refine ⟨_, reachable_supply, fun _ h => ⟨fits_demand h, soundTransfer_demand h⟩, ?_⟩
  intro post create insert s
  have hpost : post.Posts ⟨"d"⟩ "b" (.ofUnixNanos 1) := ⟨rfl, by decide, by decide⟩
  have happrover : Cbor.TextFits "b" := by decide
  have hmade : ((create 3).run SaleHook.none
      (runAll SaleHook.none supply ((∅, ()) : Database × Unit))).1 =
        .ok (.document ((demand 3).document ⟨"d"⟩ (.ofUnixNanos 0))) := by decide +kernel
  have hshort : ((create 8).run SaleHook.none
      (runAll SaleHook.none supply ((∅, ()) : Database × Unit))).1 =
        .error (.stock (.refused (.insufficient s))) := by decide +kernel
  obtain ⟨hposted, -⟩ := transfer_check_agrees reachable_supply (fits_demand (.inl rfl))
    (soundTransfer_demand (.inl rfl))
  obtain ⟨-, hrefused⟩ := transfer_check_agrees reachable_supply (fits_demand (.inr rfl))
    (soundTransfer_demand (.inr rfl))
  obtain ⟨hinserted, hrefused⟩ := hrefused s hshort _ (Document.sameOrder_refl _) rfl
    (fits_demand (.inr rfl)) (DraftRequest.encode_document _ _ (by decide)) (by decide +kernel)
  obtain ⟨hposted, hpostedEnds⟩ := hposted _ hmade post "b" _ hpost
  obtain ⟨hrefused, hrefusedEnds⟩ := hrefused post "b" _ hpost
  refine ⟨hpost, happrover, ?_, hpostedEnds happrover, hshort, hinserted, ?_,
    hrefusedEnds happrover⟩
  · rcases hposted with h | ⟨key, -, hfull⟩
    · exact ⟨_, _, hmade, h⟩
    · have hroom : (post.run SaleHook.none ((create 3).run SaleHook.none
          (runAll SaleHook.none supply ((∅, ()) : Database × Unit))).2).1.isOk = true := by
        decide +kernel
      cases (congrArg Except.isOk hfull).symm.trans hroom
  · rcases hrefused with h | ⟨key, hkey, hfull⟩
    · exact h
    · have hlacks : (post.run SaleHook.none (insert.run SaleHook.none
          (runAll SaleHook.none supply ((∅, ()) : Database × Unit))).2).1 =
            .error (.posting (.refused (.insufficient s))) := by decide +kernel
      cases hlacks.symm.trans hfull

end Service

end Depot
